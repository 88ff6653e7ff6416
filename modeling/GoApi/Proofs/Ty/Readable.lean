import GoApi.Proofs.Ty.Reading

/-!
# Descriptors are readable

    a.Nested → b.Nested → Stops r → Stops s →
      a.text ++ r = b.text ++ s → a.Alike b ∧ r = s          (readable)

The induction runs over the children of `a`.  The first characters tell the constructor
(`lead_text`), so only equal constructors are left to compare.  Next to each other in an interface
stand methods, types and unions, which `member_unique` tells apart.
-/

namespace GoApi

open Text

section Nested

variable {param name : String → Prop}

/-! ## Unions and interfaces -/

theorem IsProperUnion.split {ts : List (Term Ty)} (h : IsProperUnion ts) :
    ∃ t us, ts = t :: us ∧ (t.tilde = true ∨ us ≠ []) := by
  rcases h with h | ⟨t, rfl, ht⟩
  · match ts with
    | t :: u :: us => exact ⟨t, u :: us, rfl, Or.inr (by simp)⟩
    | [t] => simp at h
    | [] => simp at h
  · exact ⟨t, [], rfl, Or.inl ht⟩

/-- A type is no union: that one goes on with a bar, or starts with a tilde. -/
theorem Ty.Nested.text_ne_union (hparam : ∀ n, param n → IsWord n) {t : Ty}
    (ht : t.Nested param name) {ts : List (Term Ty)} (hu : IsProperUnion ts)
    (hread : ∀ u ∈ ts, ∀ x y, Stops x → Stops y → t.text ++ x = u.type.text ++ y → x = y)
    {r s : List Char} (hr : Closes r) : t.text ++ r ≠ (Ty.union ts).text ++ s := by
  obtain ⟨u, us, rfl, htilde⟩ := hu.split
  have ho : isTypeOpener '~' = false := by decide
  intro h
  rw [text_union] at h
  cases hb : u.tilde with
  | true =>
    simp only [List.map_cons, joinText, termChars, hb, if_true, List.cons_append] at h
    exact ht.text_ne hparam ho _ _ h
  | false =>
    cases us with
    | nil =>
      rw [hb] at htilde
      simp at htilde
    | cons w ws =>
      simp only [List.map_cons, joinText, termChars, hb, Bool.false_eq_true, if_false,
        List.nil_append, List.flatMap_cons, List.cons_append, List.append_assoc] at h
      exact hr.ne_bar (hread u (by simp) _ _ (.closes hr) (.bar _) h)

/-- A union is read term by term up to a text that closes it. -/
theorem terms_unique (hparam : ∀ n, param n → IsWord n) (ts ts' : List (Term Ty)) (r s : List Char)
    (ih : ∀ t ∈ ts, t.type.Readable param name) (hts : ∀ t ∈ ts, t.type.Nested param name)
    (hts' : ∀ t ∈ ts', t.type.Nested param name) (hr : Closes r) (hs : Closes s)
    (h : joinText [' ', '|', ' '] (ts.map termChars) ++ r =
      joinText [' ', '|', ' '] (ts'.map termChars) ++ s) : Ty.AlikeTerms ts ts' ∧ r = s := by
  rw [alikeTerms_iff]
  have ho : isTypeOpener '~' = false := by decide
  have hopens : ∀ t : Term Ty, t.type.Nested param name → Opens (termChars t) := by
    rintro ⟨b, t⟩ ht
    cases b with
    | false => exact ht.opens_item hparam
    | true => exact ⟨'~', _, rfl, by decide⟩
  apply joinText_unique termChars termChars _ [' ', '|', ' '] Stops ts ts' r s
  · rintro ⟨b, t⟩ hm ⟨b', t'⟩ hm' x y hx hy he
    have ht := hts _ hm
    have ht' := hts' _ hm'
    have hrt := ih _ hm
    cases b <;> cases b' <;> simp only [termChars, if_true, Bool.false_eq_true, if_false,
      List.nil_append, List.cons_append, List.cons.injEq, true_and] at he
    · obtain ⟨halike, hxy⟩ := hrt t' x y ht ht' hx hy he
      exact ⟨⟨rfl, halike⟩, hxy⟩
    · exact absurd he (ht.text_ne hparam ho _ _)
    · exact absurd he.symm (ht'.text_ne hparam ho _ _)
    · obtain ⟨halike, hxy⟩ := hrt t' x y ht ht' hx hy he
      exact ⟨⟨rfl, halike⟩, hxy⟩
  · exact fun t => .bar _
  · exact .closes hr
  · exact .closes hs
  · exact fun t => hr.ne_bar
  · exact fun t => hs.ne_bar
  · exact fun t ht u => (hopens t (hts t ht)).append_ne hs
  · exact fun t ht u => (hopens t (hts' t ht)).append_ne hr
  · exact h

theorem Ty.Readable.element (hparam : ∀ n, param n → IsWord n) {a : Ty}
    (ha : a.Readable param name) (ih : ∀ c ∈ a.children, c.Readable param name) :
    a.ReadableElement param name := by
  intro b r s hca hcb hr hs h
  cases hca with
  | type hta =>
    cases hcb with
    | type htb => exact ha b r s hta htb (.closes hr) (.closes hs) h
    | union hts hu =>
      refine absurd h (hta.text_ne_union hparam hu ?_ hr)
      exact fun u hm x y hx hy he => (ha u.type x y hta (hts u hm) hx hy he).2
  | @union ts hts hu =>
    have ihts : ∀ t ∈ ts, t.type.Readable param name :=
      fun t ht => ih t.type (List.mem_map_of_mem ht)
    cases hcb with
    | type htb =>
      refine absurd h.symm (htb.text_ne_union hparam hu ?_ hs)
      exact fun u hm x y hx hy he => (ihts u hm b y x (hts u hm) htb hy hx he.symm).2.symm
    | union hts' hu' =>
      rw [text_union, text_union] at h
      rw [Ty.Alike]
      exact terms_unique hparam _ _ r s ihts hts hts' hr hs h

/-- The same line of an interface body. -/
def Member.Alike : Member → Member → Prop
  | .method m, .method m' => m.name = m'.name ∧ Ty.AlikeSignature m.sig m'.sig
  | .element t, .element t' => t.Alike t'
  | _, _ => False

/-- The lines are methods first, so they agree group by group. -/
theorem forall₂_members (ms ms' : List (Method Ty)) (es es' : List Ty)
    (h : List.Forall₂ Member.Alike (ms.map .method ++ es.map .element)
      (ms'.map .method ++ es'.map .element)) :
    List.Forall₂ (fun m m' => m.name = m'.name ∧ Ty.AlikeSignature m.sig m'.sig) ms ms' ∧
      List.Forall₂ Ty.Alike es es' := by
  induction ms generalizing ms' with
  | nil =>
    cases ms' with
    | nil =>
      simp only [List.map_nil, List.nil_append, List.forall₂_map_left_iff,
        List.forall₂_map_right_iff] at h
      exact ⟨List.Forall₂.nil, h⟩
    | cons m' ms' => cases es <;> simp [Member.Alike] at h
  | cons m ms ih =>
    cases ms' with
    | nil => cases es' <;> simp [Member.Alike] at h
    | cons m' ms' =>
      simp only [List.map_cons, List.cons_append, List.forall₂_cons, Member.Alike] at h
      obtain ⟨hms, hes⟩ := ih ms' h.2
      exact ⟨List.Forall₂.cons h.1 hms, hes⟩

theorem Ty.ConstraintShaped.opens (hparam : ∀ n, param n → IsWord n) {t : Ty}
    (ht : t.ConstraintShaped param name) : Opens t.text := by
  cases ht with
  | type ht => exact ht.opens_item hparam
  | union hts hu =>
    obtain ⟨u, us, rfl, _⟩ := hu.split
    obtain ⟨c, x, hx, hc⟩ := (hts u (by simp)).opens_item hparam
    rw [text_union]
    cases hb : u.tilde with
    | true => exact ⟨'~', _, by simp [joinText, termChars, hb]; rfl, by decide⟩
    | false => exact ⟨c, _, by simp [joinText, termChars, hb, hx]; rfl, hc⟩

/-- An element of an interface is no method: that one goes on with a parenthesis. -/
theorem Ty.ConstraintShaped.text_ne_method (hparam : ∀ n, param n → IsWord n) {t : Ty}
    (ht : t.ConstraintShaped param name) {n : String} (hn : isGoName n = true) {r u : List Char}
    (hr : Closes r) : t.text ++ r ≠ n.toList ++ '(' :: u := by
  have hw := isWord_of_isGoName hn
  have hpar : isWordChar '(' = false := by decide
  have hclose : r ≠ '(' :: u := (Stops.closes hr).ne_cons (by decide) (by decide)
  cases ht with
  | type ht => exact ht.text_ne_name hparam (.closes hr) hw hpar (by decide) hclose
  | union hts hu =>
    obtain ⟨t, ts, rfl, htilde⟩ := hu.split
    rw [text_union]
    cases hb : t.tilde with
    | true =>
      simp only [List.map_cons, joinText, termChars, hb, if_true, List.cons_append]
      exact (hw.append_ne_cons (by decide) _ _).symm
    | false =>
      cases ts with
      | nil =>
        rw [hb] at htilde
        simp at htilde
      | cons w ws =>
        simp only [List.map_cons, joinText, termChars, hb, Bool.false_eq_true, if_false,
          List.nil_append, List.flatMap_cons, List.cons_append, List.append_assoc]
        exact (hts t (by simp)).text_ne_name hparam (.bar _) hw hpar (by decide) (by simp)

theorem Ty.NestedSignature.text_eq {g : Signature Ty} (hg : Ty.NestedSignature param name g) :
    ∃ u, signatureText g = '(' :: u := by
  obtain ⟨hps, hqs, hv⟩ := hg
  exact ⟨_, by simp [signatureText, typeParamsText]; rfl⟩

variable (param name) in
/-- The shape of a line. -/
def Member.Shaped : Member → Prop
  | .method m => isGoName m.name = true ∧ Ty.NestedSignature param name m.sig
  | .element t => t.ConstraintShaped param name

/-- The descriptors of a line. -/
def Member.parts : Member → List Ty
  | .method m => m.sig.parts
  | .element t => [t]

theorem Member.Shaped.opens (hparam : ∀ n, param n → IsWord n) {m : Member}
    (hm : m.Shaped param name) : Opens m.text := by
  cases m with
  | method m => exact (isWord_of_isGoName hm.1).opens _
  | element t => exact Ty.ConstraintShaped.opens hparam hm

/-- A method has its name and a bracket, which no element has: the two are not mistaken for each
other. -/
theorem member_unique (hparam : ∀ n, param n → IsWord n) (m m' : Member)
    (hm : m.Shaped param name) (hm' : m'.Shaped param name)
    (ih : ∀ t ∈ m.parts, t.Readable param name ∧ t.ReadableElement param name) (r s : List Char)
    (hr : Closes r) (hs : Closes s) (h : m.text ++ r = m'.text ++ s) : m.Alike m' ∧ r = s := by
  have hpar : isWordChar '(' = false := by decide
  cases m with
  | method m =>
    obtain ⟨u, hu⟩ := hm.2.text_eq
    cases m' with
    | method m' =>
      obtain ⟨u', hu'⟩ := hm'.2.text_eq
      simp only [Member.text, List.append_assoc] at h
      obtain ⟨hname, hsig⟩ := word_unique (isWord_of_isGoName hm.1) (isWord_of_isGoName hm'.1)
        (by rw [hu]; exact endsRun_cons hpar) (by rw [hu']; exact endsRun_cons hpar) h
      obtain ⟨halike, hrs⟩ := hm.2.text_unique hparam hm'.2 (fun t ht => (ih t ht).1)
        (.closes hr) (.closes hs) hsig
      exact ⟨⟨hname, halike⟩, hrs⟩
    | element t =>
      simp only [Member.text, List.append_assoc, hu, List.cons_append] at h
      exact absurd h.symm (Ty.ConstraintShaped.text_ne_method hparam hm' hm.1 hs)
  | element t =>
    cases m' with
    | method m' =>
      obtain ⟨u', hu'⟩ := hm'.2.text_eq
      simp only [Member.text, List.append_assoc, hu', List.cons_append] at h
      exact absurd h (Ty.ConstraintShaped.text_ne_method hparam hm hm'.1 hr)
    | element t' => exact (ih t (List.mem_singleton_self t)).2 t' r s hm hm' hr hs h

theorem mem_membersOf {ms : List (Method Ty)} {es : List Ty} {x : Member}
    (hx : x ∈ membersOf ⟨ms, es⟩) : (∃ m ∈ ms, x = .method m) ∨ ∃ e ∈ es, x = .element e := by
  simp only [membersOf, List.mem_append, List.mem_map, mem_sortBy] at hx
  rcases hx with ⟨m, hm, rfl⟩ | ⟨e, he, rfl⟩
  · exact Or.inl ⟨m, hm, rfl⟩
  · exact Or.inr ⟨e, he, rfl⟩

theorem interface_unique (hparam : ∀ n, param n → IsWord n) {ms ms' : List (Method Ty)}
    {es es' : List Ty} (hms : ∀ m ∈ ms, isGoName m.name = true)
    (hgs : ∀ m ∈ ms, Ty.NestedSignature param name m.sig)
    (hes : ∀ e ∈ es, e.ConstraintShaped param name) (hms' : ∀ m ∈ ms', isGoName m.name = true)
    (hgs' : ∀ m ∈ ms', Ty.NestedSignature param name m.sig)
    (hes' : ∀ e ∈ es', e.ConstraintShaped param name)
    (ih : ∀ t ∈ (Ty.interface ⟨ms, es⟩).children,
      t.Readable param name ∧ t.ReadableElement param name) (r s : List Char)
    (h : joinText [';', ' '] ((membersOf ⟨ms, es⟩).map Member.text) ++ '}' :: r =
      joinText [';', ' '] ((membersOf ⟨ms', es'⟩).map Member.text) ++ '}' :: s) :
    (Ty.interface ⟨ms, es⟩).Alike (.interface ⟨ms', es'⟩) ∧ r = s := by
  have hshaped : ∀ x ∈ membersOf ⟨ms, es⟩, x.Shaped param name := by
    intro x hx
    rcases mem_membersOf hx with ⟨m, hm, rfl⟩ | ⟨e, he, rfl⟩
    · exact ⟨hms m hm, hgs m hm⟩
    · exact hes e he
  have hshaped' : ∀ x ∈ membersOf ⟨ms', es'⟩, x.Shaped param name := by
    intro x hx
    rcases mem_membersOf hx with ⟨m, hm, rfl⟩ | ⟨e, he, rfl⟩
    · exact ⟨hms' m hm, hgs' m hm⟩
    · exact hes' e he
  have hparts : ∀ x ∈ membersOf ⟨ms, es⟩, ∀ t ∈ x.parts, t ∈ (Ty.interface ⟨ms, es⟩).children := by
    intro x hx t ht
    rcases mem_membersOf hx with ⟨m, hm, rfl⟩ | ⟨e, he, rfl⟩
    · exact List.mem_append_left _ (List.mem_flatMap.2 ⟨m, hm, ht⟩)
    · rw [Member.parts, List.mem_singleton] at ht
      exact List.mem_append_right _ (ht ▸ he)
  obtain ⟨hall, hrs⟩ := items_unique Member.text Member.text Member.Alike ';' (by decide) '}'
    (by decide) (by decide) _ _ r s
    (fun x hx y hy r s => member_unique hparam x y (hshaped x hx) (hshaped' y hy)
      (fun t ht => ih t (hparts x hx t ht)) r s)
    (fun x hx => (hshaped x hx).opens hparam) (fun x hx => (hshaped' x hx).opens hparam) h
  obtain ⟨hmethods, helements⟩ := forall₂_members _ _ _ _ hall
  refine ⟨?_, hrs⟩
  simp only [Ty.Alike, alikeMethods_iff, alikeList_iff]
  exact ⟨exists_perm_forall₂ (sortBy_perm _ ms) (sortBy_perm _ ms') hmethods,
    exists_perm_forall₂ (sortBy_perm _ es) (sortBy_perm _ es') helements⟩

/-! ## Names -/

/-- The word and the type arguments of a descriptor that is written with a plain name. -/
def Ty.plainParts? : Ty → Option (String × List Ty)
  | .basic n => some (n, [])
  | .typeParam n => some (n, [])
  | .named none n args => some (n, args)
  | _ => none

theorem text_plain {t : Ty} {n : String} {args : List Ty} (h : t.plainParts? = some (n, args)) :
    t.text = n.toList ++ argsText args := by
  unfold Ty.plainParts? at h
  split at h <;> simp only [Option.some.injEq, Prod.mk.injEq, reduceCtorEq] at h <;>
    obtain ⟨rfl, rfl⟩ := h
  · simp [text_basic, argsText]
  · simp [text_typeParam, argsText]
  · rw [text_local]

theorem Ty.Nested.plain_word (hparam : ∀ n, param n → IsWord n) {t : Ty}
    (ht : t.Nested param name) {n : String} {args : List Ty} (h : t.plainParts? = some (n, args)) :
    IsWord n ∧ ∀ a ∈ args, a ∈ t.children ∧ a.Nested param name := by
  cases ht <;> simp only [Ty.plainParts?, Option.some.injEq, Prod.mk.injEq, reduceCtorEq] at h <;>
    obtain ⟨rfl, rfl⟩ := h
  case basic hn hf => exact ⟨isWord_of_isGoName hn, by simp⟩
  case typeParam hp => exact ⟨hparam _ hp, by simp⟩
  case localNamed hn hf hargs => exact ⟨isWord_of_isGoName hn, fun a ha => ⟨ha, hargs a ha⟩⟩

/-- A plain word stands for a parameter, for a predeclared type or for a local one. -/
theorem Ty.Nested.plain_cases {t : Ty} (ht : t.Nested param name) {n : String} {args : List Ty}
    (h : t.plainParts? = some (n, args)) :
    (t = .typeParam n ∧ args = [] ∧ param n) ∨
      ((t = .basic n ∧ args = [] ∨ t = .named none n args) ∧ isGoName n = true ∧ name n) := by
  cases ht <;> simp only [Ty.plainParts?, Option.some.injEq, Prod.mk.injEq, reduceCtorEq] at h <;>
    obtain ⟨rfl, rfl⟩ := h
  case basic hn hf => exact Or.inr ⟨Or.inl ⟨rfl, rfl⟩, hn, hf⟩
  case typeParam hp => exact Or.inl ⟨rfl, rfl, hp⟩
  case localNamed hn hf hargs => exact Or.inr ⟨Or.inr rfl, hn, hf⟩

/-- Plain names that agree with their arguments are alike, since no type parameter has the name of a
type. -/
theorem alike_of_plain (hsep : ∀ n, param n → isGoName n = true → ¬ name n) {a b : Ty}
    (ha : a.Nested param name) (hb : b.Nested param name) {n : String} {args args' : List Ty}
    (hpa : a.plainParts? = some (n, args)) (hpb : b.plainParts? = some (n, args'))
    (h : Ty.AlikeList args args') : a.Alike b := by
  rcases ha.plain_cases hpa with ⟨rfl, rfl, hp⟩ | ⟨hform, hn, hf⟩
  · rcases hb.plain_cases hpb with ⟨rfl, rfl, hp'⟩ | ⟨hform', hn, hf⟩
    · simp [Ty.Alike]
    · exact absurd hf (hsep n hp hn)
  · rcases hb.plain_cases hpb with ⟨rfl, rfl, hp'⟩ | ⟨hform', hn', hf'⟩
    · exact absurd hf (hsep n hp' hn)
    · rcases hform with ⟨rfl, rfl⟩ | rfl <;> rcases hform' with ⟨rfl, rfl⟩ | rfl
      · simp [Ty.Alike]
      · cases args' <;> simp_all [Ty.Alike, Ty.AlikeList]
      · cases args <;> simp_all [Ty.Alike, Ty.AlikeList]
      · simpa [Ty.Alike] using h

theorem Ty.Nested.named_cases {t : Ty} (ht : t.Nested param name) (hl : t.lead = .named) :
    (∃ n args, t.plainParts? = some (n, args)) ∨
      ∃ p n args, t = .named (some p) n args ∧ isGoName n = true ∧
        ∀ a ∈ args, a.Nested param name := by
  cases ht with
  | basic hn hf => exact Or.inl ⟨_, _, rfl⟩
  | localNamed hn hf hargs => exact Or.inl ⟨_, _, rfl⟩
  | qualified hn hargs => exact Or.inr ⟨_, _, _, rfl, hn, hargs⟩
  | typeParam hp => exact Or.inl ⟨_, _, rfl⟩
  | _ => simp [Ty.lead, Ty.kind] at hl

/-- A word does not begin with a mark, so local names are told from qualified ones. -/
theorem word_ne_quoted {n p : String} (hn : IsWord n) (r s : List Char) :
    n.toList ++ r ≠ (quote p).toList ++ s := by
  rw [quote, String.toList_ofList]
  exact hn.append_ne_cons (by decide) _ _

/-- What begins with a name: the same word in both texts stands for the same type. -/
theorem named_unique (hparam : ∀ n, param n → IsWord n)
    (hsep : ∀ n, param n → isGoName n = true → ¬ name n) (a b : Ty) (r s : List Char)
    (ha : a.Nested param name) (hb : b.Nested param name) (hla : a.lead = .named)
    (hlb : b.lead = .named) (ih : ∀ c ∈ a.children, c.Readable param name) (hr : Stops r)
    (hs : Stops s) (h : a.text ++ r = b.text ++ s) : a.Alike b ∧ r = s := by
  rcases ha.named_cases hla with ⟨n, args, hpa⟩ | ⟨p, n, args, rfl, hn, hargs⟩
  · obtain ⟨hw, hargs⟩ := ha.plain_word hparam hpa
    rw [text_plain hpa, List.append_assoc] at h
    rcases hb.named_cases hlb with ⟨m, args', hpb⟩ | ⟨p', m, args', rfl, hm, hargs'⟩
    · obtain ⟨hw', hargs'⟩ := hb.plain_word hparam hpb
      rw [text_plain hpb, List.append_assoc] at h
      obtain ⟨rfl, hrest⟩ := word_unique hw hw' (argsText_endsRun _ r hr.endsRun)
        (argsText_endsRun _ s hs.endsRun) h
      obtain ⟨halike, hrs⟩ := args_unique hparam args args' r s (fun t ht => ih t (hargs t ht).1)
        (fun t ht => (hargs t ht).2) (fun t ht => (hargs' t ht).2) hr hs hrest
      exact ⟨alike_of_plain hsep ha hb hpa hpb halike, hrs⟩
    · rw [text_qualified, List.append_assoc] at h
      exact absurd h (word_ne_quoted hw _ _)
  · rw [text_qualified, List.append_assoc] at h
    rcases hb.named_cases hlb with ⟨m, args', hpb⟩ | ⟨p', m, args', rfl, hm, hargs'⟩
    · rw [text_plain hpb, List.append_assoc] at h
      exact absurd h.symm (word_ne_quoted (hb.plain_word hparam hpb).1 _ _)
    · rw [text_qualified, List.append_assoc] at h
      obtain ⟨rfl, hrest⟩ := quote_unique p p' _ _ h
      simp only [List.cons_append, List.append_assoc, List.cons.injEq, true_and] at hrest
      obtain ⟨rfl, hargsText⟩ := word_unique (isWord_of_isGoName hn) (isWord_of_isGoName hm)
        (argsText_endsRun _ r hr.endsRun) (argsText_endsRun _ s hs.endsRun) hrest
      obtain ⟨halike, hrs⟩ := args_unique hparam args args' r s ih hargs hargs' hr hs hargsText
      exact ⟨by simp [Ty.Alike, halike], hrs⟩

/-! ## Descriptors -/

/-- The three directions begin differently, and parentheses keep the arrow of an element out of the
way. -/
theorem chan_unique (hparam : ∀ n, param n → IsWord n) (d d' : ChanDir) (e e' : Ty)
    (r s : List Char) (he : e.Nested param name) (he' : e'.Nested param name)
    (ih : e.Readable param name) (hr : Stops r) (hs : Stops s)
    (h : (Ty.chan d e).text ++ r = (Ty.chan d' e').text ++ s) :
    (Ty.chan d e).Alike (.chan d' e') ∧ r = s := by
  have hpar : isTypeOpener '(' = false := by decide
  have hread : d = d' → ∀ x y, Stops x → Stops y → e.text ++ x = e'.text ++ y →
      (Ty.chan d e).Alike (.chan d' e') ∧ x = y := by
    intro hd x y hx hy hxy
    obtain ⟨halike, hrs⟩ := ih e' x y he he' hx hy hxy
    exact ⟨by simp [Ty.Alike, hd, halike], hrs⟩
  cases d <;> cases d' <;>
    simp only [text_both, text_send, text_recv, List.cons_append, List.cons.injEq, true_and,
      Char.reduceEq, false_and, and_false] at h
  case send.send => exact hread rfl r s hr hs h
  case recv.recv => exact hread rfl r s hr hs h
  case both.both =>
    -- parentheses stand around a receive-only element, and no type starts with one
    cases hro : e.isReceiveOnly <;> cases hro' : e'.isReceiveOnly <;>
      simp only [hro, hro', if_true, Bool.false_eq_true, if_false, List.cons_append,
        List.append_assoc, List.nil_append, List.cons.injEq, true_and] at h
    · exact hread rfl r s hr hs h
    · exact absurd h (he.text_ne hparam hpar _ _)
    · exact absurd h.symm (he'.text_ne hparam hpar _ _)
    · obtain ⟨halike, hrs⟩ := hread rfl _ _ (.closes (.cons (by decide)))
        (.closes (.cons (by decide))) h
      exact ⟨halike, by simpa using hrs⟩

/-- Every descriptor is found again in every text that starts with it. -/
theorem readable (hparam : ∀ n, param n → IsWord n)
    (hsep : ∀ n, param n → isGoName n = true → ¬ name n) (t : Ty) :
    t.Readable param name ∧ t.ReadableElement param name := by
  refine Ty.childInduction (motive := fun t => t.Readable param name ∧
    t.ReadableElement param name) (fun t ih => ?_) t
  have hread : t.Readable param name := by
    intro b r s ha hb hr hs h
    have hl : t.lead = b.lead := by
      rw [← lead_text hparam ha hr, h, lead_text hparam hb hs]
    have hnamed : t.lead = .named → t.Alike b ∧ r = s := fun hla =>
      named_unique hparam hsep t b r s ha hb hla (hl ▸ hla) (fun c hc => (ih c hc).1) hr hs h
    cases ha with
    | basic hn hf => exact hnamed rfl
    | localNamed hn hf hargs => exact hnamed rfl
    | qualified hn hargs => exact hnamed rfl
    | typeParam hp => exact hnamed rfl
    | pointer he =>
      cases hb with
      | pointer he' =>
        rw [text_pointer, text_pointer, List.cons_append, List.cons_append] at h
        simp only [List.cons.injEq, true_and] at h
        rw [Ty.Alike]
        exact (ih _ (by simp [Ty.children])).1 _ r s he he' hr hs h
      | _ => simp [Ty.lead, Ty.kind] at hl
    | slice he =>
      cases hb with
      | slice he' =>
        rw [text_slice, text_slice] at h
        simp only [List.cons_append, List.cons.injEq, true_and] at h
        rw [Ty.Alike]
        exact (ih _ (by simp [Ty.children])).1 _ r s he he' hr hs h
      | _ => simp [Ty.lead, Ty.kind] at hl
    | array hlen he =>
      cases hb with
      | array hlen' he' =>
        rw [text_array, text_array] at h
        simp only [List.cons_append, List.append_assoc, List.cons.injEq, true_and] at h
        obtain ⟨hll, hrest⟩ := upTo_unique ']' _ _ _ _ hlen.2.2 hlen'.2.2 h
        obtain ⟨halike, hrs⟩ := (ih _ (by simp [Ty.children])).1 _ r s he he' hr hs hrest
        exact ⟨by simp [Ty.Alike, String.toList_injective hll, halike], hrs⟩
      | _ => simp [Ty.lead, Ty.kind] at hl
    | map hk hv =>
      cases hb with
      | map hk' hv' =>
        rw [text_map, text_map] at h
        simp only [List.cons_append, List.append_assoc, List.cons.injEq, true_and] at h
        obtain ⟨hkey, hrest⟩ := (ih _ (by simp [Ty.children])).1 _ _ _ hk hk'
          (.closes (.cons (by decide))) (.closes (.cons (by decide))) h
        obtain ⟨hvalue, hrs⟩ := (ih _ (by simp [Ty.children])).1 _ r s hv hv' hr hs
          (List.cons.inj hrest).2
        exact ⟨by simp [Ty.Alike, hkey, hvalue], hrs⟩
      | _ => simp [Ty.lead, Ty.kind] at hl
    | chan he =>
      cases hb with
      | chan he' =>
        exact chan_unique hparam _ _ _ _ r s he he' (ih _ (by simp [Ty.children])).1 hr hs h
      | _ => simp [Ty.lead, Ty.kind] at hl
    | @struct fs hfs hts =>
      cases hb with
      | @struct fs' hfs' hts' =>
        rw [text_struct, text_struct] at h
        simp only [List.cons_append, List.append_assoc, List.nil_append, List.cons.injEq,
          true_and] at h
        obtain ⟨hall, hrs⟩ := items_unique fieldChars fieldChars _ ';' (by decide) '}' (by decide)
          (by decide) fs fs' r s
          (fun f hf f' hf' r s => field_unique hparam f f' r s
            (ih f.type (List.mem_map_of_mem hf)).1 (hfs f hf) (hfs' f' hf') (hts f hf) (hts' f' hf'))
          (fun f hf => (hfs f hf).opens hparam (hts f hf))
          (fun f hf => (hfs' f hf).opens hparam (hts' f hf)) h
        exact ⟨by rw [Ty.Alike, alikeFields_iff]; exact hall, hrs⟩
      | _ => simp [Ty.lead, Ty.kind] at hl
    | interface hms hnd hgs hes =>
      cases hb with
      | interface hms' hnd' hgs' hes' =>
        rw [text_interface, text_interface] at h
        simp only [List.cons_append, List.append_assoc, List.nil_append, List.cons.injEq,
          true_and] at h
        exact interface_unique hparam hms hgs hes hms' hgs' hes' ih r s h
      | _ => simp [Ty.lead, Ty.kind] at hl
    | func hg =>
      cases hb with
      | func hg' =>
        rw [text_func, text_func] at h
        simp only [List.cons_append, List.cons.injEq, true_and] at h
        rw [Ty.Alike]
        exact hg.text_unique hparam hg' (fun t ht => (ih t ht).1) hr hs h
      | _ => simp [Ty.lead, Ty.kind] at hl
  exact ⟨hread, hread.element hparam fun c hc => (ih c hc).1⟩

end Nested

end GoApi
