import GoApi.Proofs.Lists
import GoApi.Proofs.Ty.Alike
import GoApi.Proofs.Ty.Text

/-!
# Reading a written descriptor back

The text of a descriptor has no closing mark of its own: a name runs up to the first character that
is not part of a word, a signature may or may not go on with a result.  What makes it readable is
what can stand behind it (`Stops`): a closing mark, a separator, or the bar of a union.

`Ty.Readable a` says that `a` is found again in every text that starts with it.  The lemmas here read
the parts of a descriptor back: its first characters (`lead_text`), lists, type arguments, fields and
signatures.
-/

namespace GoApi

open Text

/-! ## What stands behind a text -/

/-- The separators and closing marks. -/
def isCloser (c : Char) : Bool := [',', ';', ']', ')', '}'].contains c

/-- What can follow an item of a list. -/
inductive Closes : List Char → Prop
  | nil : Closes []
  | cons {c : Char} {t : List Char} (hc : isCloser c = true) : Closes (c :: t)

/-- What can follow a type: also the bar before the next term of a union. -/
inductive Stops : List Char → Prop
  | closes {r : List Char} (h : Closes r) : Stops r
  | bar (t : List Char) : Stops (' ' :: '|' :: t)

/-- A character that a type can start with. -/
def isTypeOpener (c : Char) : Bool := isWordChar c || ['"', '*', '[', '<'].contains c

/-- A character that an item can start with: a term has a tilde, a variadic parameter dots. -/
def isOpener (c : Char) : Bool := isTypeOpener c || ['~', '.'].contains c

theorem isWordChar_closer (c : Char) (h : isCloser c = true) : isWordChar c = false := by
  simp only [isCloser, List.contains_eq_mem, List.mem_cons, List.not_mem_nil, or_false,
    decide_eq_true_eq] at h
  rcases h with rfl | rfl | rfl | rfl | rfl <;> decide

theorem isOpener_closer (c : Char) (h : isCloser c = true) : isOpener c = false := by
  simp only [isCloser, List.contains_eq_mem, List.mem_cons, List.not_mem_nil, or_false,
    decide_eq_true_eq] at h
  rcases h with rfl | rfl | rfl | rfl | rfl <;> decide

theorem Stops.endsRun {r : List Char} (h : Stops r) : EndsRun isWordChar r := by
  rcases h with h | t
  · rcases h with _ | hc
    · exact endsRun_nil _
    · exact endsRun_cons (isWordChar_closer _ hc)
  · exact endsRun_cons (by decide)

/-- Behind a type there is no mark that would continue it. -/
theorem Stops.ne_cons {r t : List Char} {c : Char} (h : Stops r) (hc : isCloser c = false)
    (hs : c ≠ ' ') : r ≠ c :: t := by
  rintro rfl
  rcases h with h | t
  · rcases h with _ | hc'
    rw [hc] at hc'
    cases hc'
  · exact hs rfl

/-- A blank behind a type is the one before a bar. -/
theorem Stops.ne_space {r t : List Char} {c : Char} (h : Stops r) (hc : c ≠ '|') :
    r ≠ ' ' :: c :: t := by
  rintro rfl
  rcases h with h | t
  · rcases h with _ | hc'
    revert hc'
    decide
  · exact hc rfl

/-- A text that closes does not begin with a blank, as the bar of a union does. -/
theorem Closes.ne_bar {r t : List Char} (h : Closes r) : r ≠ ' ' :: t := by
  rintro rfl
  rcases h with _ | hc
  revert hc
  decide

/-- A text that starts with a character fit to start an item. -/
def Opens (x : List Char) : Prop := ∃ c t, x = c :: t ∧ isOpener c = true

theorem Opens.append_ne {x r t : List Char} (hx : Opens x) (hr : Closes r) : x ++ t ≠ r := by
  obtain ⟨c, u, rfl, hc⟩ := hx
  rintro rfl
  rcases hr with _ | hc'
  rw [isOpener_closer c hc'] at hc
  cases hc

/-- Items between separators, up to a closing mark. -/
theorem items_unique {α β : Type} (f : α → List Char) (g : β → List Char) (agree : α → β → Prop)
    (sep : Char) (hsep : isCloser sep = true) (close : Char) (hclose : isCloser close = true)
    (hne : close ≠ sep) (xs : List α) (ys : List β) (r s : List Char)
    (hitem : ∀ x ∈ xs, ∀ y ∈ ys, ∀ r s, Closes r → Closes s → f x ++ r = g y ++ s →
      agree x y ∧ r = s)
    (hxs : ∀ x ∈ xs, Opens (f x)) (hys : ∀ y ∈ ys, Opens (g y))
    (h : joinText [sep, ' '] (xs.map f) ++ close :: r = joinText [sep, ' '] (ys.map g) ++ close :: s) :
    List.Forall₂ agree xs ys ∧ r = s := by
  obtain ⟨hall, hrs⟩ := joinText_unique f g agree [sep, ' '] Closes xs ys (close :: r) (close :: s)
    hitem (fun t => Closes.cons hsep) (Closes.cons hclose) (Closes.cons hclose)
    (fun t he => hne (by simpa using congrArg List.head? he))
    (fun t he => hne (by simpa using congrArg List.head? he))
    (fun x hx t => (hxs x hx).append_ne (Closes.cons hclose))
    (fun y hy t => (hys y hy).append_ne (Closes.cons hclose)) h
  exact ⟨hall, by simpa using hrs⟩

/-! ## The first characters -/

/-- The kind of a descriptor as its text shows it: a plain name may be that of a predeclared type,
a type parameter or a type of the package. -/
def Ty.lead : Ty → Ty.Kind
  | .basic _ => .named
  | .typeParam _ => .named
  | t => t.kind

/-- The kind that a leading word announces. -/
def leadOfWord (w : List Char) : Ty.Kind :=
  if w = "map".toList then .map
  else if w = "chan".toList then .chan
  else if w = "struct".toList then .struct
  else if w = "interface".toList then .interface
  else if w = "func".toList then .func
  else if w = "type".toList then .defined
  else .named

/-- The kind that the first characters announce. -/
def leadOf (s : List Char) : Ty.Kind :=
  match s with
  | '"' :: _ => .named
  | '*' :: _ => .pointer
  | '[' :: ']' :: _ => .slice
  | '[' :: _ => .array
  | '<' :: _ => .chan
  | s => leadOfWord (s.takeWhile isWordChar)

/-- The first word of a text decides what kind of type it begins. -/
theorem leadOf_run (w r : List Char) (hne : w ≠ []) (hall : w.all isWordChar = true)
    (hr : EndsRun isWordChar r) : leadOf (w ++ r) = leadOfWord w := by
  have hw := List.all_eq_true.1 hall
  have htake := takeWhile_run isWordChar w r hw hr
  cases w with
  | nil => exact absurd rfl hne
  | cons c cs =>
    have hc := hw c (by simp)
    have hmark : ∀ d, isWordChar d = false → c ≠ d := by
      rintro d hd rfl
      rw [hc] at hd
      cases hd
    unfold leadOf
    split
    · next he =>
      simp only [List.cons_append, List.cons.injEq] at he
      exact absurd he.1 (hmark _ (by decide))
    · next he =>
      simp only [List.cons_append, List.cons.injEq] at he
      exact absurd he.1 (hmark _ (by decide))
    · next he =>
      simp only [List.cons_append, List.cons.injEq] at he
      exact absurd he.1 (hmark _ (by decide))
    · next he =>
      simp only [List.cons_append, List.cons.injEq] at he
      exact absurd he.1 (hmark _ (by decide))
    · next he =>
      simp only [List.cons_append, List.cons.injEq] at he
      exact absurd he.1 (hmark _ (by decide))
    · rw [htake]

theorem leadOfWord_of_isWord {n : String} (hn : IsWord n) : leadOfWord n.toList = .named := by
  have hk : ∀ k ∈ goKeywords, n.toList ≠ k.toList := by
    intro k hk he
    exact hn.not_keyword (String.toList_injective he ▸ hk)
  simp only [leadOfWord]
  rw [if_neg (hk _ (by decide)), if_neg (hk _ (by decide)), if_neg (hk _ (by decide)),
    if_neg (hk _ (by decide)), if_neg (hk _ (by decide)), if_neg (hk _ (by decide))]

theorem leadOf_word {n : String} {r : List Char} (hn : IsWord n) (hr : EndsRun isWordChar r) :
    leadOf (n.toList ++ r) = .named := by
  rw [leadOf_run n.toList r hn.ne_nil (List.all_eq_true.2 hn.run) hr, leadOfWord_of_isWord hn]

theorem argsText_endsRun (args : List Ty) (r : List Char) (hr : EndsRun isWordChar r) :
    EndsRun isWordChar (argsText args ++ r) := by
  unfold argsText
  split
  · exact hr
  · exact endsRun_cons (by decide)

theorem signatureText_endsRun (g : Signature Ty) (r : List Char) :
    EndsRun isWordChar (signatureText g ++ r) := by
  unfold signatureText typeParamsText
  split
  · exact endsRun_cons (by decide)
  · exact endsRun_cons (by decide)

/-- The types that announce their kind whatever they are made of. -/
def Ty.isComposite : Ty → Bool
  | .pointer _ | .slice _ | .map .. | .chan .. | .struct _ | .interface _ | .func _ => true
  | _ => false

theorem lead_text_composite {t : Ty} (ht : t.isComposite = true) (r : List Char) :
    leadOf (t.text ++ r) = t.kind := by
  cases t with
  | pointer e =>
    rw [text_pointer]
    rfl
  | slice e =>
    rw [text_slice]
    rfl
  | map k v =>
    rw [text_map]
    exact leadOf_run "map".toList _ (by decide) (by decide) (endsRun_cons (by decide))
  | chan d e =>
    cases d with
    | both =>
      rw [text_both]
      exact leadOf_run "chan".toList _ (by decide) (by decide) (endsRun_cons (by decide))
    | send =>
      rw [text_send]
      exact leadOf_run "chan".toList _ (by decide) (by decide) (endsRun_cons (by decide))
    | recv =>
      rw [text_recv]
      rfl
  | struct fs =>
    rw [text_struct]
    exact leadOf_run "struct".toList _ (by decide) (by decide) (endsRun_cons (by decide))
  | interface body =>
    rw [text_interface]
    exact leadOf_run "interface".toList _ (by decide) (by decide) (endsRun_cons (by decide))
  | func g =>
    rw [text_func]
    exact leadOf_run "func".toList _ (by decide) (by decide) (signatureText_endsRun g r)
  | _ => cases ht

/-- The length of an array does not start with the bracket that would make it a slice. -/
theorem lead_text_array {l : String} {c : Char} (hl : l.toList.head? = some c) (hc : c ≠ ']') (e : Ty)
    (r : List Char) : leadOf ((Ty.array l e).text ++ r) = .array := by
  rw [text_array]
  cases hlen : l.toList with
  | nil => simp [hlen] at hl
  | cons d ds =>
    obtain rfl : d = c := by simpa [hlen] using hl
    simp only [List.cons_append]
    unfold leadOf
    split <;> simp_all

section Nested

variable {param name : String → Prop}

/-- The kind of a type can be told from the front of its text. -/
theorem lead_text (hparam : ∀ n, param n → IsWord n) {t : Ty} (ht : t.Nested param name)
    {r : List Char} (hr : Stops r) : leadOf (t.text ++ r) = t.lead := by
  cases ht with
  | basic hn hf =>
    rw [text_basic]
    exact leadOf_word (isWord_of_isGoName hn) hr.endsRun
  | localNamed hn hf hargs =>
    rw [text_local, List.append_assoc]
    exact leadOf_word (isWord_of_isGoName hn) (argsText_endsRun _ r hr.endsRun)
  | qualified hn hargs =>
    rw [text_qualified, quote, String.toList_ofList]
    rfl
  | typeParam hp =>
    rw [text_typeParam]
    exact leadOf_word (hparam _ hp) hr.endsRun
  | array hl he =>
    rename_i l e
    cases hlen : l.toList with
    | nil => exact absurd (String.toList_injective (show l.toList = "".toList from hlen)) hl.1
    | cons c cs =>
      have hc : c ≠ ']' := by
        rintro rfl
        exact hl.2.2 (by simp [hlen])
      exact lead_text_array (by rw [hlen]; rfl) hc e r
  | _ => exact lead_text_composite rfl r

/-! ## Lists and parts -/

theorem IsWord.starts {n : String} (hn : IsWord n) (u : List Char) :
    ∃ c v, n.toList ++ u = c :: v ∧ isWordChar c = true := by
  cases hl : n.toList with
  | nil => exact absurd hl hn.ne_nil
  | cons c cs => exact ⟨c, cs ++ u, rfl, hn.run c (by simp [hl])⟩

theorem IsWord.opens {n : String} (hn : IsWord n) (u : List Char) : Opens (n.toList ++ u) := by
  obtain ⟨c, v, hv, hc⟩ := hn.starts u
  exact ⟨c, v, hv, by simp [isOpener, isTypeOpener, hc]⟩

theorem IsWord.append_ne_cons {n : String} (hn : IsWord n) {c : Char} (hc : isWordChar c = false)
    (r s : List Char) : n.toList ++ r ≠ c :: s := by
  obtain ⟨d, v, hv, hd⟩ := hn.starts r
  rw [hv]
  intro h
  rw [(List.cons.inj h).1, hc] at hd
  cases hd

/-- The text of a type is not empty, and a closing character does not begin it. -/
theorem Ty.Nested.opens (hparam : ∀ n, param n → IsWord n) {t : Ty} (ht : t.Nested param name) :
    ∃ c u, t.text = c :: u ∧ isTypeOpener c = true := by
  have hword : ∀ (n : String) (u : List Char), IsWord n →
      ∃ c v, n.toList ++ u = c :: v ∧ isTypeOpener c = true := by
    intro n u hn
    obtain ⟨c, v, hv, hc⟩ := hn.starts u
    exact ⟨c, v, hv, by simp [isTypeOpener, hc]⟩
  cases ht with
  | basic hn hf => simpa [text_basic] using hword _ [] (isWord_of_isGoName hn)
  | localNamed hn hf hargs =>
    rw [text_local]
    exact hword _ _ (isWord_of_isGoName hn)
  | qualified hn hargs =>
    rw [text_qualified, quote, String.toList_ofList]
    exact ⟨_, _, rfl, by decide⟩
  | typeParam hp => simpa [text_typeParam] using hword _ [] (hparam _ hp)
  | pointer he => exact ⟨_, _, text_pointer _, by decide⟩
  | slice he => exact ⟨_, _, text_slice _, by decide⟩
  | array hl he => exact ⟨_, _, text_array _ _, by decide⟩
  | map hk hv => exact ⟨_, _, text_map _ _, by decide⟩
  | chan he =>
    rename_i d e
    cases d with
    | both => exact ⟨_, _, text_both _, by decide⟩
    | send => exact ⟨_, _, text_send _, by decide⟩
    | recv => exact ⟨_, _, text_recv _, by decide⟩
  | struct hfs hts => exact ⟨_, _, text_struct _, by decide⟩
  | interface hms hnd hgs hes => exact ⟨_, _, text_interface _, by decide⟩
  | func hg => exact ⟨_, _, text_func _, by decide⟩

theorem Ty.Nested.opens_item (hparam : ∀ n, param n → IsWord n) {t : Ty}
    (ht : t.Nested param name) : Opens t.text := by
  obtain ⟨c, u, hc, ho⟩ := ht.opens hparam
  exact ⟨c, u, hc, by simp [isOpener, ho]⟩

/-- No type starts with a mark that starts none. -/
theorem Ty.Nested.text_ne (hparam : ∀ n, param n → IsWord n) {t : Ty} (ht : t.Nested param name)
    {c : Char} (hc : isTypeOpener c = false) (r u : List Char) : t.text ++ r ≠ c :: u := by
  obtain ⟨d, v, hd, ho⟩ := ht.opens hparam
  rw [hd]
  rintro he
  simp only [List.cons_append, List.cons.injEq] at he
  rw [he.1, hc] at ho
  cases ho

/-- A name in front of others can be read off in one way only. -/
theorem word_unique {n m : String} {r s : List Char} (hn : IsWord n) (hm : IsWord m)
    (hr : EndsRun isWordChar r) (hs : EndsRun isWordChar s) (h : n.toList ++ r = m.toList ++ s) :
    n = m ∧ r = s := by
  obtain ⟨hnm, hrs⟩ := run_unique isWordChar _ _ r s hn.run hm.run hr hs h
  exact ⟨String.toList_injective hnm, hrs⟩

/-- A type is not a name that goes on with some other mark. -/
theorem Ty.Nested.text_ne_name (hparam : ∀ n, param n → IsWord n) {t : Ty}
    (ht : t.Nested param name) {r : List Char} (hr : Stops r) {n : String} (hn : IsWord n) {c : Char}
    (hc : isWordChar c = false) (hb : c ≠ '[') {u : List Char} (hru : r ≠ c :: u) :
    t.text ++ r ≠ n.toList ++ c :: u := by
  intro h
  have hl : t.lead = .named := by
    rw [← lead_text hparam ht hr, h]
    exact leadOf_word hn (endsRun_cons hc)
  cases ht with
  | basic hm hf =>
    rw [text_basic] at h
    exact hru (word_unique (isWord_of_isGoName hm) hn hr.endsRun (endsRun_cons hc) h).2
  | localNamed hm hf hargs =>
    rw [text_local, List.append_assoc] at h
    have hu := (word_unique (isWord_of_isGoName hm) hn (argsText_endsRun _ r hr.endsRun)
      (endsRun_cons hc) h).2
    unfold argsText at hu
    split at hu
    · exact hru hu
    · simp only [List.cons_append, List.cons.injEq] at hu
      exact hb hu.1.symm
  | qualified hm hargs =>
    rw [text_qualified, quote, String.toList_ofList] at h
    exact hn.append_ne_cons (by decide) _ _ h.symm
  | typeParam hp =>
    rw [text_typeParam] at h
    exact hru (word_unique (hparam _ hp) hn hr.endsRun (endsRun_cons hc) h).2
  | _ => simp [Ty.lead, Ty.kind] at hl

variable (param name) in
/-- A type is found again in every text that starts with it. -/
def Ty.Readable (a : Ty) : Prop :=
  ∀ (b : Ty) (r s : List Char), a.Nested param name → b.Nested param name → Stops r → Stops s →
    a.text ++ r = b.text ++ s → a.Alike b ∧ r = s

variable (param name) in
/-- An element or constraint is found again in every list that starts with it. -/
def Ty.ReadableElement (a : Ty) : Prop :=
  ∀ (b : Ty) (r s : List Char), a.ConstraintShaped param name → b.ConstraintShaped param name →
    Closes r → Closes s → a.text ++ r = b.text ++ s → a.Alike b ∧ r = s

/-- A list of types up to its closing bracket is read in one way only, type by type. -/
theorem types_unique (hparam : ∀ n, param n → IsWord n) (close : Char)
    (hclose : isCloser close = true) (hne : close ≠ ',') (ts ts' : List Ty) (r s : List Char)
    (ih : ∀ t ∈ ts, t.Readable param name) (hts : ∀ t ∈ ts, t.Nested param name)
    (hts' : ∀ t ∈ ts', t.Nested param name)
    (h : joinText [',', ' '] (ts.map Ty.text) ++ close :: r =
      joinText [',', ' '] (ts'.map Ty.text) ++ close :: s) :
    List.Forall₂ Ty.Alike ts ts' ∧ r = s := by
  apply items_unique Ty.text Ty.text Ty.Alike ',' (by decide) close hclose hne ts ts' r s _ _ _ h
  · intro t ht t' ht' r s hr hs he
    exact ih t ht t' r s (hts t ht) (hts' t' ht') (.closes hr) (.closes hs) he
  · exact fun t ht => (hts t ht).opens_item hparam
  · exact fun t ht => (hts' t ht).opens_item hparam

theorem args_unique (hparam : ∀ n, param n → IsWord n) (ts ts' : List Ty) (r s : List Char)
    (ih : ∀ t ∈ ts, t.Readable param name) (hts : ∀ t ∈ ts, t.Nested param name)
    (hts' : ∀ t ∈ ts', t.Nested param name) (hr : Stops r) (hs : Stops s)
    (h : argsText ts ++ r = argsText ts' ++ s) : Ty.AlikeList ts ts' ∧ r = s := by
  rw [alikeList_iff]
  unfold argsText at h
  split at h
  · next hnil =>
    split at h
    · next hnil' =>
      rw [hnil, hnil']
      exact ⟨List.Forall₂.nil, h⟩
    · exact absurd h (hr.ne_cons (by decide) (by decide))
  · split at h
    · exact absurd h.symm (hs.ne_cons (by decide) (by decide))
    · simp only [List.cons_append, List.append_assoc, List.nil_append, List.cons.injEq, true_and] at h
      exact types_unique hparam ']' (by decide) (by decide) ts ts' r s ih hts hts' h

theorem plainName?_of_alike {a b : Ty} (h : a.Alike b) : a.plainName? = b.plainName? := by
  cases a <;> cases b <;> simp_all [Ty.Alike, Ty.plainName?]

/-- Alike types are embedded under one name. -/
theorem embeddedAs?_of_alike {a b : Ty} (h : a.Alike b) : a.embeddedAs? = b.embeddedAs? := by
  cases a with
  | pointer e =>
    cases b with
    | pointer e' => exact plainName?_of_alike (by simpa [Ty.Alike] using h)
    | _ => simp [Ty.Alike] at h
  | _ =>
    cases b with
    | pointer e' => simp [Ty.Alike] at h
    | _ => exact plainName?_of_alike h

/-- An embedded field has its type alone; any other has a name and a blank before it. -/
theorem field_unique (hparam : ∀ n, param n → IsWord n) (f f' : Field Ty) (r s : List Char)
    (ih : f.type.Readable param name) (hf : FieldShaped f) (hf' : FieldShaped f')
    (ht : f.type.Nested param name) (ht' : f'.type.Nested param name) (hr : Closes r) (hs : Closes s)
    (h : fieldChars f ++ r = fieldChars f' ++ s) :
    (f.name = f'.name ∧ f.type.Alike f'.type ∧ f.embedded = f'.embedded ∧ f.exported = f'.exported) ∧
      r = s := by
  have hn := isWord_of_isGoName hf.name
  have hn' := isWord_of_isGoName hf'.name
  have hsp : isWordChar ' ' = false := by decide
  cases he : f.embedded <;> cases he' : f'.embedded <;> simp only [fieldChars, he, he', if_true, if_false,
    Bool.false_eq_true, List.append_assoc, List.cons_append] at h
  · obtain ⟨hname, hrest⟩ := word_unique hn hn' (endsRun_cons hsp) (endsRun_cons hsp) h
    simp only [List.cons.injEq, true_and] at hrest
    obtain ⟨halike, hrs⟩ := ih f'.type r s ht ht' (.closes hr) (.closes hs) hrest
    exact ⟨⟨hname, halike, rfl, by rw [hf.exported, hf'.exported, hname]⟩, hrs⟩
  · exact absurd h.symm (ht'.text_ne_name hparam (.closes hs) hn hsp (by decide) hs.ne_bar)
  · exact absurd h (ht.text_ne_name hparam (.closes hr) hn' hsp (by decide) hr.ne_bar)
  · obtain ⟨halike, hrs⟩ := ih f'.type r s ht ht' (.closes hr) (.closes hs) h
    have hname : f.name = f'.name := by
      have := embeddedAs?_of_alike halike
      rw [hf.embedded he, hf'.embedded he'] at this
      simpa using this
    exact ⟨⟨hname, halike, rfl, by rw [hf.exported, hf'.exported, hname]⟩, hrs⟩

theorem FieldShaped.opens (hparam : ∀ n, param n → IsWord n) {f : Field Ty} (hf : FieldShaped f)
    (ht : f.type.Nested param name) : Opens (fieldChars f) := by
  unfold fieldChars
  split
  · exact ht.opens_item hparam
  · exact (isWord_of_isGoName hf.name).opens _

/-! ## Signatures -/

theorem paramItems_false (ps : List (Param Ty)) :
    paramItems false ps = ps.map fun p => (false, p.type) := by
  induction ps with
  | nil => rfl
  | cons p ps ih =>
    obtain ⟨n, t⟩ := p
    cases ps with
    | nil => cases t <;> simp [paramItems]
    | cons p' ps' => simp [paramItems, ih]

theorem paramItems_true (ps : List (Param Ty)) (n : String) (e : Ty) :
    paramItems true (ps ++ [⟨n, .slice e⟩]) = ps.map (fun p => (false, p.type)) ++ [(true, e)] := by
  induction ps with
  | nil => simp [paramItems]
  | cons p ps ih =>
    cases ps with
    | nil => simp [paramItems]
    | cons p' ps' =>
      simp only [List.cons_append, paramItems, List.map_cons, List.cons.injEq, true_and]
      simpa using ih

/-- A list that ends in a slice, taken apart. -/
theorem EndsInSlice.split {ps : List (Param Ty)} (h : EndsInSlice ps) :
    ∃ qs n e, ps = qs ++ [⟨n, .slice e⟩] := by
  obtain ⟨p, hp, e, he⟩ := h
  obtain ⟨qs, rfl⟩ := List.getLast?_eq_some_iff.1 hp
  obtain ⟨n, t⟩ := p
  simp only at he
  subst he
  exact ⟨qs, n, e, rfl⟩

/-- What is written of a parameter is its type, or what its type is a slice of. -/
theorem mem_paramItems {v : Bool} {ps : List (Param Ty)} {i : Bool × Ty}
    (h : i ∈ paramItems v ps) :
    ∃ p ∈ ps, i = (false, p.type) ∨ i.1 = true ∧ p.type = .slice i.2 := by
  induction ps with
  | nil => simp [paramItems] at h
  | cons p ps ih =>
    obtain ⟨n, t⟩ := p
    cases ps with
    | nil =>
      cases t <;> cases v <;> simp [paramItems] at h <;> simp [h]
    | cons p' ps' =>
      simp only [paramItems, List.mem_cons] at h
      rcases h with rfl | h
      · exact ⟨⟨n, t⟩, by simp, Or.inl rfl⟩
      · obtain ⟨q, hq, hi⟩ := ih h
        exact ⟨q, by simp [hq], hi⟩

theorem Ty.Readable.of_slice {e : Ty} (h : (Ty.slice e).Readable param name) :
    e.Readable param name := by
  intro b r s he hb hr hs heq
  have h' := h (.slice b) r s (.slice he) (.slice hb) hr hs (by simp [text_slice, heq])
  simpa [Ty.Alike] using h'

/-- Equal items come from equal types, and from the same kind of list. -/
theorem alikeParams_of_items {v v' : Bool} {ps ps' : List (Param Ty)}
    (hv : v = true → EndsInSlice ps) (hv' : v' = true → EndsInSlice ps')
    (h : List.Forall₂ (fun i i' => i.1 = i'.1 ∧ i.2.Alike i'.2) (paramItems v ps) (paramItems v' ps')) :
    Ty.AlikeParams ps ps' ∧ v = v' := by
  -- dots stand before the last parameter of a variadic list and nowhere else
  have hdots : ∀ {v : Bool} {ps : List (Param Ty)}, (v = true → EndsInSlice ps) →
      ((∃ i ∈ paramItems v ps, i.1 = true) ↔ v = true) := by
    intro v ps hv
    cases v with
    | false => simp [paramItems_false]
    | true =>
      obtain ⟨qs, n, e, rfl⟩ := (hv rfl).split
      simp [paramItems_true]
  have hvv : v = v' := by
    rw [Bool.eq_iff_iff, ← hdots hv, ← hdots hv']
    constructor
    · rintro ⟨i, hi, hd⟩
      obtain ⟨i', hi', hii⟩ := exists_partner h hi
      exact ⟨i', hi', hii.1 ▸ hd⟩
    · rintro ⟨i, hi, hd⟩
      obtain ⟨i', hi', hii⟩ := exists_partner h.flip hi
      exact ⟨i', hi', hii.1.symm ▸ hd⟩
  subst hvv
  refine ⟨?_, rfl⟩
  rw [alikeParams_iff]
  cases v with
  | false =>
    rw [paramItems_false, paramItems_false, List.forall₂_map_left_iff, List.forall₂_map_right_iff] at h
    exact h.imp fun _ _ hab => hab.2
  | true =>
    obtain ⟨qs, n, e, rfl⟩ := (hv rfl).split
    obtain ⟨qs', n', e', rfl⟩ := (hv' rfl).split
    rw [paramItems_true, paramItems_true, ← List.forall₂_reverse_iff] at h
    simp only [List.reverse_append, List.reverse_singleton, List.singleton_append,
      List.forall₂_cons, List.forall₂_reverse_iff, List.forall₂_map_left_iff,
      List.forall₂_map_right_iff] at h
    rw [← List.forall₂_reverse_iff]
    simp only [List.reverse_append, List.reverse_singleton, List.singleton_append,
      List.forall₂_cons, List.forall₂_reverse_iff]
    exact ⟨by simpa [Ty.Alike] using h.1.2, h.2.imp fun _ _ hab => hab.2⟩

/-- A blank tells results from none, and no type begins with the parenthesis of several. -/
theorem results_unique (hparam : ∀ n, param n → IsWord n) (qs qs' : List (Param Ty))
    (r s : List Char) (ih : ∀ q ∈ qs, q.type.Readable param name)
    (hqs : ∀ q ∈ qs, q.type.Nested param name) (hqs' : ∀ q ∈ qs', q.type.Nested param name)
    (hr : Stops r) (hs : Stops s) (h : resultChars qs ++ r = resultChars qs' ++ s) :
    Ty.AlikeParams qs qs' ∧ r = s := by
  rw [alikeParams_iff]
  have hopen : isTypeOpener '(' = false := by decide
  have hbar : isTypeOpener '|' = false := by decide
  -- nothing, one bare result, or several in parentheses
  match qs, qs' with
  | [], [] => exact ⟨List.Forall₂.nil, h⟩
  | [], [q'] =>
    obtain ⟨c, u, hc, ho⟩ := (hqs' q' (by simp)).opens hparam
    simp only [resultChars, List.nil_append, List.cons_append, hc] at h
    refine absurd h (hr.ne_space ?_)
    rintro rfl
    rw [hbar] at ho
    cases ho
  | [], q' :: q'' :: _ =>
    simp only [resultChars, List.nil_append, List.cons_append] at h
    exact absurd h (hr.ne_space (by decide))
  | [q], [] =>
    obtain ⟨c, u, hc, ho⟩ := (hqs q (by simp)).opens hparam
    simp only [resultChars, List.nil_append, List.cons_append, hc] at h
    refine absurd h.symm (hs.ne_space ?_)
    rintro rfl
    rw [hbar] at ho
    cases ho
  | q :: q₂ :: _, [] =>
    simp only [resultChars, List.nil_append, List.cons_append] at h
    exact absurd h.symm (hs.ne_space (by decide))
  | [q], [q'] =>
    simp only [resultChars, List.cons_append, List.cons.injEq, true_and] at h
    obtain ⟨halike, hrs⟩ := ih q (by simp) q'.type r s (hqs q (by simp)) (hqs' q' (by simp)) hr hs h
    exact ⟨by simpa using halike, hrs⟩
  | [q], q' :: q'' :: _ =>
    simp only [resultChars, List.cons_append, List.cons.injEq, true_and] at h
    exact absurd h ((hqs q (by simp)).text_ne hparam hopen _ _)
  | q :: q₂ :: _, [q'] =>
    simp only [resultChars, List.cons_append, List.cons.injEq, true_and] at h
    exact absurd h.symm ((hqs' q' (by simp)).text_ne hparam hopen _ _)
  | q :: q₂ :: more, q' :: q'' :: more' =>
    simp only [resultChars, List.cons_append, List.append_assoc, List.nil_append, List.cons.injEq,
      true_and] at h
    have hmap : ∀ l : List (Param Ty), l.map (·.type.text) = (l.map (·.type)).map Ty.text := by
      intro l
      rw [List.map_map]
      rfl
    rw [hmap, hmap] at h
    obtain ⟨hall, hrs⟩ := types_unique hparam ')' (by decide) (by decide) _ _ r s
      (by
        intro t ht
        obtain ⟨q, hq, rfl⟩ := List.mem_map.1 ht
        exact ih q hq)
      (by
        intro t ht
        obtain ⟨q, hq, rfl⟩ := List.mem_map.1 ht
        exact hqs q hq)
      (by
        intro t ht
        obtain ⟨q, hq, rfl⟩ := List.mem_map.1 ht
        exact hqs' q hq) h
    rw [List.forall₂_map_left_iff, List.forall₂_map_right_iff] at hall
    exact ⟨hall, hrs⟩

/-- A variadic parameter is marked by dots, so it is not taken for a slice. -/
theorem params_unique (hparam : ∀ n, param n → IsWord n) (ps ps' : List (Param Ty)) (v v' : Bool)
    (r s : List Char) (ih : ∀ p ∈ ps, p.type.Readable param name)
    (hps : ∀ p ∈ ps, p.type.Nested param name) (hps' : ∀ p ∈ ps', p.type.Nested param name)
    (hv : v = true → EndsInSlice ps) (hv' : v' = true → EndsInSlice ps')
    (h : joinText [',', ' '] ((paramItems v ps).map itemChars) ++ ')' :: r =
      joinText [',', ' '] ((paramItems v' ps').map itemChars) ++ ')' :: s) :
    (Ty.AlikeParams ps ps' ∧ v = v') ∧ r = s := by
  have hnested : ∀ {v : Bool} {ps : List (Param Ty)}, (∀ p ∈ ps, p.type.Nested param name) →
      ∀ i ∈ paramItems v ps, i.2.Nested param name := by
    intro v ps hps i hi
    obtain ⟨p, hp, rfl | ⟨-, he⟩⟩ := mem_paramItems hi
    · exact hps p hp
    · have := hps p hp
      rw [he] at this
      cases this with
      | slice he => exact he
  have hread : ∀ i ∈ paramItems v ps, i.2.Readable param name := by
    intro i hi
    obtain ⟨p, hp, rfl | ⟨-, he⟩⟩ := mem_paramItems hi
    · exact ih p hp
    · have := ih p hp
      rw [he] at this
      exact this.of_slice
  have hopens : ∀ i : Bool × Ty, i.2.Nested param name → Opens (itemChars i) := by
    rintro ⟨d, t⟩ ht
    cases d with
    | false => exact ht.opens_item hparam
    | true => exact ⟨'.', _, rfl, by decide⟩
  have hdot : isTypeOpener '.' = false := by decide
  obtain ⟨hall, hrs⟩ := items_unique itemChars itemChars (fun i i' => i.1 = i'.1 ∧ i.2.Alike i'.2) ','
    (by decide) ')' (by decide) (by decide) (paramItems v ps) (paramItems v' ps') r s
    (by
      rintro ⟨d, t⟩ hi ⟨d', t'⟩ hi' r s hr hs he
      have ht := hnested hps _ hi
      have ht' := hnested hps' _ hi'
      have hrt := hread _ hi
      cases d <;> cases d' <;> simp only [itemChars, if_true, Bool.false_eq_true, if_false,
        List.nil_append, List.cons_append, List.cons.injEq, true_and] at he
      · obtain ⟨halike, hrs⟩ := hrt t' r s ht ht' (.closes hr) (.closes hs) he
        exact ⟨⟨rfl, halike⟩, hrs⟩
      · exact absurd he (ht.text_ne hparam hdot _ _)
      · exact absurd he.symm (ht'.text_ne hparam hdot _ _)
      · obtain ⟨halike, hrs⟩ := hrt t' r s ht ht' (.closes hr) (.closes hs) he
        exact ⟨⟨rfl, halike⟩, hrs⟩)
    (fun i hi => hopens i (hnested hps i hi)) (fun i hi => hopens i (hnested hps' i hi)) h
  exact ⟨alikeParams_of_items hv hv' hall, hrs⟩

theorem Ty.NestedSignature.text_unique (hparam : ∀ n, param n → IsWord n) {g g' : Signature Ty}
    (hg : Ty.NestedSignature param name g) (hg' : Ty.NestedSignature param name g')
    (ih : ∀ t ∈ g.parts, t.Readable param name) {r s : List Char} (hr : Stops r) (hs : Stops s)
    (h : signatureText g ++ r = signatureText g' ++ s) : Ty.AlikeSignature g g' ∧ r = s := by
  obtain ⟨hps, hqs, hv⟩ := hg
  obtain ⟨hps', hqs', hv'⟩ := hg'
  simp only [signatureText, typeParamsText, if_true, List.nil_append, List.cons_append,
    List.append_assoc, List.cons.injEq, true_and] at h
  obtain ⟨⟨hparams, hvv⟩, hrest⟩ := params_unique hparam _ _ _ _ _ _
    (fun p hp => ih p.type (by simpa [Signature.parts] using Or.inl ⟨p, hp, rfl⟩)) hps hps' hv hv' h
  obtain ⟨hresults, hrs⟩ := results_unique hparam _ _ r s
    (fun q hq => ih q.type (by simpa [Signature.parts] using Or.inr ⟨q, hq, rfl⟩)) hqs hqs' hr hs hrest
  exact ⟨by simp [Ty.AlikeSignature, Ty.AlikeBinders, hparams, hresults, hvv], hrs⟩

end Nested

end GoApi
