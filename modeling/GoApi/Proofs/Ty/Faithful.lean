import GoApi.Proofs.Ty.Readable
import GoApi.Proofs.Ty.Respell

/-!
# The encoding is faithful

Types with one encoding are the same type:

    a.LoaderShaped → b.LoaderShaped → a.canonical = b.canonical →
      (a.respell .positional).Alike (b.respell .positional)          (canonical_faithful)

After the numbering every type parameter is spelled `$k`, which is no identifier, so no type parameter
is taken for a type of the package.  Below the root this is `readable`; at the root stand binders in
addition, each with a name and a constraint.
-/

namespace GoApi

open Text

/-! ## The shape after numbering -/

/-- Every name may be that of a type. -/
abbrev anyName (_ : String) : Prop := True

/-- A numbered binder. -/
structure BinderNumbered (b : Binder Ty) : Prop where
  name : IsNumbered b.name
  constraint : b.constraint.ConstraintShaped IsNumbered anyName

/-- A signature with numbered binders. -/
structure SignatureNumbered (g : Signature Ty) : Prop where
  binders : ∀ b ∈ g.binders, BinderNumbered b
  params : ∀ p ∈ g.params, p.type.Nested IsNumbered anyName
  results : ∀ q ∈ g.results, q.type.Nested IsNumbered anyName
  variadic : g.variadic = true → EndsInSlice g.params

/-- A descriptor with numbered type parameters. -/
inductive Ty.Numbered : Ty → Prop
  | nested {t : Ty} (ht : t.Nested IsNumbered anyName) (hl : t.lead ≠ .func) : Numbered t
  | func {g : Signature Ty} (hg : SignatureNumbered g) : Numbered (.func g)
  | defined {n : String} {bs : List (Binder Ty)} {a : Bool} {u : Ty} (hn : isGoName n = true)
      (hbs : ∀ b ∈ bs, BinderNumbered b) (hu : u.Nested IsNumbered anyName) :
      Numbered (.defined n bs a u)

theorem Ty.Nested.numbered {t : Ty} (ht : t.Nested IsNumbered anyName) : t.Numbered := by
  by_cases hl : t.lead = .func
  · cases ht with
    | func hg =>
      obtain ⟨hps, hqs, hv⟩ := hg
      exact .func ⟨by simp, hps, hqs, hv⟩
    | _ => simp [Ty.lead, Ty.kind] at hl
  · exact .nested ht hl

theorem Ty.Numbered.lead_eq {t : Ty} (ht : t.Numbered) : leadOf t.text = t.lead := by
  cases ht with
  | nested ht hl => simpa using lead_text (fun _ => isWord_of_isNumbered) ht (.closes .nil)
  | @func g hg =>
    have hopen : EndsRun isWordChar (signatureText g) := by
      unfold signatureText typeParamsText
      split
      · exact endsRun_cons (by decide)
      · exact endsRun_cons (by decide)
    rw [text_func]
    exact leadOf_run "func".toList _ (by decide) (by decide) hopen
  | defined hn hbs hu =>
    rw [text_defined]
    exact leadOf_run "type".toList _ (by decide) (by decide) (endsRun_cons (by decide))

/-! ## Reading the root -/

section Root

variable (hread : ∀ t : Ty, t.Readable IsNumbered anyName ∧ t.ReadableElement IsNumbered anyName)

include hread

/-- A list of type parameters is read in one way only, also when it is empty and nothing is
written. -/
theorem typeParams_unique (bs bs' : List (Binder Ty)) (r s : List Char)
    (hbs : ∀ b ∈ bs, BinderNumbered b) (hbs' : ∀ b ∈ bs', BinderNumbered b) (hr : ∀ t, r ≠ '[' :: t)
    (hs : ∀ t, s ≠ '[' :: t) (h : typeParamsText bs ++ r = typeParamsText bs' ++ s) :
    Ty.AlikeBinders bs bs' ∧ r = s := by
  have hsp : isWordChar ' ' = false := by decide
  rw [alikeBinders_iff]
  unfold typeParamsText at h
  split at h
  · next hnil =>
    split at h
    · next hnil' =>
      rw [hnil, hnil']
      exact ⟨List.Forall₂.nil, h⟩
    · exact absurd h (hr _)
  · split at h
    · exact absurd h.symm (hs _)
    · simp only [List.cons_append, List.append_assoc, List.nil_append, List.cons.injEq, true_and] at h
      refine items_unique binderChars binderChars _ ',' (by decide) ']' (by decide) (by decide) bs bs'
        r s ?_ ?_ ?_ h
      · intro b hb b' hb' x y hx hy he
        simp only [binderChars, List.append_assoc, List.cons_append] at he
        obtain ⟨hname, hrest⟩ := word_unique (isWord_of_isNumbered (hbs b hb).name)
          (isWord_of_isNumbered (hbs' b' hb').name) (endsRun_cons hsp) (endsRun_cons hsp) he
        obtain ⟨halike, hxy⟩ := (hread b.constraint).2 b'.constraint x y (hbs b hb).constraint
          (hbs' b' hb').constraint hx hy (List.cons.inj hrest).2
        exact ⟨⟨hname, halike⟩, hxy⟩
      · exact fun b hb => (isWord_of_isNumbered (hbs b hb).name).opens _
      · exact fun b hb => (isWord_of_isNumbered (hbs' b hb).name).opens _

theorem rootSignature_unique (g g' : Signature Ty) (hg : SignatureNumbered g)
    (hg' : SignatureNumbered g') (h : signatureText g = signatureText g') :
    Ty.AlikeSignature g g' := by
  obtain ⟨bs, rs, ps, qs, v⟩ := g
  obtain ⟨bs', rs', ps', qs', v'⟩ := g'
  simp only [signatureText] at h
  obtain ⟨hbinders, hrest⟩ := typeParams_unique hread bs bs' _ _ hg.binders hg'.binders (by simp)
    (by simp) h
  obtain ⟨⟨hparams, hv⟩, hrest⟩ := params_unique (fun _ => isWord_of_isNumbered) ps ps' v v' _ _
    (fun p _ => (hread p.type).1) hg.params hg'.params hg.variadic hg'.variadic (List.cons.inj hrest).2
  have hresults := (results_unique (fun _ => isWord_of_isNumbered) qs qs' [] []
    (fun q _ => (hread q.type).1) hg.results hg'.results (.closes .nil) (.closes .nil)
    (by simpa using hrest)).1
  rw [Ty.AlikeSignature]
  exact ⟨hbinders, hparams, hresults, hv⟩

/-- A type declaration is read name, parameters, sign of an alias, body. -/
theorem defined_unique {n n' : String} {bs bs' : List (Binder Ty)} {a a' : Bool} {u u' : Ty}
    (hn : isGoName n = true) (hn' : isGoName n' = true) (hbs : ∀ b ∈ bs, BinderNumbered b)
    (hbs' : ∀ b ∈ bs', BinderNumbered b) (hu : u.Nested IsNumbered anyName)
    (hu' : u'.Nested IsNumbered anyName)
    (h : (Ty.defined n bs a u).text = (Ty.defined n' bs' a' u').text) :
    (Ty.defined n bs a u).Alike (.defined n' bs' a' u') := by
  have heq : isTypeOpener '=' = false := by decide
  have hruns : ∀ (bs : List (Binder Ty)) (a : Bool) (x : List Char), EndsRun isWordChar
      (typeParamsText bs ++ ((if a then [' ', '=', ' '] else [' ']) ++ x)) := by
    intro bs a x
    unfold typeParamsText
    split
    · cases a <;> exact endsRun_cons (by decide)
    · exact endsRun_cons (by decide)
  rw [text_defined, text_defined] at h
  simp only [List.cons.injEq, true_and] at h
  obtain ⟨hname, hrest⟩ := word_unique (isWord_of_isGoName hn) (isWord_of_isGoName hn')
    (hruns bs a u.text) (hruns bs' a' u'.text) h
  obtain ⟨hbinders, hrest⟩ := typeParams_unique hread bs bs' _ _ hbs hbs' (by cases a <;> simp)
    (by cases a' <;> simp) hrest
  have hbody : u.text = u'.text → u.Alike u' := fun hut =>
    ((hread u).1 u' [] [] hu hu' (.closes .nil) (.closes .nil) (by simpa using hut)).1
  rw [Ty.Alike]
  -- an underlying type does not start with the sign of an alias
  cases a <;> cases a' <;> simp only [if_true, Bool.false_eq_true, if_false, List.cons_append,
    List.nil_append, List.cons.injEq, true_and] at hrest
  · exact ⟨hname, hbinders, rfl, hbody hrest⟩
  · exact absurd (by simpa using hrest) (hu.text_ne (fun _ => isWord_of_isNumbered) heq [] _)
  · exact absurd (by simpa using hrest.symm) (hu'.text_ne (fun _ => isWord_of_isNumbered) heq [] _)
  · exact ⟨hname, hbinders, rfl, hbody hrest⟩

/-- The text of a numbered type hides nothing that counts. -/
theorem Ty.Numbered.alike {a b : Ty} (ha : a.Numbered) (hb : b.Numbered) (h : a.text = b.text) :
    a.Alike b := by
  have hl : a.lead = b.lead := by
    rw [← ha.lead_eq, h, hb.lead_eq]
  cases ha with
  | nested ht hf =>
    cases hb with
    | nested ht' hf' =>
      exact ((hread a).1 b [] [] ht ht' (.closes .nil) (.closes .nil) (by simpa using h)).1
    | func hg => exact absurd hl hf
    | defined hn hbs hu => cases ht <;> simp [Ty.lead, Ty.kind] at hl
  | func hg =>
    cases hb with
    | nested ht' hf' => exact absurd hl.symm hf'
    | func hg' =>
      rw [text_func, text_func] at h
      rw [Ty.Alike]
      exact rootSignature_unique hread _ _ hg hg' (by simpa using h)
    | defined hn hbs hu => simp [Ty.lead, Ty.kind] at hl
  | defined hn hbs hu =>
    cases hb with
    | nested ht' hf' => cases ht' <;> simp [Ty.lead, Ty.kind] at hl
    | func hg => simp [Ty.lead, Ty.kind] at hl
    | defined hn' hbs' hu' => exact defined_unique hread hn hn' hbs hbs' hu hu' h

end Root

/-! ## Numbering -/

theorem binders_numbered {s : Scope} (hs : s.Numbers) {bs : List (Binder Ty)} {ns : List String}
    (hns : ∀ n ∈ ns, IsNumbered n)
    (hbs : ∀ b ∈ bs, b.constraint.ConstraintShaped (· ∈ s.bound) anyName) :
    ∀ b ∈ Ty.respellBinders s ns bs, BinderNumbered b := by
  intro b hb
  obtain ⟨hname, b₀, hb₀, hc⟩ := mem_respellBinders hb
  refine ⟨hns _ hname, ?_⟩
  rw [hc]
  exact (hbs b₀ hb₀).respell fun n hn => hs.lookup hn

theorem params_numbered {s : Scope} (hs : s.Numbers) {ps : List (Param Ty)}
    (hps : ∀ p ∈ ps, p.type.Nested (· ∈ s.bound) anyName) :
    ∀ p ∈ Ty.respellParams s ps, p.type.Nested IsNumbered anyName := by
  rw [respellParams_eq_map]
  intro p hp
  obtain ⟨p₀, hp₀, rfl⟩ := List.mem_map.1 hp
  exact (hps p₀ hp₀).respell fun n hn => hs.lookup hn

/-- The numbering leaves no type parameter with a name of the source. -/
theorem Ty.LoaderShaped.numbered {t : Ty} (ht : t.LoaderShaped) :
    (t.respell .positional).Numbered := by
  have hbound : ∀ ns : List String, (· ∈ (Scope.positional.bindAll ns).bound) = (· ∈ ns) := by
    intro ns
    funext m
    rw [Scope.mem_bound_bindAll]
    simp [Scope.bound, Scope.positional]
  cases ht with
  | nested ht => exact (ht.respell fun n hn => hn.elim).numbered
  | @func g hbs hps hqs hv =>
    obtain ⟨bs, rs, ps, qs, v⟩ := g
    have houter := Scope.numbers_positional.bindAll rs
    have hinner := houter.bindAll (binderNames bs)
    have hnames : (· ∈ ((Scope.positional.bindAll rs).bindAll (binderNames bs)).bound) =
        (· ∈ rs ++ binderNames bs) := by
      funext m
      rw [Scope.mem_bound_bindAll, show (m ∈ (Scope.positional.bindAll rs).bound) = (m ∈ rs) from
        congrFun (hbound rs) m, List.mem_append]
    rw [Ty.respell, Ty.respellSignature]
    refine .func ⟨binders_numbered hinner (fun n => houter.spellings) ?_,
      params_numbered hinner ?_, params_numbered hinner ?_, fun h => (hv h).respell _⟩
    · rw [hnames]
      exact hbs
    · rw [hnames]
      exact hps
    · rw [hnames]
      exact hqs
  | @defined n bs a u hn hbs hu =>
    have hinner := Scope.numbers_positional.bindAll (binderNames bs)
    rw [Ty.respell]
    rw [← hbound] at hbs hu
    exact .defined hn (binders_numbered hinner (fun n => Scope.numbers_positional.spellings) hbs)
      (hu.respell fun n hn => hinner.lookup hn)

/-! ## Faithfulness -/

/-- Descriptors with one encoding are alike once their type parameters are numbered. -/
theorem canonical_faithful (a b : Ty) (ha : a.LoaderShaped) (hb : b.LoaderShaped)
    (h : a.canonical = b.canonical) : (a.respell .positional).Alike (b.respell .positional) := by
  have hsep : ∀ n, IsNumbered n → isGoName n = true → ¬ anyName n := by
    intro n hn hgo
    rw [not_isGoName_of_isNumbered hn] at hgo
    cases hgo
  refine Ty.Numbered.alike (readable (fun _ => isWord_of_isNumbered) hsep) ha.numbered hb.numbered ?_
  exact congrArg String.toList h

/-- A generic interface with its type parameter renamed and its methods in another order. -/
theorem canonical_faithful_reordered :
    ((Ty.defined "Set" [⟨"T", .emptyInterface⟩] false (.interface
        ⟨[⟨"Add", .plain [.typeParam "T"] []⟩, ⟨"Len", .plain [] [.basic "int"]⟩], []⟩)).respell
      .positional).Alike
    ((Ty.defined "Set" [⟨"U", .emptyInterface⟩] false (.interface
        ⟨[⟨"Len", .plain [] [.basic "int"]⟩, ⟨"Add", .plain [.typeParam "U"] []⟩], []⟩)).respell
      .positional) := by
  have hany : ∀ param : String → Prop, Ty.ConstraintShaped param anyName .emptyInterface :=
    fun param => .type (.interface (by simp) (by simp) (by simp) (by simp))
  have hadd : ∀ n, Ty.NestedSignature (· ∈ [n]) anyName (.plain [.typeParam n] []) :=
    fun n => .mk (by simpa using .typeParam (by simp)) (by simp) (by simp)
  have hlen : ∀ n : String, Ty.NestedSignature (· ∈ [n]) anyName (.plain [] [.basic "int"]) :=
    fun n => .mk (by simp) (by simpa using .basic (by decide) trivial) (by simp)
  refine canonical_faithful _ _ (.defined (by decide) (by simpa using hany _) ?_)
    (.defined (by decide) (by simpa using hany _) ?_) (by decide +kernel)
  · exact .interface (by simp; decide) (by simp) (by simpa using ⟨hadd "T", hlen "T"⟩) (by simp)
  · exact .interface (by simp; decide) (by simp) (by simpa using ⟨hlen "U", hadd "U"⟩) (by simp)

end GoApi
