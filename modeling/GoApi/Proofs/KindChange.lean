import GoApi.Proofs.Surface.Roots
import GoApi.Proofs.Ty.Reading
import GoApi.Proofs.Widening

/-!
# Changes of kind

A type of another kind is a breaking change, but the comparison first asks whether the two sides have
one text, and the text does not record the kind.  The first characters of a loaded type tell its kind
unless it is basic (`rootKind_text`).  So two types of different kinds have one text only if one of them
is basic, and then the other is written like its name (`SpelledLike`):

    error      the predeclared type, and a type that the package declares under this name
    "p".T      an expression that is given to `make` in place of a type, and a type of package `p`

Every other change of kind breaks (`kind_change_breaks_iff`).
-/

namespace GoApi

open Source Surface Text

/-! ## The kind of a root -/

/-- The kind that the first characters of a loaded type announce, if it is not basic. -/
def rootKind : List Char → Ty.Kind
  | '~' :: _ => .union
  | 't' :: 'y' :: 'p' :: 'e' :: ' ' :: _ => .defined
  | s =>
    match leadOf s with
    | .defined => .named
    | kind => kind

theorem isWordChar_of_isTypeName {n : String} (h : isTypeName n = true) :
    n.toList ≠ [] ∧ ∀ c ∈ n.toList, isWordChar c = true := by
  have hword : isWordText n = true := (Bool.and_eq_true_iff.1 h).1
  unfold isWordText at hword
  cases htext : n.toList with
  | nil => simp [htext] at hword
  | cons c cs =>
    simp only [htext, Bool.and_eq_true, List.all_eq_true] at hword
    refine ⟨by simp, List.forall_mem_cons.2 ⟨isWordChar_of_start c hword.1, fun d hd => ?_⟩⟩
    simp [isWordChar, hword.2 d hd]

theorem exists_head_of_startsLength {text : List Char} (h : startsLength text = true) :
    ∃ c, text.head? = some c ∧ c ≠ ']' := by
  cases text with
  | nil => cases h
  | cons c cs =>
    simp only [startsLength, List.head?_cons, Option.any_some, Bool.and_eq_true, bne_iff_ne] at h
    exact ⟨c, rfl, h.2⟩

theorem leadOf_type (r : List Char) : leadOf ('t' :: 'y' :: 'p' :: 'e' :: ' ' :: r) = .defined :=
  leadOf_run "type".toList _ (by decide) (by decide) (endsRun_cons (by decide))

/-- No type starts with the words of a declaration but the declaration itself. -/
theorem rootKind_of_leadOf {s : List Char} {k : Ty.Kind} (h : leadOf s = k) (hk : k ≠ .defined)
    (hs : s.head? ≠ some '~') : rootKind s = k := by
  unfold rootKind
  split
  · exact absurd rfl hs
  · rw [leadOf_type] at h
    exact absurd h.symm hk
  · rw [h]
    split
    · exact absurd rfl hk
    · rfl

/-- A name announces a named type, also the word `type`, since no blank follows a name. -/
theorem rootKind_word {n : String} (hn : isTypeName n = true) (args : List Ty) :
    rootKind (n.toList ++ argsText args) = .named := by
  obtain ⟨hne, hword⟩ := isWordChar_of_isTypeName hn
  have hends : EndsRun isWordChar (argsText args) := by
    simpa using argsText_endsRun args [] (endsRun_nil _)
  have hlead := leadOf_run n.toList _ hne (List.all_eq_true.2 hword) hends
  have hplain : ∀ w ∈ typeWords, n.toList ≠ w.toList := by
    intro w hw heq
    obtain rfl := String.toList_injective heq
    simp [isTypeName, hw] at hn
  have hnamed : leadOfWord n.toList = .named ∨ leadOfWord n.toList = .defined := by
    unfold leadOfWord
    rw [if_neg (hplain _ (by decide)), if_neg (hplain _ (by decide)), if_neg (hplain _ (by decide)),
      if_neg (hplain _ (by decide)), if_neg (hplain _ (by decide))]
    split
    · exact Or.inr rfl
    · exact Or.inl rfl
  unfold rootKind
  split
  · next r heq =>
    cases hlist : n.toList with
    | nil => exact absurd hlist hne
    | cons c cs =>
      rw [hlist, List.cons_append, List.cons.injEq] at heq
      have hc := hword c (by simp [hlist])
      rw [heq.1] at hc
      exact absurd hc (by decide)
  · next r heq =>
    have htype : "type".toList.all isWordChar = true := by decide
    have hrest := (run_unique isWordChar n.toList "type".toList _ (' ' :: r) hword
      (List.all_eq_true.1 htype) hends (endsRun_cons (by decide)) heq).2
    unfold argsText at hrest
    split at hrest <;> cases hrest
  · rw [hlead]
    rcases hnamed with h | h <;> rw [h]

/-- The only unions at the root of a loaded type are approximations. -/
theorem Ty.Rooted.exists_approximation {terms : List (Term Ty)} (ht : (Ty.union terms).Rooted) :
    ∃ u, terms = [⟨true, u⟩] := by
  rcases terms with _ | ⟨⟨_ | _, u⟩, _ | ⟨v, rest⟩⟩
  case cons.true.nil => exact ⟨u, rfl⟩
  all_goals exact ht.elim

/-- The first characters of a loaded type tell its kind, unless it is basic. -/
theorem rootKind_text {t : Ty} (ht : t.Rooted) (hbasic : t.kind ≠ .basic) :
    rootKind t.text = t.kind := by
  have hcomposite : t.isComposite = true → t.text.head? ≠ some '~' → rootKind t.text = t.kind := by
    intro h hhead
    have hlead := lead_text_composite h []
    rw [List.append_nil] at hlead
    refine rootKind_of_leadOf hlead (fun hkind => ?_) hhead
    cases t <;> cases hkind
    cases h
  cases t with
  | basic n => exact absurd rfl hbasic
  | typeParam n => exact ht.elim
  | named package n args =>
    cases package with
    | none =>
      rw [text_local]
      exact rootKind_word ht args
    | some p =>
      rw [text_qualified, quote, String.toList_ofList]
      rfl
  | array len e =>
    obtain ⟨c, hhead, hc⟩ := exists_head_of_startsLength ht
    have hlead := lead_text_array hhead hc e []
    rw [List.append_nil] at hlead
    exact rootKind_of_leadOf hlead (by simp [Ty.kind]) (by simp [text_array])
  | union terms =>
    obtain ⟨u, rfl⟩ := ht.exists_approximation
    rw [text_union]
    rfl
  | defined n bs a u =>
    rw [text_defined]
    rfl
  | pointer e => exact hcomposite rfl (by simp [text_pointer])
  | slice e => exact hcomposite rfl (by simp [text_slice])
  | map k v => exact hcomposite rfl (by simp [text_map])
  | chan d e =>
    refine hcomposite rfl ?_
    cases d <;> simp [text_both, text_send, text_recv]
  | struct fs => exact hcomposite rfl (by simp [text_struct])
  | interface body => exact hcomposite rfl (by simp [text_interface])
  | func g => exact hcomposite rfl (by simp [text_func])

/-! ## Types of one text -/

theorem kind_respell (s : Scope) (t : Ty) : (t.respell s).kind = t.kind := by
  cases t <;> simp [Ty.respell, Ty.kind]

/-- Respelling type parameters leaves the root as it is. -/
theorem Ty.Rooted.respell {t : Ty} (ht : t.Rooted) (s : Scope) : (t.respell s).Rooted := by
  cases t with
  | named package n args =>
    cases package with
    | none => simpa [Ty.respell, Ty.Rooted] using ht
    | some path => simp [Ty.respell, Ty.Rooted]
  | typeParam n => exact ht.elim
  | array len e => simpa [Ty.respell, Ty.Rooted] using ht
  | union terms =>
    obtain ⟨u, rfl⟩ := ht.exists_approximation
    simp [Ty.respell, Ty.respellTerms, Ty.Rooted]
  | _ => simp [Ty.respell, Ty.Rooted]

/-- The canonical text of a loaded type tells its kind, unless it is basic. -/
theorem rootKind_canonical {t : Ty} (ht : t.Rooted) (hbasic : t.kind ≠ .basic) :
    rootKind t.canonical.toList = t.kind := by
  have hkind := kind_respell .positional t
  rw [← hkind] at hbasic ⊢
  exact rootKind_text (ht.respell .positional) hbasic

/-- A named type whose text starts with a word is a type of the package that has this name. -/
theorem exists_args_of_text {t : Ty} (ht : t.Rooted) (hkind : t.kind = .named) {n : String}
    (hne : n.toList ≠ []) (hn : ∀ c ∈ n.toList, isWordChar c = true) {r : List Char}
    (hr : EndsRun isWordChar r) (h : t.canonical.toList = n.toList ++ r) :
    ∃ args, t = .named none n args ∧ argsText (args.map (·.respell .positional)) = r := by
  cases t with
  | named package m args =>
    have htext : (Ty.named package m (args.map (·.respell .positional))).text = n.toList ++ r := by
      rw [← h, Ty.canonical, Ty.respell, respellList_eq_map]
      rfl
    cases package with
    | none =>
      rw [text_local] at htext
      have hends := argsText_endsRun (args.map (·.respell .positional)) [] (endsRun_nil _)
      rw [List.append_nil] at hends
      obtain ⟨hm, hargs⟩ := run_unique isWordChar _ _ _ _ (isWordChar_of_isTypeName ht).2 hn hends hr htext
      obtain rfl := String.toList_injective hm
      exact ⟨args, rfl, hargs⟩
    | some p =>
      -- a quoted path is no word
      rw [text_qualified, quote, String.toList_ofList] at htext
      cases hlist : n.toList with
      | nil => exact absurd hlist hne
      | cons c cs =>
        rw [hlist] at htext
        have hc : '"' = c := (List.cons.inj htext).1
        have hquote := hn c (by simp [hlist])
        rw [← hc] at hquote
        exact absurd hquote (by decide)
  | _ => cases hkind

/-- A loaded type whose text can name a type is basic or a type of the package. -/
theorem eq_localRef_of_canonical {n : String} (hn : isTypeName n = true) {t : Ty} (ht : t.Rooted)
    (hbasic : t.kind ≠ .basic) (h : t.canonical = n) : t = .localRef n := by
  obtain ⟨hne, hword⟩ := isWordChar_of_isTypeName hn
  have hkind : t.kind = .named := by
    have hnamed := rootKind_word hn []
    rw [argsText, if_pos rfl, List.append_nil, ← h, rootKind_canonical ht hbasic] at hnamed
    exact hnamed
  obtain ⟨args, rfl, hargs⟩ := exists_args_of_text ht hkind hne hword (endsRun_nil _)
    (by rw [h, List.append_nil])
  cases args with
  | nil => rfl
  | cons a as => simp [argsText] at hargs

theorem prefix_of_untypedRank {text : String} (h : (untypedRank (.basic text)).isSome) :
    "untyped ".toList <+: text.toList := by
  unfold untypedRank at h
  dsimp only at h
  split at h
  · next htext => exact htext ▸ by decide
  split at h
  · next htext => exact htext ▸ by decide
  split at h
  · next htext => exact htext ▸ by decide
  split at h
  · next htext => exact htext ▸ by decide
  split at h
  · next hprefix => exact List.isPrefixOf_iff_prefix.1 hprefix
  · cases h

/-- Only a basic type is written like an untyped kind. -/
theorem untypedRank_canonical {t : Ty} (ht : t.Rooted) (hbasic : t.kind ≠ .basic) :
    untypedRank (.basic t.canonical) = none := by
  rw [← Option.not_isSome_iff_eq_none]
  intro hrank
  obtain ⟨r, hprefix⟩ := prefix_of_untypedRank hrank
  have hr : t.canonical.toList = "untyped".toList ++ ' ' :: r := hprefix.symm
  have hends : EndsRun isWordChar (' ' :: r) := endsRun_cons (by decide)
  have huntyped : "untyped".toList.all isWordChar = true := by decide
  have hlead := leadOf_run "untyped".toList (' ' :: r) (by decide) huntyped hends
  have hkind : t.kind = .named := by
    rw [← rootKind_canonical ht hbasic, hr]
    exact rootKind_of_leadOf hlead (by decide) (by simp)
  obtain ⟨args, -, hargs⟩ := exists_args_of_text ht hkind (by decide) (List.all_eq_true.1 huntyped) hends hr
  unfold argsText at hargs
  split at hargs <;> cases hargs

/-- A basic type, and a type of another kind that is written like its name. -/
inductive SpelledLike : Ty → Ty → Prop
  /-- A name such as `error`, and a type of the package that has this name. -/
  | shadowed (name : String) : SpelledLike (.basic name) (.localRef name)
  /-- An expression that stands for a type, and a type that is written so.  The other basic types have
  a word for a name, or are untyped. -/
  | verbatim {text : String} {t : Ty} (hword : isTypeName text = false)
      (htyped : untypedRank (.basic text) = none) (ht : t.canonical = text) : SpelledLike (.basic text) t

theorem canonical_basic (n : String) : (Ty.basic n).canonical = n := by
  simp [Ty.canonical, Ty.respell, Ty.write]

theorem canonical_localRef (n : String) : (Ty.localRef n).canonical = n := by
  simp [Ty.canonical, Ty.localRef, Ty.respell, Ty.respellList, Ty.write, Ty.writeList, bracketed]

theorem SpelledLike.canonical_eq {a b : Ty} (h : SpelledLike a b) : a.canonical = b.canonical := by
  cases h with
  | shadowed name => rw [canonical_basic, canonical_localRef]
  | verbatim _ _ ht => rw [canonical_basic, ht]

theorem spelledLike_of_canonical {n : String} {t : Ty} (ht : t.Rooted) (hbasic : t.kind ≠ .basic)
    (h : t.canonical = n) : SpelledLike (.basic n) t := by
  by_cases hn : isTypeName n = true
  · rw [eq_localRef_of_canonical hn ht hbasic h]
    exact .shadowed n
  · refine .verbatim (by simpa using hn) ?_ h
    rw [← h]
    exact untypedRank_canonical ht hbasic

/-- Two loaded types of different kinds have one text exactly if one of them is basic and the other
written like its name. -/
theorem canonical_eq_iff_spelledLike {a b : Ty} (ha : a.Rooted) (hb : b.Rooted) (hkind : a.kind ≠ b.kind) :
    a.canonical = b.canonical ↔ SpelledLike a b ∨ SpelledLike b a := by
  constructor
  · intro h
    by_cases hbasic : a.kind = .basic
    · left
      cases a with
      | basic n =>
        rw [canonical_basic] at h
        exact spelledLike_of_canonical hb (Ne.symm hkind) h.symm
      | _ => cases hbasic
    · right
      have hbasic' : b.kind = .basic := by
        by_contra hne
        refine hkind ?_
        rw [← rootKind_canonical ha hbasic, ← rootKind_canonical hb hne, h]
      cases b with
      | basic n =>
        rw [canonical_basic] at h
        exact spelledLike_of_canonical ha hkind h
      | _ => cases hbasic'
  · rintro (h | h)
    · exact h.canonical_eq
    · exact h.canonical_eq.symm

/-! ## The verdict -/

/-- Types of different kinds are identical if they have one text, and otherwise never compatible. -/
theorem widens_iff_of_kind_ne {policy : Policy} {a b : Ty} (hkind : a.kind ≠ b.kind) :
    a.Widens policy b ↔ a.canonical = b.canonical := by
  constructor
  · intro h
    cases h with
    | identical hid => exact beq_iff_eq.1 hid
    | _ => exact absurd rfl hkind
  · intro h
    exact .identical (beq_iff_eq.2 h)

theorem delta_of_canonical_eq (policy : Policy) {a b : Ty} (h : a.canonical = b.canonical) :
    a.delta policy b = .identical := by
  have hid : a.identical b = true := beq_iff_eq.2 h
  unfold Ty.delta Ty.notes
  rw [if_pos hid]
  rfl

/-- The type that loading gives to the symbol of a name. -/
def loadedType? (target : Build.Target) (package : String) (sources : List SourceFile) (name : String) :
    Option Ty :=
  match load target package sources with
  | .ok (some table) => (table.get? name).map (·.type)
  | _ => none

theorem rooted_of_loadedType? {target : Build.Target} {package : String} {sources : List SourceFile}
    {name : String} {t : Ty} (h : loadedType? target package sources name = some t) : t.Rooted := by
  unfold loadedType? at h
  split at h
  · next table hload =>
    obtain ⟨s, hs, rfl⟩ := Option.map_eq_some_iff.1 h
    exact load_rooted hload s (List.mem_of_find?_eq_some hs)
  · cases h

/-- When the type of a symbol changes its kind between two versions of a package, the change breaks,
under every policy, unless one of the two types is basic and the other written like its name.  Then the
two count as identical. -/
theorem kind_change_breaks_iff (policy : Policy) {target target' : Build.Target} {package package' : String}
    {sources sources' : List SourceFile} {name : String} {old new : Ty}
    (hold : loadedType? target package sources name = some old)
    (hnew : loadedType? target' package' sources' name = some new) (hkind : old.kind ≠ new.kind) :
    ((∃ reason, old.delta policy new = .incompatible reason) ↔
      ¬ (SpelledLike old new ∨ SpelledLike new old)) ∧
    (old.delta policy new = .identical ↔ SpelledLike old new ∨ SpelledLike new old) := by
  have hspelled := canonical_eq_iff_spelledLike (rooted_of_loadedType? hold) (rooted_of_loadedType? hnew) hkind
  have hbreaks : (∃ reason, old.delta policy new = .incompatible reason) ↔
      ¬ old.canonical = new.canonical := by
    rw [Delta.exists_incompatible_iff, isCompatible_delta_iff, widens_iff_of_kind_ne hkind]
  rw [← hspelled]
  refine ⟨hbreaks, fun hidentical => ?_, delta_of_canonical_eq policy⟩
  by_contra hne
  obtain ⟨reason, hreason⟩ := hbreaks.2 hne
  rw [hidentical] at hreason
  cases hreason

/-- A variable that holds an array. -/
def arrayVariable : SourceFile := ⟨"p.go", "package p\nvar V = [...]int\x7b1, 2\x7d\n"⟩

/-- The same variable, for a slice. -/
def sliceVariable : SourceFile := ⟨"p.go", "package p\nvar V []int\n"⟩

/-- The texts of an array and a slice start with the same bracket. -/
theorem kind_change_breaks_slice : ∃ old new,
    loadedType? {} "./p" [arrayVariable] "V" = some old ∧
    loadedType? {} "./p" [sliceVariable] "V" = some new ∧ old.kind = .array ∧ new.kind = .slice ∧
    ∀ policy, ∃ reason, old.delta policy new = .incompatible reason := by
  have harray : (loadedType? {} "./p" [arrayVariable] "V").map Ty.kind = some .array := by decide +kernel
  have hslice : (loadedType? {} "./p" [sliceVariable] "V").map Ty.kind = some .slice := by decide +kernel
  obtain ⟨old, hold, hkind⟩ := Option.map_eq_some_iff.1 harray
  obtain ⟨new, hnew, hkind'⟩ := Option.map_eq_some_iff.1 hslice
  refine ⟨old, new, hold, hnew, hkind, hkind', fun policy => ?_⟩
  refine (kind_change_breaks_iff policy hold hnew ?_).1.2 ?_
  · rw [hkind, hkind']
    decide
  · rintro (h | h)
    · cases h <;> cases hkind
    · cases h <;> cases hkind'

/-- A variable of a predeclared type. -/
def errorVariable : SourceFile := ⟨"p.go", "package p\nvar Err error\n"⟩

/-- The same variable, in a package that declares a type of this name. -/
def shadowedVariable : SourceFile :=
  ⟨"p.go", "package p\ntype error interface \x7b Error() string \x7d\nvar Err error\n"⟩

/-- The predeclared type and the package's own are of different kinds, and the change is not noticed. -/
theorem shadowed_error_unnoticed : ∃ old new,
    loadedType? {} "./p" [errorVariable] "Err" = some old ∧
    loadedType? {} "./p" [shadowedVariable] "Err" = some new ∧ old.kind = .basic ∧ new.kind = .named ∧
    ∀ policy, old.delta policy new = .identical := by
  have hbasic : (loadedType? {} "./p" [errorVariable] "Err").map (fun t => (t.kind, t.canonical)) =
      some (.basic, "error") := by decide +kernel
  have hnamed : (loadedType? {} "./p" [shadowedVariable] "Err").map (fun t => (t.kind, t.canonical)) =
      some (.named, "error") := by decide +kernel
  obtain ⟨old, hold, heq⟩ := Option.map_eq_some_iff.1 hbasic
  obtain ⟨new, hnew, heq'⟩ := Option.map_eq_some_iff.1 hnamed
  obtain ⟨hkind, htext⟩ := Prod.mk.inj heq
  obtain ⟨hkind', htext'⟩ := Prod.mk.inj heq'
  refine ⟨old, new, hold, hnew, hkind, hkind', fun policy => ?_⟩
  exact delta_of_canonical_eq policy (htext.trans htext'.symm)

/-- An expression in place of a type can be written like a type of another package. -/
example :
    ((loadedType? {} "./p" [⟨"p.go", "package p\nvar V = make(\"q\".T)\n"⟩] "V").map
      fun t => (t.kind, t.canonical)) = some (.basic, "\"q\".T") ∧
    ((loadedType? {} "./p" [⟨"p.go", "package p\nimport \"q\"\nvar V q.T\n"⟩] "V").map
      fun t => (t.kind, t.canonical)) = some (.named, "\"q\".T") := by
  decide +kernel

end GoApi
