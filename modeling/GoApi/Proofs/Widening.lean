import GoApi.Proofs.Classify

/-!
# When a change is compatible

`old.Widens policy new` says without notes when existing callers of `old` can use `new`: the two are
identical, or `new` has all members of `old` that callers can name, or they declare such bodies.

    (∀ note ∈ old.notes policy new, note.compatible = true) ↔ old.Widens policy new
                                                                        (notes_compatible_iff)
    (∀ c ∈ classify policy a b, c.compatible = true) ↔ every symbol of a is found in b, `Replaceable`
                                                                        (classify_compatible_iff)

The policy counts where the order of fields and the additions to an interface do.
-/

namespace GoApi

/-! ## Widening -/

/-- The names of exported fields that the other side has too, in order. -/
def sharedNames (these those : List (Field Ty)) : List String :=
  ((exportedFields these).filter fun f => (fieldNamed those f.name).isSome).map (·.name)

/-- Each exported field finds one of its name and type that is embedded if it was, and callers that write
literals by position find the shared fields in the same order. -/
structure FieldsWiden (policy : Policy) (old new : List (Field Ty)) : Prop where
  found : ∀ f ∈ exportedFields old, ∃ g, fieldNamed new f.name = some g ∧
    f.type.identical g.type = true ∧ (f.embedded = true → g.embedded = true)
  order : policy.fieldOrder = .positional → sharedNames old new = sharedNames new old

/-- Each method finds one of its name and signature, each element an identical one, and callers that
implement the interface have nothing to add. -/
structure MembersWiden (policy : Policy) (old new : Interface Ty) : Prop where
  found : ∀ m ∈ old.methods, ∃ n, new.method? m.name = some n ∧ m.sig.identical n.sig = true
  elements : ∀ e ∈ old.embedded, ∃ d ∈ new.embedded, e.identical d = true
  covered : policy.interfaceAdditions = .implemented →
    ∀ n ∈ new.methods, ∃ m ∈ old.methods, m.name = n.name
  elements' : policy.interfaceAdditions = .implemented →
    ∀ d ∈ new.embedded, ∃ e ∈ old.embedded, e.identical d = true

/-- Existing callers can use the new type. -/
inductive Ty.Widens (policy : Policy) : Ty → Ty → Prop
  | identical {old new : Ty} (h : old.identical new = true) : Widens policy old new
  | struct {fs gs : List (Field Ty)} (h : FieldsWiden policy fs gs) :
      Widens policy (.struct fs) (.struct gs)
  | interface {a b : Interface Ty} (h : MembersWiden policy a b) :
      Widens policy (.interface a) (.interface b)
  | defined {n n' : String} {bs bs' : List (Binder Ty)} {isAlias : Bool} {u u' : Ty}
      (hbs : BindersMatch bs bs') (hu : Widens policy u (u'.renameFree (binderRenaming bs bs'))) :
      Widens policy (.defined n bs isAlias u) (.defined n' bs' isAlias u')

/-! ## Compatible notes -/

variable {policy : Policy}

/-- Every note about a struct is compatible exactly when its fields widen. -/
theorem structNotes_compatible_iff (old new : List (Field Ty)) :
    (∀ note ∈ structNotes policy old new, note.compatible = true) ↔ FieldsWiden policy old new := by
  unfold structNotes
  simp only [List.forall_mem_append, List.forall_mem_flatMap]
  constructor
  · rintro ⟨⟨hkept, _⟩, horder⟩
    refine ⟨fun f hf => ?_, fun hpositional => ?_⟩
    · have hnotes := hkept f hf
      cases hg : fieldNamed new f.name with
      | none => simp [hg, Note.breaking] at hnotes
      | some g =>
        refine ⟨g, rfl, ?_⟩
        simp only [hg, List.forall_mem_append] at hnotes
        cases hid : f.type.identical g.type <;> cases hfe : f.embedded <;> cases hge : g.embedded <;>
          simp [hid, hfe, hge, Note.breaking, Note.ok] at hnotes ⊢
    · split at horder
      · next hsame => exact hsame
      · simp [hpositional] at horder
  · rintro ⟨hfound, horder⟩
    refine ⟨⟨fun f hf => ?_, fun note hnote => ?_⟩, fun note hnote => ?_⟩
    · obtain ⟨g, hg, hid, hembedded⟩ := hfound f hf
      cases hfe : f.embedded <;> cases hge : g.embedded <;> simp_all [Note.ok]
    · obtain ⟨f, _, hf⟩ := List.mem_filterMap.1 hnote
      split at hf <;> cases hf
      rfl
    · split at hnote
      · cases hnote
      · next hne =>
        obtain rfl := List.mem_singleton.1 hnote
        cases horder' : policy.fieldOrder with
        | keyed => rfl
        | positional => exact absurd (horder horder') hne

/-- The same for an interface, whose additions are compatible under a policy that takes it as
consumed. -/
theorem interfaceNotes_compatible_iff (old new : Interface Ty) :
    (∀ note ∈ interfaceNotes policy old new, note.compatible = true) ↔ MembersWiden policy old new := by
  unfold interfaceNotes
  simp only [List.forall_mem_append, List.forall_mem_filterMap, List.forall_mem_map, List.mem_filter,
    mem_sortBy, Bool.not_eq_true', and_imp]
  constructor
  · rintro ⟨⟨⟨hkept, hadded⟩, hdropped⟩, hgained⟩
    refine ⟨fun m hm => ?_, fun e he => ?_, fun hpolicy n hn => ?_, fun hpolicy d hd => ?_⟩
    · have hnote := hkept m hm
      cases hn : new.method? m.name with
      | none => simp [hn, Note.breaking] at hnote
      | some n =>
        refine ⟨n, rfl, ?_⟩
        simpa [hn, Note.breaking] using hnote
    · rw [← List.any_eq_true]
      by_contra hne
      exact absurd (hdropped e he (Bool.eq_false_iff.2 hne)) Bool.false_ne_true
    · rw [← method?_isSome_iff]
      have hnote := hadded n hn
      cases hm : old.method? n.name with
      | none => simp [hm, hpolicy] at hnote
      | some m => rfl
    · by_contra hne
      have hmissing : (old.embedded.any (d.identical ·)) = false := by
        rw [List.any_eq_false]
        intro e he hid
        exact hne ⟨e, he, Ty.identical_comm d e ▸ hid⟩
      simpa [hpolicy] using hgained d hd hmissing
  · rintro ⟨hfound, helements, hcovered, helements'⟩
    have hadditions : policy.interfaceAdditions ≠ .implemented →
        decide (policy.interfaceAdditions = .consumed) = true := by
      cases policy.interfaceAdditions <;> simp
    refine ⟨⟨⟨fun m hm => ?_, fun n hn => ?_⟩, fun e he hmissing => ?_⟩, fun d hd hmissing => ?_⟩
    · obtain ⟨n, hn, hid⟩ := hfound m hm
      simp [hn, hid]
    · intro note hnote
      split at hnote
      · next hnone =>
        cases hnote
        refine hadditions fun hpolicy => ?_
        have hsome := (method?_isSome_iff old n.name).2 (hcovered hpolicy n hn)
        simp [hnone] at hsome
      · cases hnote
    · rw [List.any_eq_false] at hmissing
      obtain ⟨d, hd, hid⟩ := helements e he
      exact absurd hid (hmissing d hd)
    · rw [List.any_eq_false] at hmissing
      refine hadditions fun hpolicy => ?_
      obtain ⟨e, he, hid⟩ := helements' hpolicy d hd
      exact hmissing e he (Ty.identical_comm e d ▸ hid)

/-- Where nothing is noticed, nothing is broken. -/
theorem FieldsMatch.widen {old new : List (Field Ty)} (h : FieldsMatch old new) :
    FieldsWiden policy old new := by
  rw [← structNotes_compatible_iff, (structNotes_eq_nil_iff policy old new).2 h]
  intro note hnote
  cases hnote

theorem MembersMatch.widen {old new : Interface Ty} (h : MembersMatch old new) :
    MembersWiden policy old new :=
  ⟨h.found, h.elements, fun _ => h.covered, fun _ => h.elements'⟩

/-- Type parameters have no compatible change. -/
theorem binderNotes_compatible_iff (old new : List (Binder Ty)) :
    (∀ note ∈ binderNotes old new, note.compatible = true) ↔ BindersMatch old new := by
  rw [← binderNotes_eq_nil_iff]
  unfold binderNotes
  dsimp only
  split <;> simp [Note.breaking]

theorem aliasNotes_compatible_iff (a a' : Bool) :
    (∀ note ∈ aliasNotes a a', note.compatible = true) ↔ a = a' := by
  cases a <;> cases a' <;> simp [aliasNotes, Note.breaking]

theorem signatureNotes_compatible_iff (g h : Signature Ty) :
    (∀ note ∈ signatureNotes g h, note.compatible = true) ↔ (Ty.func g).identical (.func h) = true := by
  rw [← signatureNotes_eq_nil_iff]
  unfold signatureNotes
  split <;> simp [Note.breaking]

/-- A change of kind is never compatible. -/
theorem not_compatible_kindNote (old new : Ty) :
    ¬ ∀ note ∈ [kindNote old new], note.compatible = true := by
  rw [List.forall_mem_singleton]
  unfold kindNote
  split <;> simp [Note.breaking]

/-- A comparison has compatible notes only, exactly if existing callers can use the new type. -/
theorem notes_compatible_iff (old new : Ty) :
    (∀ note ∈ old.notes policy new, note.compatible = true) ↔ old.Widens policy new := by
  fun_induction Ty.notes policy old new with
  | case1 old new hid => exact ⟨fun _ => .identical hid, fun _ => by simp⟩
  | case2 n bs a u n' bs' a' u' hid ih =>
    rw [List.forall_mem_append, List.forall_mem_append, aliasNotes_compatible_iff,
      binderNotes_compatible_iff, ih]
    constructor
    · rintro ⟨⟨rfl, hbs⟩, hu⟩
      exact .defined hbs hu
    · intro h
      cases h with
      | identical h => exact absurd h hid
      | defined hbs hu => exact ⟨⟨rfl, hbs⟩, hu⟩
  | case3 fs gs hid =>
    rw [structNotes_compatible_iff]
    refine ⟨.struct, fun h => ?_⟩
    cases h with
    | identical h => exact absurd h hid
    | struct h => exact h
  | case4 a b hid =>
    rw [interfaceNotes_compatible_iff]
    refine ⟨.interface, fun h => ?_⟩
    cases h with
    | identical h => exact absurd h hid
    | interface h => exact h
  | case5 g h hid =>
    rw [signatureNotes_compatible_iff]
    refine ⟨.identical, fun h => ?_⟩
    cases h with
    | identical h => exact h
  | case6 new n bs a u hkind hid =>
    refine ⟨fun h => absurd h (not_compatible_kindNote _ _), fun h => ?_⟩
    cases h with
    | identical h => exact absurd h hid
    | defined => exact (hkind _ _ _ _ rfl).elim
  | case7 new fs hkind hid =>
    refine ⟨fun h => absurd h (not_compatible_kindNote _ _), fun h => ?_⟩
    cases h with
    | identical h => exact absurd h hid
    | struct => exact (hkind _ rfl).elim
  | case8 new body hkind hid =>
    refine ⟨fun h => absurd h (not_compatible_kindNote _ _), fun h => ?_⟩
    cases h with
    | identical h => exact absurd h hid
    | interface => exact (hkind _ rfl).elim
  | case9 new g hkind hid =>
    refine ⟨fun h => absurd h (not_compatible_kindNote _ _), fun h => ?_⟩
    cases h with
    | identical h => exact absurd h hid
  | case10 old new hid hdefined hstruct hinterface =>
    refine ⟨fun h => by simp [Note.breaking] at h, fun h => ?_⟩
    cases h with
    | identical h => exact absurd h hid
    | struct => exact (hstruct _ rfl).elim
    | interface => exact (hinterface _ rfl).elim
    | defined => exact (hdefined _ _ _ _ rfl).elim

/-- A verdict is compatible when every note is. -/
theorem isCompatible_ofNotes_iff (notes : List Note) :
    (Delta.ofNotes notes).isCompatible = true ↔ ∀ note ∈ notes, note.compatible = true := by
  cases notes with
  | nil => simp [Delta.ofNotes, Delta.isCompatible]
  | cons note notes =>
    rw [← List.all_eq_true]
    unfold Delta.ofNotes
    dsimp only
    split <;> simp_all [Delta.isCompatible]

/-- The comparison calls a change compatible exactly when the new type widens the old one. -/
theorem isCompatible_delta_iff (old new : Ty) :
    (old.delta policy new).isCompatible = true ↔ old.Widens policy new := by
  rw [Ty.delta, isCompatible_ofNotes_iff, notes_compatible_iff]

/-! ## Compatible records -/

/-- Callers of one declaration can use the other in its place. -/
def Replaceable (policy : Policy) (old new : Symbol) : Prop :=
  old.kind = new.kind ∧
    match old.kind with
    | .type | .func | .method => old.type.Widens policy new.type
    | .const | .var => old.type.identical new.type = true

theorem changeOf_compatible_iff (name : String) (old new : Symbol) :
    (∀ c ∈ changeOf policy name old new, c.compatible = true) ↔ Replaceable policy old new := by
  unfold changeOf Replaceable
  by_cases hkind : old.kind = new.kind
  · rw [if_pos hkind]
    have hdelta : (old.type.delta policy new.type).isCompatible = true ↔
        old.type.Widens policy new.type := isCompatible_delta_iff _ _
    have hvalue : (valueDelta old.type new.type).isCompatible = true ↔
        old.type.identical new.type = true := by
      unfold valueDelta
      split <;> simp_all [Delta.isCompatible]
    simp only [hkind, true_and, ← hdelta, ← hvalue]
    cases new.kind
    case const | var => cases valueDelta old.type new.type <;> simp [Change.changed, Delta.isCompatible]
    all_goals cases old.type.delta policy new.type <;> simp [Change.changed, Delta.isCompatible]
  · rw [if_neg hkind]
    simp [Change.changed, hkind]

/-- All records are compatible exactly if every symbol is found again, fit to take its place. -/
theorem classify_compatible_iff (old new : SymbolTable) :
    (∀ c ∈ classify policy old new, c.compatible = true) ↔
      ∀ s ∈ old.symbols, ∃ s', new.get? s.name = some s' ∧ Replaceable policy s s' := by
  constructor
  · intro h s hs
    have hold := (old.get?_eq_some_iff s.name s).2 ⟨hs, rfl⟩
    cases hnew : new.get? s.name with
    | none =>
      have hremoved : Change.removed s.name ∈ classify policy old new := by
        rw [mem_classify]
        simp [Change.removed, classifySymbol, hold, hnew]
      exact absurd (h _ hremoved) Bool.false_ne_true
    | some s' =>
      refine ⟨s', rfl, (changeOf_compatible_iff s.name s s').1 fun c hc => h c ?_⟩
      have hsymbol : classifySymbol policy s.name (some s) (some s') = some c := hc
      rw [mem_classify, classifySymbol_symbol hsymbol, hold, hnew, hsymbol]
  · intro h c hc
    rw [mem_classify] at hc
    cases hold : old.get? c.symbol with
    | none =>
      cases hnew : new.get? c.symbol with
      | none =>
        rw [hold, hnew] at hc
        cases hc
      | some s' =>
        rw [hold, hnew, classifySymbol, Option.some.injEq] at hc
        rw [← hc]
        rfl
    | some s =>
      obtain ⟨hs, hname⟩ := (old.get?_eq_some_iff _ _).1 hold
      obtain ⟨s', hnew, hreplaceable⟩ := h s hs
      rw [hname] at hnew
      rw [hold, hnew] at hc
      exact (changeOf_compatible_iff c.symbol s s').2 hreplaceable c hc

end GoApi
