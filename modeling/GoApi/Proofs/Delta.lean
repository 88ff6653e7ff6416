import GoApi.Delta
import GoApi.Proofs.Order

/-!
# When a comparison finds nothing

`Ty.Unnoticed old new` says without notes, and without a policy, when replacing `old` by `new` is
invisible: the two are identical, or they agree in all members that callers can name, or they declare
the same up to the names of type parameters.

    old.notes policy new = [] ↔ old.Unnoticed new                              (notes_eq_nil_iff)
-/

namespace GoApi

/-- The exported fields have the same names in the same order, and each the type and embedding of the
field that its name finds on the other side. -/
structure FieldsMatch (old new : List (Field Ty)) : Prop where
  names : (exportedFields old).map (·.name) = (exportedFields new).map (·.name)
  found : ∀ f ∈ exportedFields old, ∃ g, fieldNamed new f.name = some g ∧
    f.type.identical g.type = true ∧ f.embedded = g.embedded

/-- Each method finds one of its name and signature, and each element an identical one. -/
structure MembersMatch (old new : Interface Ty) : Prop where
  found : ∀ m ∈ old.methods, ∃ n, new.method? m.name = some n ∧ m.sig.identical n.sig = true
  covered : ∀ n ∈ new.methods, ∃ m ∈ old.methods, m.name = n.name
  elements : ∀ e ∈ old.embedded, ∃ d ∈ new.embedded, e.identical d = true
  elements' : ∀ d ∈ new.embedded, ∃ e ∈ old.embedded, e.identical d = true

/-- As many type parameters, with identical constraints once they have the same names. -/
structure BindersMatch (old new : List (Binder Ty)) : Prop where
  length : old.length = new.length
  constraints : ∀ p ∈ old.zip new,
    p.1.constraint.identical (p.2.constraint.renameFree (binderRenaming old new)) = true

/-- Nothing that callers could notice has changed. -/
inductive Ty.Unnoticed : Ty → Ty → Prop
  | identical {old new : Ty} (h : old.identical new = true) : Unnoticed old new
  | struct {fs gs : List (Field Ty)} (h : FieldsMatch fs gs) : Unnoticed (.struct fs) (.struct gs)
  | interface {a b : Interface Ty} (h : MembersMatch a b) : Unnoticed (.interface a) (.interface b)
  | defined {n n' : String} {bs bs' : List (Binder Ty)} {isAlias : Bool} {u u' : Ty}
      (hbs : BindersMatch bs bs') (hu : Unnoticed u (u'.renameFree (binderRenaming bs bs'))) :
      Unnoticed (.defined n bs isAlias u) (.defined n' bs' isAlias u')

theorem Ty.identical_comm (a b : Ty) : a.identical b = b.identical a := by
  unfold Ty.identical
  exact BEq.comm

theorem fieldNamed_isSome_iff (fs : List (Field Ty)) (name : String) :
    (fieldNamed fs name).isSome ↔ name ∈ fs.map (·.name) := by
  rw [fieldNamed, List.find?_isSome, List.mem_map]
  simp

theorem method?_isSome_iff (body : Interface Ty) (name : String) :
    (body.method? name).isSome ↔ ∃ m ∈ body.methods, m.name = name := by
  rw [Interface.method?, List.find?_isSome]
  simp

/-- The exported fields whose names the other side has. -/
theorem common_eq {these those : List (Field Ty)}
    (h : ∀ f ∈ exportedFields these, (fieldNamed those f.name).isSome) :
    ((exportedFields these).filter fun f => (fieldNamed those f.name).isSome).map (·.name) =
      (exportedFields these).map (·.name) := by
  rw [List.filter_eq_self.2 h]

/-- Nothing is noted about a struct exactly when its exported fields agree, order included. -/
theorem structNotes_eq_nil_iff (policy : Policy) (old new : List (Field Ty)) :
    structNotes policy old new = [] ↔ FieldsMatch old new := by
  unfold structNotes
  simp only [List.append_eq_nil_iff, List.flatMap_eq_nil_iff, List.filterMap_eq_nil_iff,
    ite_eq_left_iff, List.cons_ne_nil, imp_false, not_not]
  have hold : (∀ f ∈ exportedFields old, ∃ g, fieldNamed new f.name = some g ∧
      f.type.identical g.type = true ∧ f.embedded = g.embedded) →
      ∀ f ∈ exportedFields old, (fieldNamed new f.name).isSome := by
    intro hfound f hf
    obtain ⟨g, hg, _⟩ := hfound f hf
    simp [hg]
  constructor
  · rintro ⟨⟨hkept, hadded⟩, horder⟩
    have hfound : ∀ f ∈ exportedFields old, ∃ g, fieldNamed new f.name = some g ∧
        f.type.identical g.type = true ∧ f.embedded = g.embedded := by
      intro f hf
      have hnotes := hkept f hf
      cases hg : fieldNamed new f.name with
      | none => simp [hg] at hnotes
      | some g =>
        simp only [hg, List.append_eq_nil_iff, ite_eq_left_iff, List.cons_ne_nil, imp_false,
          not_not] at hnotes
        refine ⟨g, rfl, hnotes.1, ?_⟩
        have hembedded := hnotes.2
        cases hfe : f.embedded <;> cases hge : g.embedded <;> simp [hfe, hge] at hembedded ⊢
    refine ⟨?_, hfound⟩
    have hnew : ∀ f ∈ exportedFields new, (fieldNamed old f.name).isSome := by
      intro f hf
      have hnote := hadded f hf
      cases hg : fieldNamed old f.name with
      | none => simp [hg] at hnote
      | some g => rfl
    rwa [common_eq (hold hfound), common_eq hnew] at horder
  · rintro ⟨hnames, hfound⟩
    have hnew : ∀ f ∈ exportedFields new, (fieldNamed old f.name).isSome := by
      intro f hf
      have hmem : f.name ∈ (exportedFields old).map (·.name) := by
        rw [hnames]
        exact List.mem_map_of_mem hf
      obtain ⟨f₀, hf₀, hname⟩ := List.mem_map.1 hmem
      rw [fieldNamed_isSome_iff, ← hname]
      exact List.mem_map_of_mem (List.mem_of_mem_filter hf₀)
    refine ⟨⟨fun f hf => ?_, fun f hf => ?_⟩, ?_⟩
    · obtain ⟨g, hg, hid, hembedded⟩ := hfound f hf
      cases hge : g.embedded <;> simp [hg, hid, hembedded, hge]
    · obtain ⟨g, hg⟩ := Option.isSome_iff_exists.1 (hnew f hf)
      simp [hg]
    · rw [common_eq (hold hfound), common_eq hnew, hnames]

/-- Nothing is noted about an interface exactly when methods and elements agree as sets. -/
theorem interfaceNotes_eq_nil_iff (policy : Policy) (old new : Interface Ty) :
    interfaceNotes policy old new = [] ↔ MembersMatch old new := by
  unfold interfaceNotes
  simp only [List.append_eq_nil_iff, List.filterMap_eq_nil_iff, List.map_eq_nil_iff,
    List.filter_eq_nil_iff, mem_sortBy, Bool.not_eq_true', Bool.not_eq_false, List.any_eq_true]
  constructor
  · rintro ⟨⟨⟨hkept, hadded⟩, hdropped⟩, hgained⟩
    refine ⟨fun m hm => ?_, fun n hn => ?_, hdropped, fun d hd => ?_⟩
    · have hnote := hkept m hm
      cases hn : new.method? m.name with
      | none => simp [hn] at hnote
      | some n => exact ⟨n, rfl, by simpa [hn] using hnote⟩
    · have hnote := hadded n hn
      rw [← method?_isSome_iff]
      cases hm : old.method? n.name with
      | none => simp [hm] at hnote
      | some m => rfl
    · obtain ⟨e, he, hid⟩ := hgained d hd
      exact ⟨e, he, Ty.identical_comm d e ▸ hid⟩
  · rintro ⟨hfound, hcovered, helements, helements'⟩
    refine ⟨⟨⟨fun m hm => ?_, fun n hn => ?_⟩, helements⟩, fun d hd => ?_⟩
    · obtain ⟨n, hn, hid⟩ := hfound m hm
      simp [hn, hid]
    · obtain ⟨m, hm⟩ := Option.isSome_iff_exists.1 ((method?_isSome_iff old n.name).2 (hcovered n hn))
      simp [hm]
    · obtain ⟨e, he, hid⟩ := helements' d hd
      exact ⟨e, he, Ty.identical_comm e d ▸ hid⟩

/-- Nothing is noted about type parameters when they are equally many and their constraints agree
up to renaming. -/
theorem binderNotes_eq_nil_iff (old new : List (Binder Ty)) :
    binderNotes old new = [] ↔ BindersMatch old new := by
  unfold binderNotes
  simp only [ite_eq_left_iff, List.cons_ne_nil, imp_false, not_not, List.all_eq_true]
  exact ⟨fun ⟨hlen, hall⟩ => ⟨hlen, hall⟩, fun ⟨hlen, hall⟩ => ⟨hlen, hall⟩⟩

theorem aliasNotes_eq_nil_iff (a a' : Bool) : aliasNotes a a' = [] ↔ a = a' := by
  cases a <;> cases a' <;> simp [aliasNotes]

theorem Signature.identical_eq (g h : Signature Ty) :
    g.identical h = (Ty.func g).identical (.func h) := by
  simp [Signature.identical, Ty.identical, Signature.canonical, Ty.canonical, Ty.respell, Ty.write]

/-- A signature is compared as the function type that it belongs to. -/
theorem signatureNotes_eq_nil_iff (g h : Signature Ty) :
    signatureNotes g h = [] ↔ (Ty.func g).identical (.func h) = true := by
  unfold signatureNotes
  rw [Signature.identical_eq]
  split <;> simp_all

/-- A comparison has no notes exactly if nothing changed that callers could notice. -/
theorem notes_eq_nil_iff (policy : Policy) (old new : Ty) :
    old.notes policy new = [] ↔ old.Unnoticed new := by
  fun_induction Ty.notes policy old new with
  | case1 old new hid => exact ⟨fun _ => .identical hid, fun _ => rfl⟩
  | case2 n bs a u n' bs' a' u' hid ih =>
    rw [List.append_eq_nil_iff, List.append_eq_nil_iff, aliasNotes_eq_nil_iff,
      binderNotes_eq_nil_iff, ih]
    constructor
    · rintro ⟨⟨rfl, hbs⟩, hu⟩
      exact .defined hbs hu
    · intro h
      cases h with
      | identical h => exact absurd h hid
      | defined hbs hu => exact ⟨⟨rfl, hbs⟩, hu⟩
  | case3 fs gs hid =>
    rw [structNotes_eq_nil_iff]
    refine ⟨.struct, fun h => ?_⟩
    cases h with
    | identical h => exact absurd h hid
    | struct h => exact h
  | case4 a b hid =>
    rw [interfaceNotes_eq_nil_iff]
    refine ⟨.interface, fun h => ?_⟩
    cases h with
    | identical h => exact absurd h hid
    | interface h => exact h
  | case5 g h hid =>
    rw [signatureNotes_eq_nil_iff]
    refine ⟨.identical, fun h => ?_⟩
    cases h with
    | identical h => exact h
  | case6 new n bs a u hkind hid =>
    refine ⟨fun h => absurd h (List.cons_ne_nil _ _), fun h => ?_⟩
    cases h with
    | identical h => exact absurd h hid
    | defined => exact (hkind _ _ _ _ rfl).elim
  | case7 new fs hkind hid =>
    refine ⟨fun h => absurd h (List.cons_ne_nil _ _), fun h => ?_⟩
    cases h with
    | identical h => exact absurd h hid
    | struct => exact (hkind _ rfl).elim
  | case8 new body hkind hid =>
    refine ⟨fun h => absurd h (List.cons_ne_nil _ _), fun h => ?_⟩
    cases h with
    | identical h => exact absurd h hid
    | interface => exact (hkind _ rfl).elim
  | case9 new g hkind hid =>
    refine ⟨fun h => absurd h (List.cons_ne_nil _ _), fun h => ?_⟩
    cases h with
    | identical h => exact absurd h hid
  | case10 old new hid hdefined hstruct hinterface =>
    refine ⟨fun h => absurd h (List.cons_ne_nil _ _), fun h => ?_⟩
    cases h with
    | identical h => exact absurd h hid
    | struct => exact (hstruct _ rfl).elim
    | interface => exact (hinterface _ rfl).elim
    | defined => exact (hdefined _ _ _ _ rfl).elim

/-- The verdict is `identical` for no notes only. -/
theorem ofNotes_eq_identical_iff (notes : List Note) :
    Delta.ofNotes notes = .identical ↔ notes = [] := by
  cases notes with
  | nil => simp [Delta.ofNotes]
  | cons note notes =>
    unfold Delta.ofNotes
    dsimp only
    split <;> simp

/-- The comparison calls two types identical exactly when no difference between them is noticed.
The policy decides how a difference is judged, never whether it is one. -/
theorem delta_eq_identical_iff (policy : Policy) (old new : Ty) :
    old.delta policy new = .identical ↔ old.Unnoticed new := by
  rw [Ty.delta, ofNotes_eq_identical_iff, notes_eq_nil_iff]

/-! ## The three verdicts -/

theorem Delta.exists_incompatible_iff {delta : Delta} :
    (∃ reason, delta = .incompatible reason) ↔ ¬ delta.isCompatible = true := by
  cases delta <;> simp [Delta.isCompatible]

theorem Delta.exists_compatible_iff {delta : Delta} :
    (∃ reason, delta = .compatible reason) ↔ delta.isCompatible = true ∧ delta ≠ .identical := by
  cases delta <;> simp [Delta.isCompatible]

end GoApi
