import GoApi.Proofs.Compare
import GoApi.Proofs.Delta

/-!
# More lenient policies

A policy decides which findings break callers and nothing else.  Two comparisons of the same code base
under `p ≤ q` find the same, in the same order and in the same words, and what `p` lets pass `q` lets
pass:

    p ≤ q → List.Forall₂ Note.Softens (old.notes p new) (old.notes q new)      (notes_softens)
    p ≤ q → Option.Rel Report.Softens (compare? p old new packages) (compare? q old new packages)

The relation is carried from findings to verdicts, records, packages and reports, one level at a time.
-/

namespace GoApi

/-- `p ≤ q`: the policy `q` is at least as lenient as `p` in both of its questions, keyed literals being
more lenient than positional ones and consumed interfaces than implemented ones. -/
instance : LE Policy where
  le p q := (p.fieldOrder = .keyed → q.fieldOrder = .keyed) ∧
    (p.interfaceAdditions = .consumed → q.interfaceAdditions = .consumed)

/-! ## Findings -/

/-- The same finding, where a breaking one may have become compatible. -/
structure Note.Softens (n m : Note) : Prop where
  text : n.text = m.text
  compatible : n.compatible = true → m.compatible = true

theorem Note.Softens.refl (n : Note) : n.Softens n := ⟨rfl, id⟩

theorem softens_refl (notes : List Note) : List.Forall₂ Note.Softens notes notes :=
  List.forall₂_same.2 fun n _ => .refl n

variable {p q : Policy}

/-- The note on reordered fields is compatible under `q` if it is under `p`. -/
theorem reordered_softens (h : p ≤ q) (text : String) :
    (Note.mk (p.fieldOrder = .keyed) text).Softens ⟨q.fieldOrder = .keyed, text⟩ :=
  ⟨rfl, by simpa using h.1⟩

theorem addition_softens (h : p ≤ q) (text : String) :
    (Note.mk (p.interfaceAdditions = .consumed) text).Softens
      ⟨q.interfaceAdditions = .consumed, text⟩ :=
  ⟨rfl, by simpa using h.2⟩

/-- The policy changes one note about a struct, the one about the order of its fields. -/
theorem structNotes_softens (h : p ≤ q) (old new : List (Field Ty)) :
    List.Forall₂ Note.Softens (structNotes p old new) (structNotes q old new) := by
  unfold structNotes
  refine List.rel_append (softens_refl _) ?_
  -- the policy is asked about the order of fields only
  split
  · exact .nil
  · exact .cons (reordered_softens h _) .nil

/-- The policy changes the notes about added members and no others. -/
theorem interfaceNotes_softens (h : p ≤ q) (old new : Interface Ty) :
    List.Forall₂ Note.Softens (interfaceNotes p old new) (interfaceNotes q old new) := by
  unfold interfaceNotes
  refine List.rel_append (List.rel_append (List.rel_append (softens_refl _) ?_) (softens_refl _)) ?_
  · refine forall₂_filterMap fun m _ => ?_
    cases old.method? m.name with
    | none => exact .some (addition_softens h _)
    | some n => exact .none
  · rw [List.forall₂_map_left_iff, List.forall₂_map_right_iff, List.forall₂_same]
    exact fun t _ => addition_softens h _

/-- Two policies find the same, and the more lenient one lets pass what the other one does. -/
theorem notes_softens (h : p ≤ q) (old new : Ty) :
    List.Forall₂ Note.Softens (old.notes p new) (old.notes q new) := by
  fun_induction Ty.notes p old new with
  | case1 old new hid =>
    unfold Ty.notes
    rw [if_pos hid]
    exact .nil
  | case2 n bs a u n' bs' a' u' hid ih =>
    rw [Ty.notes, if_neg hid]
    exact List.rel_append (softens_refl _) ih
  | case3 fs gs hid =>
    rw [Ty.notes, if_neg hid]
    exact structNotes_softens h fs gs
  | case4 a b hid =>
    rw [Ty.notes, if_neg hid]
    exact interfaceNotes_softens h a b
  | case5 g g' hid =>
    rw [Ty.notes, if_neg hid]
    exact softens_refl _
  | case6 | case7 | case8 | case9 | case10 =>
    -- a change of kind is found without asking the policy
    simp only [Ty.notes, *]
    exact softens_refl _

/-! ## Verdicts -/

/-- The same verdict for the same reason, or a breaking one that has become compatible. -/
inductive Delta.Softens : Delta → Delta → Prop
  | same (d : Delta) : Softens d d
  | lifted (reason : String) : Softens (.incompatible reason) (.compatible reason)

/-- What is reported does not depend on the policy, only how it is judged. -/
theorem texts_eq_of_softens {notes notes' : List Note} (h : List.Forall₂ Note.Softens notes notes') :
    notes.map (·.text) = notes'.map (·.text) := by
  induction h with
  | nil => rfl
  | cons hn _ ih => rw [List.map_cons, List.map_cons, hn.text, ih]

/-- A verdict over softer notes is softer: it can turn from incompatible to compatible, never back.
-/
theorem ofNotes_softens {notes notes' : List Note} (h : List.Forall₂ Note.Softens notes notes') :
    (Delta.ofNotes notes).Softens (.ofNotes notes') := by
  have htexts := texts_eq_of_softens h
  have hcompatible : notes.all (·.compatible) = true → notes'.all (·.compatible) = true :=
    all_of_forall₂ h fun n m hnm => hnm.compatible
  cases h with
  | nil => exact .same _
  | @cons n n' ns ns' hn hns =>
    simp only [Delta.ofNotes, htexts]
    by_cases hall : (n :: ns).all (·.compatible) = true
    · rw [if_pos hall, if_pos (hcompatible hall)]
      exact .same _
    · rw [if_neg hall]
      split
      · exact .lifted _
      · exact .same _

/-! ## Records -/

/-- The same record, where a breaking one may have become compatible. -/
structure Change.Softens (c d : Change) : Prop where
  symbol : c.symbol = d.symbol
  kind : c.kind = d.kind
  message : c.message = d.message
  compatible : c.compatible = true → d.compatible = true

theorem Change.Softens.refl (c : Change) : c.Softens c := ⟨rfl, rfl, rfl, id⟩

/-- The same package with the same records. -/
structure PackageChanges.Softens (a b : PackageChanges) : Prop where
  package : a.package = b.package
  changes : List.Forall₂ Change.Softens a.changes b.changes

theorem PackageChanges.Softens.refl (a : PackageChanges) : a.Softens a :=
  ⟨rfl, List.forall₂_same.2 fun c _ => .refl c⟩

theorem changeOf_softens (h : p ≤ q) (name : String) (old new : Symbol) :
    Option.Rel Change.Softens (changeOf p name old new) (changeOf q name old new) := by
  have hdelta := ofNotes_softens (notes_softens h old.type new.type)
  have hsame : ∀ o : Option Change, Option.Rel Change.Softens o o := by
    intro o
    cases o with
    | none => exact .none
    | some c => exact .some (.refl c)
  unfold changeOf
  split
  · cases old.kind
    case const | var => exact hsame _
    all_goals
      unfold Ty.delta
      generalize Delta.ofNotes (old.type.notes p new.type) = d at hdelta
      generalize Delta.ofNotes (old.type.notes q new.type) = d' at hdelta
      cases hdelta with
      | same => exact hsame _
      | lifted reason => exact .some ⟨rfl, rfl, rfl, fun hc => Bool.noConfusion hc⟩
  · exact hsame _

theorem classify_softens (h : p ≤ q) (old new : SymbolTable) :
    List.Forall₂ Change.Softens (classify p old new) (classify q old new) := by
  refine forall₂_filterMap fun name _ => ?_
  cases old.get? name with
  | none =>
    cases new.get? name with
    | none => exact .none
    | some s => exact .some (.refl _)
  | some s =>
    cases new.get? name with
    | none => exact .some (.refl _)
    | some s' => exact changeOf_softens h name s s'

/-! ## Reports -/

/-- A package that is on one side only is reported without asking the policy. -/
theorem classifyPackage_softens (h : p ≤ q) (package : String) (old? new? : Option SymbolTable) :
    Option.Rel PackageChanges.Softens (classifyPackage p package old? new?)
      (classifyPackage q package old? new?) := by
  cases old? with
  | none =>
    cases new? with
    | none => exact .none
    | some new => exact .some (.refl _)
  | some old =>
    cases new? with
    | none => exact .some (.refl _)
    | some new => exact .some ⟨rfl, classify_softens h old new⟩

/-- A package without records is left out under both policies. -/
theorem filter_softens {a? b? : Option PackageChanges} (h : Option.Rel PackageChanges.Softens a? b?) :
    Option.Rel PackageChanges.Softens (a?.filter (!·.changes.isEmpty))
      (b?.filter (!·.changes.isEmpty)) := by
  cases h with
  | none => exact .none
  | @some a b hab =>
    have hempty : a.changes.isEmpty = b.changes.isEmpty := by
      rw [Bool.eq_iff_iff, List.isEmpty_iff_length_eq_zero, List.isEmpty_iff_length_eq_zero,
        hab.changes.length_eq]
    rw [Option.filter_some, Option.filter_some, hempty]
    split
    · exact .some hab
    · exact .none

/-- The same outcome, where records may have become compatible. -/
structure PackageOutcome.Softens (a b : PackageOutcome) : Prop where
  changes : Option.Rel PackageChanges.Softens a.changes? b.changes?
  warnings : a.warnings = b.warnings
  failure : a.failure? = b.failure?

theorem comparePackage_softens (h : p ≤ q) (old new : Snapshot) (package : String) :
    (comparePackage p old new package).Softens (comparePackage q old new package) := by
  unfold comparePackage
  -- both policies see the same two tables
  split
  · exact ⟨.none, rfl, rfl⟩
  · split
    · exact ⟨.none, rfl, rfl⟩
    · exact ⟨filter_softens (classifyPackage_softens h package _ _), rfl, rfl⟩

/-- The same report, where records may have become compatible. -/
structure Report.Softens (r s : Report) : Prop where
  oldLabel : r.oldLabel = s.oldLabel
  newLabel : r.newLabel = s.newLabel
  packages : List.Forall₂ PackageChanges.Softens r.packages s.packages
  warnings : r.warnings = s.warnings
  failures : r.failures = s.failures

/-- Packages are compared one by one, each of them more softly. -/
theorem compare_softens (h : p ≤ q) (old new : Snapshot) (packages : List String) :
    (compare p old new packages).Softens (compare q old new packages) := by
  have houtcome := comparePackage_softens h old new
  refine ⟨rfl, rfl, ?_, ?_, ?_⟩
  · simp only [compare, List.filterMap_map]
    exact forall₂_filterMap fun package _ => (houtcome package).changes
  · simp only [compare, List.flatMap_map]
    exact List.flatMap_congr fun package _ => (houtcome package).warnings
  · simp only [compare, List.filterMap_map]
    exact List.filterMap_congr fun package _ => (houtcome package).failure

theorem Report.Softens.changes {r s : Report} (h : r.Softens s) :
    List.Forall₂ Change.Softens r.changes s.changes :=
  List.rel_flatMap h.packages fun _ _ hab => hab.changes

/-- A report that breaks callers does so under every stricter policy. -/
theorem Report.Softens.hasBreaking {r s : Report} (h : r.Softens s) (hs : s.hasBreaking = true) :
    r.hasBreaking = true := by
  by_contra hr
  have hall : ∀ t : Report, t.hasBreaking = !t.changes.all (·.compatible) := by
    intro t
    rw [Report.hasBreaking, List.not_all_eq_any_not]
  rw [hall, Bool.not_eq_true, Bool.not_eq_false'] at hr
  rw [hall, all_of_forall₂ h.changes (fun _ _ hcd => hcd.compatible) hr] at hs
  exact Bool.noConfusion hs

theorem Report.exitCode_eq_one_iff (r : Report) : r.exitCode = 1 ↔ r.hasBreaking = true := by
  unfold Report.exitCode
  split
  · simp [*]
  · split <;> simp [*]

/-- The policy decides nothing but verdicts, and a more lenient one decides for compatible where the
other one does: there is a report under both policies or under neither, the reports have the same packages,
records, warnings and failures, and one that ends with code 1 does so under the stricter policy as well. -/
theorem policy_only_softens (p q : Policy) (h : p ≤ q) (old new : Snapshot) (packages : List String) :
    Option.Rel (fun r s => r.Softens s ∧ (s.exitCode = 1 → r.exitCode = 1))
      (compare? p old new packages) (compare? q old new packages) := by
  unfold compare?
  split
  · have hsoft := compare_softens h old new packages
    refine .some ⟨hsoft, fun hcode => ?_⟩
    rw [Report.exitCode_eq_one_iff] at hcode ⊢
    exact hsoft.hasBreaking hcode
  · exact .none

/-- A struct and a function. -/
def pairRelease : Snapshot :=
  .ofFiles "v1" {} [("./p", ⟨"p.go", "package p\ntype S struct \x7b X, Y int \x7d\nfunc F()\n"⟩)]

/-- The struct has its fields in another order, and the function is gone. -/
def reorderedRelease : Snapshot :=
  .ofFiles "v2" {} [("./p", ⟨"p.go", "package p\ntype S struct \x7b Y, X int \x7d\n"⟩)]

/-- Both findings break positional callers, and the default policy lets the first one pass. -/
theorem policy_only_softens_reordered :
    (⟨.positional, .implemented⟩ : Policy) ≤ {} ∧ ∃ r s : Report,
      compare? ⟨.positional, .implemented⟩ pairRelease reorderedRelease ["./p"] = some r ∧
      compare? {} pairRelease reorderedRelease ["./p"] = some s ∧
      r.Softens s ∧ r.exitCode = 1 ∧ r.breakingCount = 2 ∧ s.breakingCount = 1 := by
  have hle : (⟨.positional, .implemented⟩ : Policy) ≤ {} := ⟨fun _ => rfl, fun _ => rfl⟩
  have hstrict : (compare? ⟨.positional, .implemented⟩ pairRelease reorderedRelease ["./p"]).map
      (·.breakingCount) = some 2 := by decide +kernel
  have hlenient : (compare? {} pairRelease reorderedRelease ["./p"]).map
      (fun s => (s.breakingCount, s.exitCode)) = some (1, 1) := by decide +kernel
  obtain ⟨r, hr, htwo⟩ := Option.map_eq_some_iff.1 hstrict
  obtain ⟨s, hs, hone⟩ := Option.map_eq_some_iff.1 hlenient
  obtain ⟨hone, hcode⟩ := Prod.mk.inj hone
  have hboth := policy_only_softens _ _ hle pairRelease reorderedRelease ["./p"]
  rw [hr, hs] at hboth
  cases hboth with
  | some hsoft => exact ⟨hle, r, s, hr, hs, hsoft.1, hsoft.2 hcode, htwo, hone⟩

end GoApi
