import GoApi.Compare
import GoApi.Proofs.Classify
import GoApi.Proofs.Lists

/-!
# Comparing one package at a time

A package can end in three ways, told by what its two sides load to (`comparePackage_cases`):

    old side has a duplicate        failure
    new side has a duplicate        failure, with a warning if the old side cannot be used
    neither                         changes, if any, with a warning for each side that cannot be used

A report has the outcomes of its packages one after the other, so it says of each package what the
comparison of that package says (`compare_part`).  There is one exactly if comparing each package comes to an
end (`compare?_isSome_iff`).
-/

namespace GoApi

open Surface

/-! ## What a side loads to -/

namespace Snapshot

variable (s : Snapshot) (package : String)

/-- The sources of a package cannot be used. -/
def isUnusable : Bool :=
  match s.table package with
  | .error (.load _) => true
  | _ => false

/-- A symbol of a package is declared twice. -/
def isDuplicated : Bool :=
  match s.table package with
  | .error (.table _) => true
  | _ => false

/-- The table that a package is compared by: sources that cannot be used count as absent. -/
def comparedTable : Option SymbolTable :=
  match s.table package with
  | .ok table? => table?
  | .error _ => none

/-- The warning about sources that cannot be used. -/
def loadWarnings (side : Side) : List Warning :=
  match s.table package with
  | .error (.load cause) => [⟨package, side, cause.message⟩]
  | _ => []

/-- Loading one side stops at a name declared twice, and otherwise gives a table with its warnings.
-/
theorem loadSide_cases (side : Side) :
    (∃ duplicate, s.table package = .error (.table duplicate) ∧
      s.isDuplicated package = true ∧ loadSide s side package = .error duplicate) ∨
    (s.isDuplicated package = false ∧
      loadSide s side package = .ok (s.comparedTable package, s.loadWarnings package side)) := by
  unfold loadSide isDuplicated comparedTable loadWarnings
  cases s.table package with
  | ok table? => exact Or.inr ⟨rfl, rfl⟩
  | error cause =>
    cases cause with
    | load cause => exact Or.inr ⟨rfl, rfl⟩
    | table duplicate => exact Or.inl ⟨duplicate, rfl, rfl, rfl⟩

theorem loadWarnings_eq (side : Side) :
    (s.loadWarnings package side).map (fun w => (w.package, w.side)) =
      if s.isUnusable package then [(package, side)] else [] := by
  unfold loadWarnings isUnusable
  cases s.table package with
  | ok table? => rfl
  | error cause => cases cause <;> rfl

end Snapshot

/-- Everything that comparing a package can come to. -/
theorem comparePackage_cases (policy : Policy) (old new : Snapshot) (package : String) :
    (∃ duplicate, old.isDuplicated package = true ∧
      comparePackage policy old new package =
        { failure? := some ⟨package, SymbolTable.Duplicate.message duplicate⟩ }) ∨
    (∃ duplicate, old.isDuplicated package = false ∧ new.isDuplicated package = true ∧
      comparePackage policy old new package =
        { warnings := old.loadWarnings package .old
          failure? := some ⟨package, SymbolTable.Duplicate.message duplicate⟩ }) ∨
    (old.isDuplicated package = false ∧ new.isDuplicated package = false ∧
      comparePackage policy old new package =
        { changes? := (classifyPackage policy package (old.comparedTable package)
            (new.comparedTable package)).filter (!·.changes.isEmpty)
          warnings := old.loadWarnings package .old ++ new.loadWarnings package .new }) := by
  unfold comparePackage
  rcases old.loadSide_cases package .old with ⟨duplicate, _, hold, hside⟩ | ⟨hold, hside⟩
  · rw [hside]
    exact Or.inl ⟨duplicate, hold, rfl⟩
  · rcases new.loadSide_cases package .new with ⟨duplicate, _, hnew, hside'⟩ | ⟨hnew, hside'⟩
    · rw [hside, hside']
      exact Or.inr (Or.inl ⟨duplicate, hold, hnew, rfl⟩)
    · rw [hside, hside']
      exact Or.inr (Or.inr ⟨hold, hnew, rfl⟩)

/-- The table of a package depends on its own files and the platform only. -/
theorem table_congr {s t : Snapshot} {package : String} (htarget : s.target = t.target)
    (hfiles : s.files package = t.files package) : s.table package = t.table package := by
  unfold Snapshot.table
  rw [hfiles, htarget]

/-- A package with the same sources on both sides has no change. -/
theorem comparePackage_same (policy : Policy) {old new : Snapshot} {package : String}
    (htarget : old.target = new.target) (hfiles : old.files package = new.files package) :
    (comparePackage policy old new package).changes? = none := by
  unfold comparePackage loadSide
  rw [table_congr htarget hfiles]
  cases new.table package with
  | error cause => cases cause <;> rfl
  | ok table? =>
    cases table? with
    | none => rfl
    | some t =>
      simp only [classifyPackage, classify_self]
      rfl

theorem classifyPackage_package {policy : Policy} {package : String} {old? new? : Option SymbolTable}
    {changes : PackageChanges} (h : classifyPackage policy package old? new? = some changes) :
    changes.package = package := by
  unfold classifyPackage at h
  split at h <;> cases h <;> rfl

theorem comparePackage_package {policy : Policy} {old new : Snapshot} {package : String}
    {changes : PackageChanges} (h : (comparePackage policy old new package).changes? = some changes) :
    changes.package = package := by
  unfold comparePackage at h
  split at h
  · cases h
  · split at h
    · cases h
    · exact classifyPackage_package (Option.filter_eq_some_iff.1 h).1

/-- The report has the changes of the packages asked for and of no others. -/
theorem mem_compare_packages {policy : Policy} {old new : Snapshot} {packages : List String}
    {changes : PackageChanges} :
    changes ∈ (compare policy old new packages).packages ↔
      changes.package ∈ packages ∧
        (comparePackage policy old new changes.package).changes? = some changes := by
  simp only [compare, List.filterMap_map, List.mem_filterMap, mem_ascending, Function.comp_apply]
  constructor
  · rintro ⟨package, hmem, hchanges⟩
    rw [comparePackage_package hchanges]
    exact ⟨hmem, hchanges⟩
  · rintro ⟨hmem, hchanges⟩
    exact ⟨changes.package, hmem, hchanges⟩

theorem mem_warnings_package {policy : Policy} {old new : Snapshot} {package : String} {w : Warning}
    (h : w ∈ (comparePackage policy old new package).warnings) : w.package = package := by
  have hside : ∀ (s : Snapshot) (side : Side), w ∈ s.loadWarnings package side → w.package = package := by
    intro s side hw
    unfold Snapshot.loadWarnings at hw
    split at hw
    · rw [List.mem_singleton.1 hw]
    · cases hw
  rcases comparePackage_cases policy old new package with
    ⟨_, _, hout⟩ | ⟨_, _, _, hout⟩ | ⟨_, _, hout⟩ <;> rw [hout] at h
  · cases h
  · exact hside old .old h
  · rcases List.mem_append.1 h with h | h
    · exact hside old .old h
    · exact hside new .new h

theorem failure?_package {policy : Policy} {old new : Snapshot} {package : String} {f : Failure}
    (h : (comparePackage policy old new package).failure? = some f) : f.package = package := by
  rcases comparePackage_cases policy old new package with
    ⟨_, _, hout⟩ | ⟨_, _, _, hout⟩ | ⟨_, _, hout⟩ <;> rw [hout] at h <;> cases h <;> rfl

/-! ## What a report says of a package -/

/-- The entries of a report that are about one package. -/
def Report.part (r : Report) (package : String) : Report :=
  { r with
    packages := r.packages.filter (·.package == package)
    warnings := r.warnings.filter (·.package == package)
    failures := r.failures.filter (·.package == package) }

theorem nodup_ascending (xs : List String) : (ascending xs).Nodup := by
  refine (pairwise_ascending xs).imp fun {a b} hlt heq => ?_
  rw [heq] at hlt
  exact String.lt_irrefl _ hlt

/-- A report is put together from the comparisons of its packages, sorted and without repetition. -/
theorem compare_eq (policy : Policy) (old new : Snapshot) (packages : List String) :
    compare policy old new packages =
      { oldLabel := old.label
        newLabel := new.label
        packages := (ascending packages).flatMap fun p => (comparePackage policy old new p).changes?.toList
        warnings := (ascending packages).flatMap fun p => (comparePackage policy old new p).warnings
        failures := (ascending packages).flatMap fun p =>
          (comparePackage policy old new p).failure?.toList } := by
  simp only [compare, List.flatMap_map, List.filterMap_eq_flatMap_toList]

/-- A report says of a package what comparing that package alone says. -/
theorem compare_part (policy : Policy) (old new : Snapshot) {packages : List String} {package : String}
    (h : package ∈ packages) :
    (compare policy old new packages).part package = compare policy old new [package] := by
  have hmem : package ∈ ascending packages := mem_ascending.2 h
  have hnodup := nodup_ascending packages
  have hsingle : ascending [package] = [package] := rfl
  rw [compare_eq, compare_eq, hsingle]
  simp only [Report.part, List.flatMap_singleton]
  rw [filter_flatMap_key PackageChanges.package _ hnodup hmem,
    filter_flatMap_key Warning.package _ hnodup hmem,
    filter_flatMap_key Failure.package _ hnodup hmem]
  · intro p f hf
    exact failure?_package (Option.mem_toList.1 hf)
  · intro p w hw
    exact mem_warnings_package hw
  · intro p changes hchanges
    exact comparePackage_package (Option.mem_toList.1 hchanges)

/-! ## When there is a report -/

section

variable (policy : Policy) (old new : Snapshot) (packages : List String)

/-- A comparison gives a report exactly when both sides of each of its packages are read to an end.
-/
theorem compare?_eq_some_iff {r : Report} :
    compare? policy old new packages = some r ↔
      (∀ p ∈ packages, comparisonEnds old new p = true) ∧ compare policy old new packages = r := by
  unfold compare?
  rw [Option.ite_none_right_eq_some, List.all_eq_true, Option.some.injEq]

theorem compare?_isSome_iff :
    (compare? policy old new packages).isSome ↔ ∀ p ∈ packages, comparisonEnds old new p = true := by
  rw [Option.isSome_iff_exists]
  simp only [compare?_eq_some_iff, exists_and_left, exists_eq', and_true]

theorem compare?_singleton (package : String) :
    compare? policy old new [package] =
      if comparisonEnds old new package then some (compare policy old new [package]) else none := by
  unfold compare?
  rw [List.all_cons, List.all_nil, Bool.and_true]

/-- The changes of a package whose comparison comes to an end. -/
theorem compare?_singleton_packages {package : String} (h : comparisonEnds old new package = true) :
    (compare? policy old new [package]).map (·.packages) =
      some (comparePackage policy old new package).changes?.toList := by
  have hsingle : ascending [package] = [package] := rfl
  rw [compare?_singleton, if_pos h, Option.map_some, compare_eq, hsingle]
  simp only [List.flatMap_singleton]

end

end GoApi
