import GoApi.Proofs.Independence

/-!
# Every load is accounted for

A report names a package among its failures if a symbol is declared twice on either side, and warns of each
side whose sources cannot be used, the old side first, unless a duplicate has stopped the comparison before
the new side was loaded.  Each entry is there once, and nothing that went wrong is passed over
(`loads_accounted`).
-/

namespace GoApi

open Surface

/-- What a report has to say of a package, given what its two sides load to. -/
structure Accounted (policy : Policy) (old new : Snapshot) (r : Report) (package : String) : Prop where
  /-- It has failed, once, if a symbol is declared twice on either side. -/
  failure : (r.failures.map (·.package)).count package =
    if old.isDuplicated package || new.isDuplicated package then 1 else 0
  /-- There is one warning of the old side if its sources cannot be used. -/
  oldWarning : (r.warnings.map fun w => (w.package, w.side)).count (package, .old) =
    if old.isUnusable package then 1 else 0
  /-- There is one warning of the new side if its sources cannot be used, and were asked for. -/
  newWarning : (r.warnings.map fun w => (w.package, w.side)).count (package, .new) =
    if new.isUnusable package && !old.isDuplicated package then 1 else 0
  /-- Of two warnings the one of the old side comes first. -/
  order : old.isUnusable package = true → new.isUnusable package = true →
    [(package, Side.old), (package, Side.new)].Sublist (r.warnings.map fun w => (w.package, w.side))
  /-- It has one entry of changes, with at least one record, if it has not failed and its tables differ. -/
  changes : r.packages.filter (·.package == package) =
    if old.isDuplicated package || new.isDuplicated package then []
    else ((classifyPackage policy package (old.comparedTable package)
      (new.comparedTable package)).filter (!·.changes.isEmpty)).toList
  /-- Nothing that went wrong is passed over. -/
  complete : (old.isUnusable package || old.isDuplicated package || new.isUnusable package ||
      new.isDuplicated package) = true →
    package ∈ r.warnings.map (·.package) ∨ package ∈ r.failures.map (·.package)

/-- The warnings of one side of a package are among those of the package. -/
theorem count_warnings (package : String) (side : Side) (warnings : List Warning) :
    (warnings.map fun w => (w.package, w.side)).count (package, side) =
      ((warnings.filter (·.package == package)).map fun w => (w.package, w.side)).count (package, side) := by
  rw [List.count_eq_countP, List.countP_map, List.count_eq_countP, List.countP_map, List.countP_filter]
  refine List.countP_congr fun w _ => ?_
  simp only [Function.comp_apply, beq_iff_eq, Prod.mk.injEq, Bool.and_eq_true]
  exact ⟨fun h => ⟨h, h.1⟩, fun h => h.1⟩

theorem Snapshot.not_isUnusable_of_isDuplicated {s : Snapshot} {package : String}
    (h : s.isDuplicated package = true) : s.isUnusable package = false := by
  unfold Snapshot.isDuplicated at h
  unfold Snapshot.isUnusable
  split
  · next heq =>
    rw [heq] at h
    cases h
  · rfl

/-! ## One package -/

section

variable (policy : Policy) (old new : Snapshot) (package : String)

theorem comparePackage_warnings :
    (comparePackage policy old new package).warnings.map (fun w => (w.package, w.side)) =
      (if old.isUnusable package then [(package, Side.old)] else []) ++
        if new.isUnusable package && !old.isDuplicated package then [(package, Side.new)] else [] := by
  rcases comparePackage_cases policy old new package with
    ⟨_, hold, hout⟩ | ⟨_, hold, hnew, hout⟩ | ⟨hold, hnew, hout⟩
  · simp [hout, hold, Snapshot.not_isUnusable_of_isDuplicated hold]
  · simp [hout, Snapshot.loadWarnings_eq, Snapshot.not_isUnusable_of_isDuplicated hnew]
  · simp [hout, hold, Snapshot.loadWarnings_eq]

theorem comparePackage_failure :
    (comparePackage policy old new package).failure?.toList.length =
      if old.isDuplicated package || new.isDuplicated package then 1 else 0 := by
  rcases comparePackage_cases policy old new package with
    ⟨_, hold, hout⟩ | ⟨_, hold, hnew, hout⟩ | ⟨hold, hnew, hout⟩
  · simp [hout, hold]
  · simp [hout, hnew]
  · simp [hout, hold, hnew]

theorem comparePackage_changes :
    (comparePackage policy old new package).changes?.toList =
      if old.isDuplicated package || new.isDuplicated package then []
      else ((classifyPackage policy package (old.comparedTable package)
        (new.comparedTable package)).filter (!·.changes.isEmpty)).toList := by
  rcases comparePackage_cases policy old new package with
    ⟨_, hold, hout⟩ | ⟨_, hold, hnew, hout⟩ | ⟨hold, hnew, hout⟩
  · simp [hout, hold]
  · simp [hout, hnew]
  · simp [hout, hold, hnew]

end

/-! ## All packages -/

theorem compare_accounted (policy : Policy) (old new : Snapshot) {packages : List String} {package : String}
    (h : package ∈ packages) :
    Accounted policy old new (compare policy old new packages) package := by
  have hpart := compare_part policy old new h
  have hsingle : ascending [package] = [package] := rfl
  rw [compare_eq policy old new [package], hsingle] at hpart
  simp only [List.flatMap_singleton] at hpart
  set r := compare policy old new packages
  -- the entries of the report that are about the package
  have hpackages : r.packages.filter (·.package == package) =
      (comparePackage policy old new package).changes?.toList := congrArg Report.packages hpart
  have hwarnings : r.warnings.filter (·.package == package) =
      (comparePackage policy old new package).warnings := congrArg Report.warnings hpart
  have hfailures : r.failures.filter (·.package == package) =
      (comparePackage policy old new package).failure?.toList := congrArg Report.failures hpart
  have hfailure : (r.failures.map (·.package)).count package =
      if old.isDuplicated package || new.isDuplicated package then 1 else 0 := by
    rw [count_map_key, hfailures, comparePackage_failure]
  have hsub : ((if old.isUnusable package then [(package, Side.old)] else []) ++
      if new.isUnusable package && !old.isDuplicated package then [(package, Side.new)] else []).Sublist
      (r.warnings.map fun w => (w.package, w.side)) := by
    rw [← comparePackage_warnings policy, ← hwarnings]
    exact List.filter_sublist.map _
  refine ⟨hfailure, ?_, ?_, ?_, ?_, ?_⟩
  · rw [count_warnings, hwarnings, comparePackage_warnings]
    cases old.isUnusable package <;> cases new.isUnusable package && !old.isDuplicated package <;>
      simp
  · rw [count_warnings, hwarnings, comparePackage_warnings]
    cases old.isUnusable package <;> cases new.isUnusable package && !old.isDuplicated package <;>
      simp
  · intro hold hnew
    have hdup : old.isDuplicated package = false := by
      by_contra hdup
      rw [Bool.not_eq_false] at hdup
      rw [Snapshot.not_isUnusable_of_isDuplicated hdup] at hold
      cases hold
    simpa [hold, hnew, hdup] using hsub
  · rw [hpackages, comparePackage_changes]
  · intro hwrong
    by_cases hdup : (old.isDuplicated package || new.isDuplicated package) = true
    · right
      rw [← List.count_pos_iff, hfailure, if_pos hdup]
      exact Nat.one_pos
    · left
      rw [Bool.not_eq_true, Bool.or_eq_false_iff] at hdup
      have hmem : ∀ side, (package, side) ∈ r.warnings.map (fun w => (w.package, w.side)) →
          package ∈ r.warnings.map (·.package) := by
        intro side hside
        obtain ⟨w, hw, heq⟩ := List.mem_map.1 hside
        exact List.mem_map.2 ⟨w, hw, congrArg Prod.fst heq⟩
      cases hold : old.isUnusable package with
      | true => exact hmem .old (hsub.subset (by simp [hold]))
      | false => exact hmem .new (hsub.subset (by simp_all))

/-- There is a report exactly if the loads of each package come to an end.  Then it accounts for every load:
a failure for a duplicate, a warning for each side that cannot be used, changes for tables that differ, each
of them once; and no failed package has changes. -/
theorem loads_accounted (policy : Policy) (old new : Snapshot) (packages : List String) :
    ((compare? policy old new packages).isSome ↔ ∀ p ∈ packages, comparisonEnds old new p = true) ∧
    ∀ r, compare? policy old new packages = some r → ∀ p ∈ packages,
      Accounted policy old new r p ∧
        (p ∈ r.failures.map (·.package) → p ∉ r.packages.map (·.package)) := by
  refine ⟨compare?_isSome_iff policy old new packages, fun r hr p hp => ?_⟩
  obtain ⟨_, rfl⟩ := (compare?_eq_some_iff _ _ _ _).1 hr
  have haccounted := compare_accounted policy old new hp
  refine ⟨haccounted, fun hfailed hchanged => ?_⟩
  have hdup : (old.isDuplicated p || new.isDuplicated p) = true := by
    by_contra hdup
    have hcount := haccounted.failure
    rw [if_neg hdup, List.count_eq_zero] at hcount
    exact hcount hfailed
  have hnone := haccounted.changes
  rw [if_pos hdup, List.filter_eq_nil_iff] at hnone
  obtain ⟨changes, hmem, hpackage⟩ := List.mem_map.1 hchanged
  exact hnone changes hmem (beq_iff_eq.2 hpackage)

/-- A package that cannot be read, and two more with the given sources. -/
def partlyReadable (label b c : String) : Snapshot where
  label
  packages := .ok ["./a", "./b", "./c"]
  files := fun package =>
    if package = "./b" then .ok [⟨"b.go", "package b\n" ++ b⟩]
    else if package = "./c" then .ok [⟨"c.go", "package c\n" ++ c⟩]
    else .error (.unavailable "object missing")

def partlyOld : Snapshot := partlyReadable "v1" "func F()\n" "func G()\n"

def partlyNew : Snapshot := partlyReadable "v2" "func F()\nfunc F()\n" "func G()\nfunc H()\n"

/-- The report on a package that cannot be read, one with a duplicate on the new side and one with a new
function. -/
def partlyReport : Report where
  oldLabel := "v1"
  newLabel := "v2"
  packages := [⟨"./c", [.added "H"]⟩]
  warnings :=
    [⟨"./a", .old, "Package unavailable: object missing"⟩, ⟨"./a", .new, "Package unavailable: object missing"⟩]
  failures := [⟨"./b", "Duplicate symbol F in package ./b"⟩]

/-- Two warnings for the first package, a failure for the second and an entry of changes for the third. -/
theorem loads_accounted_partly :
    compare? {} partlyOld partlyNew ["./c", "./b", "./a"] = some partlyReport ∧
    (∀ p ∈ ["./c", "./b", "./a"], Accounted {} partlyOld partlyNew partlyReport p) ∧
    partlyReport.packages.filter (·.package == "./c") = [⟨"./c", [.added "H"]⟩] ∧
    "./b" ∈ partlyReport.failures.map (·.package) ∧ "./b" ∉ partlyReport.packages.map (·.package) := by
  have hreport : compare? {} partlyOld partlyNew ["./c", "./b", "./a"] = some partlyReport := by decide +kernel
  obtain ⟨-, haccounted⟩ := loads_accounted {} partlyOld partlyNew ["./c", "./b", "./a"]
  have hmem : "./b" ∈ partlyReport.failures.map (·.package) := by decide
  exact ⟨hreport, fun p hp => (haccounted partlyReport hreport p hp).1, by decide, hmem,
    (haccounted partlyReport hreport "./b" (by simp)).2 hmem⟩

end GoApi
