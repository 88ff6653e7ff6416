import GoApi.Proofs.Compare
import GoApi.Proofs.Surface.Ending

/-!
# Packages do not interfere

Each package is compared by itself.  A report is made of the reports on its packages one by one, in
ascending order of their paths, and what it says of a package does not depend on the files of any other:

    compare? policy old new packages =
      ((ascending packages).mapM fun p => compare? policy old new [p]).map (.concat old.label new.label)

One thing is not kept apart.  A package whose loading has no end takes the reports on all others with it, also
if the package is the same on both sides (`endless_package_ends_comparison`).  Apart from that, packages
that are the same on both sides may be left out or added at will (`comparisons_independent_iff`).
-/

namespace GoApi

open Surface

/-- Reports one after the other. -/
def Report.concat (oldLabel newLabel : String) (parts : List Report) : Report where
  oldLabel
  newLabel
  packages := parts.flatMap (·.packages)
  warnings := parts.flatMap (·.warnings)
  failures := parts.flatMap (·.failures)

/-- A package with the same sources for the same platform on both sides, or one that neither side has. -/
def Unaltered (old new : Snapshot) (package : String) : Prop :=
  (old.files package = new.files package ∧ old.target = new.target) ∨
    (old.files package = .ok [] ∧ new.files package = .ok [])

/-! ## One package -/

theorem comparePackage_unaltered (policy : Policy) {old new : Snapshot} {package : String}
    (h : Unaltered old new package) : (comparePackage policy old new package).changes? = none := by
  rcases h with ⟨hfiles, htarget⟩ | ⟨hold, hnew⟩
  · exact comparePackage_same policy htarget hfiles
  · have hnone : ∀ s : Snapshot, s.files package = .ok [] → s.table package = .ok none := by
      intro s hs
      unfold Snapshot.table
      rw [hs]
    unfold comparePackage loadSide
    rw [hnone old hold, hnone new hnew]
    rfl

theorem comparePackage_congr (policy : Policy) {old old' new new' : Snapshot} {package : String}
    (hold : old'.table package = old.table package) (hnew : new'.table package = new.table package) :
    comparePackage policy old' new' package = comparePackage policy old new package := by
  unfold comparePackage loadSide
  rw [hold, hnew]

theorem comparisonEnds_congr {old old' new new' : Snapshot} {package : String}
    (hold : old'.table package = old.table package) (hnew : new'.table package = new.table package) :
    comparisonEnds old' new' package = comparisonEnds old new package := by
  unfold comparisonEnds loadSide Snapshot.isEndless
  rw [hold, hnew]

/-! ## All packages -/

section

variable (policy : Policy) (old new : Snapshot) (packages : List String)

theorem concat_compare :
    Report.concat old.label new.label ((ascending packages).map fun p => compare policy old new [p]) =
      compare policy old new packages := by
  have hsingle : ∀ p : String, ascending [p] = [p] := fun _ => rfl
  simp only [Report.concat, List.flatMap_map, compare_eq, hsingle, List.flatMap_singleton]

theorem compare?_eq_concat :
    compare? policy old new packages =
      ((ascending packages).mapM fun p => compare? policy old new [p]).map
        (Report.concat old.label new.label) := by
  have hall : (ascending packages).all (comparisonEnds old new) = packages.all (comparisonEnds old new) := by
    rw [Bool.eq_iff_iff, List.all_eq_true, List.all_eq_true]
    simp only [mem_ascending]
  simp only [compare?_singleton, mapM_guard, hall]
  unfold compare?
  split
  · rw [Option.map_some, concat_compare]
  · rfl

end

/-- There is a report exactly if comparing each package comes to an end.  Then it has the reports on its
packages in ascending order; what it says of a package stays the same whatever becomes of the files of
others; and packages that are the same on both sides, or on neither, add nothing to its changes. -/
theorem comparisons_independent_iff (policy : Policy) (old new : Snapshot) (packages : List String) :
    ((compare? policy old new packages).isSome ↔ ∀ p ∈ packages, comparisonEnds old new p = true) ∧
    compare? policy old new packages =
      ((ascending packages).mapM fun p => compare? policy old new [p]).map
        (Report.concat old.label new.label) ∧
    (ascending packages).Pairwise (· < ·) ∧ (∀ p, p ∈ ascending packages ↔ p ∈ packages) ∧
    (∀ p ∈ packages, ∀ oldFiles newFiles, oldFiles p = old.files p → newFiles p = new.files p →
      compare? policy { old with files := oldFiles } { new with files := newFiles } [p] =
        compare? policy old new [p] ∧
      ∀ r r', compare? policy old new packages = some r →
        compare? policy { old with files := oldFiles } { new with files := newFiles } packages = some r' →
        r'.part p = r.part p) ∧
    (∀ p, Unaltered old new p → ∀ r, compare? policy old new [p] = some r → r.packages = []) ∧
    (∀ more, packages ⊆ more → (∀ p ∈ more, p ∉ packages → Unaltered old new p) →
      ∀ r, compare? policy old new packages = some r →
        ((∃ r', compare? policy old new more = some r' ∧ r'.packages = r.packages) ↔
          ∀ p ∈ more, comparisonEnds old new p = true)) := by
  refine ⟨compare?_isSome_iff policy old new packages, compare?_eq_concat policy old new packages,
    pairwise_ascending packages, fun p => mem_ascending, ?_, ?_, ?_⟩
  · intro p hp oldFiles newFiles hold hnew
    have holdTable : { old with files := oldFiles }.table p = old.table p := table_congr rfl hold
    have hnewTable : { new with files := newFiles }.table p = new.table p := table_congr rfl hnew
    have hsame := comparePackage_congr policy holdTable hnewTable
    have hends := comparisonEnds_congr holdTable hnewTable
    have hsingle : compare policy { old with files := oldFiles } { new with files := newFiles } [p] =
        compare policy old new [p] := by
      have hp' : ascending [p] = [p] := rfl
      simp only [compare_eq, hp', List.flatMap_singleton, hsame]
    refine ⟨?_, fun r r' hr hr' => ?_⟩
    · rw [compare?_singleton, compare?_singleton, hends, hsingle]
    · obtain ⟨_, rfl⟩ := (compare?_eq_some_iff _ _ _ _).1 hr
      obtain ⟨_, rfl⟩ := (compare?_eq_some_iff _ _ _ _).1 hr'
      rw [compare_part _ _ _ hp, compare_part _ _ _ hp, hsingle]
  · intro p hp r hr
    obtain ⟨_, rfl⟩ := (compare?_eq_some_iff _ _ _ _).1 hr
    have hp' : ascending [p] = [p] := rfl
    simp only [compare_eq, hp', List.flatMap_singleton, comparePackage_unaltered policy hp, Option.toList_none]
  · intro more hsub hmore r hr
    obtain ⟨_, rfl⟩ := (compare?_eq_some_iff _ _ _ _).1 hr
    have hpackages : (compare policy old new more).packages = (compare policy old new packages).packages := by
      simp only [compare, List.filterMap_map]
      refine (filterMap_ascending_eq hsub fun p hp hnew => ?_).symm
      exact comparePackage_unaltered policy (hmore p hp hnew)
    constructor
    · rintro ⟨r', hr', _⟩
      exact ((compare?_eq_some_iff _ _ _ _).1 hr').1
    · intro hends
      exact ⟨_, (compare?_eq_some_iff _ _ _ _).2 ⟨hends, rfl⟩, hpackages⟩

/-- A function in one package, and another package with the given source. -/
def withFunction (source : String) : Snapshot :=
  .ofFiles "v1" {} [("./p", ⟨"p.go", "package p\nfunc F()\n"⟩), ("./q", ⟨"q.go", source⟩)]

/-- The function is gone, and the other package is as it was. -/
def withoutFunction (source : String) : Snapshot :=
  .ofFiles "v2" {} [("./p", ⟨"p.go", "package p\n"⟩), ("./q", ⟨"q.go", source⟩)]

theorem unaltered_withFunction (source : String) :
    Unaltered (withFunction source) (withoutFunction source) "./q" :=
  Or.inl ⟨rfl, rfl⟩

/-- The package that is the same may be added, and nothing changes; nor does it matter for the other one
if it cannot be read. -/
theorem comparisons_independent_removed :
    Unaltered (withFunction "package q\n") (withoutFunction "package q\n") "./q" ∧
    (compare? {} (withFunction "package q\n") (withoutFunction "package q\n") ["./p"]).map (·.packages) =
      some [⟨"./p", [.removed "F"]⟩] ∧
    (compare? {} (withFunction "package q\n") (withoutFunction "package q\n")
      ["./q", "./p"]).map (·.packages) = some [⟨"./p", [.removed "F"]⟩] ∧
    compare? {} (withFunction "package q\n")
        { withoutFunction "package q\n" with
          files := fun package =>
            if package = "./p" then (withoutFunction "package q\n").files package
            else .error (.unavailable "gone") } ["./p"] =
      compare? {} (withFunction "package q\n") (withoutFunction "package q\n") ["./p"] := by
  have hq := unaltered_withFunction "package q\n"
  have hp : (compare? {} (withFunction "package q\n") (withoutFunction "package q\n")
      ["./p"]).map (·.packages) = some [⟨"./p", [.removed "F"]⟩] := by decide +kernel
  obtain ⟨r, hr, hpackages⟩ := Option.map_eq_some_iff.1 hp
  obtain ⟨_, _, _, _, hkept, _, hmore⟩ := comparisons_independent_iff {} (withFunction "package q\n")
    (withoutFunction "package q\n") ["./p"]
  have hadded : ∀ p ∈ ["./q", "./p"], p ∉ ["./p"] →
      Unaltered (withFunction "package q\n") (withoutFunction "package q\n") p := by
    intro p hmem hnew
    rcases List.mem_cons.1 hmem with rfl | hmem
    · exact hq
    · exact absurd hmem hnew
  obtain ⟨r', hr', hsame⟩ := (hmore ["./q", "./p"] (by simp) hadded r hr).2 (by decide +kernel)
  refine ⟨hq, hp, ?_, (hkept "./p" (by simp) _ _ rfl (by simp)).1⟩
  rw [hr', Option.map_some, hsame, hpackages]

/-- A package that is the same on both sides, but has no end, leaves nothing of the report. -/
theorem endless_package_ends_comparison :
    Unaltered (withFunction selfTaking) (withoutFunction selfTaking) "./q" ∧
    (compare? {} (withFunction selfTaking) (withoutFunction selfTaking) ["./p"]).map (·.packages) =
      some [⟨"./p", [.removed "F"]⟩] ∧
    compare? {} (withFunction selfTaking) (withoutFunction selfTaking) ["./p", "./q"] = none :=
  ⟨unaltered_withFunction selfTaking, by decide +kernel, by decide +kernel⟩

end GoApi
