import Mathlib.Algebra.GroupWithZero.Nat
import Mathlib.Tactic.TFAE
import GoApi.Output.Report
import GoApi.Proofs.Compare
import GoApi.Proofs.Leniency

/-!
# The totals of a report

A report is asked in several places whether anything changed and whether anything broke: by its records,
by its counts, by its list of packages, by the rows of its table and by the code that it ends with.
Most of these agree for every report; that an empty list of packages means the same as no records holds
because a comparison lists no package without a record (`changes_ne_nil_of_mem_compare`).

    isEmpty ↔ listsNothing ↔ no counts ↔ "No API changes"          (totals_agree)
    hasBreaking ↔ 0 < breakingCount ↔ exitCode = 1
    exitCode = 0 ↔ nothing breaks and nothing failed
-/

namespace GoApi

/-! ## Packages with records -/

theorem changes_ne_nil_of_comparePackage {policy : Policy} {old new : Snapshot} {package : String}
    {changes : PackageChanges} (h : (comparePackage policy old new package).changes? = some changes) :
    changes.changes ≠ [] := by
  rcases comparePackage_cases policy old new package with
    ⟨_, _, hout⟩ | ⟨_, _, _, hout⟩ | ⟨_, _, hout⟩
  · rw [hout] at h
    cases h
  · rw [hout] at h
    cases h
  · rw [hout] at h
    have hkept := (Option.filter_eq_some_iff.1 h).2
    intro hnil
    rw [hnil] at hkept
    cases hkept

/-- A comparison lists no package without a record. -/
theorem changes_ne_nil_of_mem_compare {policy : Policy} {old new : Snapshot} {packages : List String}
    {changes : PackageChanges} (h : changes ∈ (compare policy old new packages).packages) :
    changes.changes ≠ [] :=
  changes_ne_nil_of_comparePackage (mem_compare_packages.1 h).2

namespace Report

variable (r : Report)

/-! ## Nothing changed -/

theorem isEmpty_iff : r.isEmpty = true ↔ r.changes = [] := by
  unfold isEmpty changes
  rw [List.all_eq_true, List.flatMap_eq_nil_iff]
  simp only [List.isEmpty_iff]

theorem breakingCount_add_compatibleCount :
    r.breakingCount + r.compatibleCount = r.changes.length := by
  have hsplit := List.length_eq_countP_add_countP (fun c : Change => c.compatible) (l := r.changes)
  have hbreaking : r.breakingCount = r.changes.countP fun c => decide ¬ c.compatible = true := by
    unfold breakingCount
    congr 1
    funext c
    cases c.compatible <;> rfl
  have hcompatible : r.compatibleCount = r.changes.countP fun c => c.compatible := rfl
  omega

theorem counts_eq_zero_iff : r.breakingCount + r.compatibleCount = 0 ↔ r.changes = [] := by
  rw [r.breakingCount_add_compatibleCount, List.length_eq_zero_iff]

theorem listsNothing_iff (h : ∀ p ∈ r.packages, p.changes ≠ []) :
    r.listsNothing = true ↔ r.changes = [] := by
  unfold listsNothing changes
  rw [List.isEmpty_iff, List.flatMap_eq_nil_iff]
  constructor
  · intro hnil p hp
    rw [hnil] at hp
    cases hp
  · intro hall
    cases hpackages : r.packages with
    | nil => rfl
    | cons p ps =>
      have hp : p ∈ r.packages := by
        rw [hpackages]
        exact List.mem_cons_self
      exact absurd (hall p hp) (h p hp)

/-- What starts with a number is no sentence. -/
theorem toString_append_ne (n : Nat) (rest : String) : toString n ++ rest ≠ "No API changes" := by
  intro h
  have hchars := congrArg String.toList h
  rw [String.toList_append] at hchars
  cases hdigits : (toString n).toList with
  | nil => simp at hdigits
  | cons c cs =>
    have hc : c ∈ Nat.toDigits 10 n := by
      have hlist : (toString n).toList = Nat.toDigits 10 n := by simp
      rw [← hlist, hdigits]
      exact List.mem_cons_self
    rw [hdigits] at hchars
    have hN : c = 'N' := by
      have hhead := congrArg List.head? hchars
      simpa using hhead
    have hdigit := Nat.isDigit_of_mem_toDigits (by omega) (by omega) hc
    rw [hN] at hdigit
    exact absurd hdigit (by decide)

theorem summary_line_iff :
    r.summary.line = "No API changes" ↔ r.breakingCount + r.compatibleCount = 0 := by
  have hcounts : r.summary.breaking = r.breakingCount ∧ r.summary.compatible = r.compatibleCount :=
    ⟨rfl, rfl⟩
  unfold Summary.line
  rw [hcounts.1, hcounts.2]
  split
  · next hzero => exact ⟨fun _ => by omega, fun _ => rfl⟩
  · next hsome =>
    constructor
    · intro h
      simp only [String.append_assoc] at h
      exact absurd h (toString_append_ne _ _)
    · intro hzero
      exact absurd ⟨by omega, by omega⟩ hsome

/-- The text form says that there is no change exactly if no package is listed. -/
theorem changesText_iff (style : Output.Rendering) :
    Output.changesText style r =
        [Output.paint style.colors [.dimmed] "No API changes detected." ++ "\n"] ↔
      r.listsNothing = true := by
  unfold Output.changesText
  split
  · next h => exact ⟨fun _ => h, fun _ => rfl⟩
  · next h => exact ⟨fun heq => by simp at heq, fun hlists => absurd hlists h⟩

/-- So does the Markdown form. -/
theorem changesMarkdown_iff :
    Output.changesMarkdown r = ["*No API changes detected.*\n"] ↔ r.listsNothing = true := by
  unfold Output.changesMarkdown
  split
  · next h => exact ⟨fun _ => h, fun _ => rfl⟩
  · next h => exact ⟨fun heq => by simp at heq, fun hlists => absurd hlists h⟩

/-! ## Columns of the table -/

/-- The number that a cell shows in decimal digits; none if the cell is empty or holds anything else. -/
def number? (cell : String) : Option Nat :=
  if cell.toList ≠ [] ∧ cell.toList.all Char.isDigit then some (Nat.ofDigitChars 10 cell.toList 0) else none

theorem number?_toString (n : Nat) : number? (toString n) = some n := by
  have hdigits : (toString n).toList = Nat.toDigits 10 n := by simp
  have hall : (Nat.toDigits 10 n).all Char.isDigit = true :=
    List.all_eq_true.2 fun c hc => Nat.isDigit_of_mem_toDigits (by omega) (by omega) hc
  unfold number?
  rw [hdigits, if_pos ⟨Nat.toDigits_ne_nil, hall⟩, Nat.ofDigitChars_ten_toDigits]

/-- The sum of a column of numbers; none if a row has no number there. -/
def columnSum? (i : Nat) (rows : List (List String)) : Option Nat :=
  (rows.mapM fun row => row[i]?.bind number?).map List.sum

theorem columnSum?_eq {α : Type} (i : Nat) (row : α → List String) (count : α → Nat) (xs : List α)
    (h : ∀ x ∈ xs, (row x)[i]? = some (toString (count x))) :
    columnSum? i (xs.map row) = some (xs.map count).sum := by
  unfold columnSum?
  have hcells : (xs.map row).mapM (fun row => row[i]?.bind number?) = some (xs.map count) := by
    induction xs with
    | nil => rfl
    | cons x xs ih =>
      have hx : (row x)[i]?.bind number? = some (count x) := by
        rw [h x List.mem_cons_self, Option.bind_some, number?_toString]
      have hxs := ih fun y hy => h y (List.mem_cons_of_mem x hy)
      rw [List.map_cons, List.mapM_cons, hx, hxs]
      rfl
  rw [hcells, Option.map_some]

theorem breaking_column : columnSum? 1 r.packageRows = some r.breakingCount := by
  unfold packageRows breakingCount changes
  rw [columnSum?_eq 1 _ (fun p => p.changes.countP (!·.compatible)) _ fun p _ => rfl,
    List.countP_flatMap]
  rfl

theorem compatible_column : columnSum? 2 r.packageRows = some r.compatibleCount := by
  unfold packageRows compatibleCount changes
  rw [columnSum?_eq 2 _ (fun p => p.changes.length - p.changes.countP (!·.compatible)) _ fun p _ => rfl,
    List.countP_flatMap]
  -- the rest of a package's records are the compatible ones
  have hrest : ∀ p : PackageChanges,
      p.changes.length - p.changes.countP (!·.compatible) = p.changes.countP (·.compatible) := by
    intro p
    have hsplit := List.length_eq_countP_add_countP (fun c : Change => !c.compatible) (l := p.changes)
    simp only [Bool.not_eq_true', Bool.not_eq_false, Bool.decide_eq_true] at hsplit
    omega
  simp only [hrest]
  rfl

/-! ## Something broke -/

theorem hasBreaking_iff_exists : r.hasBreaking = true ↔ ∃ c ∈ r.changes, c.isBreaking = true := by
  unfold hasBreaking
  rw [List.any_eq_true]
  rfl

theorem hasBreaking_iff_count : r.hasBreaking = true ↔ 0 < r.breakingCount := by
  unfold hasBreaking breakingCount
  rw [List.any_eq_true, List.countP_pos_iff]

theorem exitCode_eq_zero_iff :
    r.exitCode = 0 ↔ r.hasBreaking = false ∧ r.hasFailures = false := by
  unfold exitCode
  cases r.hasBreaking <;> cases r.hasFailures <;> simp

/-- All that is asked of a report agrees on whether something changed and whether something broke. -/
structure TotalsAgree : Prop where
  /-- A package is listed for its records. -/
  listed : ∀ p ∈ r.packages, p.changes ≠ []
  unchanged : ∀ style : Output.Rendering,
    [r.isEmpty = true, r.listsNothing = true, r.breakingCount + r.compatibleCount = 0,
      r.summary.line = "No API changes",
      Output.changesText style r =
        [Output.paint style.colors [.dimmed] "No API changes detected." ++ "\n"],
      Output.changesMarkdown r = ["*No API changes detected.*\n"]].TFAE
  breakingColumn : columnSum? 1 r.packageRows = some r.breakingCount
  compatibleColumn : columnSum? 2 r.packageRows = some r.compatibleCount
  broken : [r.hasBreaking = true, 0 < r.breakingCount, r.exitCode = 1].TFAE
  /-- The code is 0 if there is neither a breaking record nor a failed package. -/
  ended : r.exitCode = 0 ↔ (∀ c ∈ r.changes, c.isBreaking = false) ∧ r.failures = []

theorem totalsAgree_of_listed (h : ∀ p ∈ r.packages, p.changes ≠ []) : r.TotalsAgree where
  listed := h
  unchanged style := by
    have hrecords : r.listsNothing = true ↔ r.isEmpty = true := by
      rw [r.listsNothing_iff h, r.isEmpty_iff]
    tfae_have 1 ↔ 2 := hrecords.symm
    tfae_have 1 ↔ 3 := by rw [r.isEmpty_iff, r.counts_eq_zero_iff]
    tfae_have 4 ↔ 3 := r.summary_line_iff
    tfae_have 5 ↔ 2 := r.changesText_iff style
    tfae_have 6 ↔ 2 := r.changesMarkdown_iff
    tfae_finish
  breakingColumn := r.breaking_column
  compatibleColumn := r.compatible_column
  broken := by
    tfae_have 1 ↔ 2 := r.hasBreaking_iff_count
    tfae_have 3 ↔ 1 := r.exitCode_eq_one_iff
    tfae_finish
  ended := by
    have hfailures : r.hasFailures = false ↔ r.failures = [] := by
      unfold hasFailures
      rw [Bool.not_eq_false', List.isEmpty_iff]
    have hrecords : r.hasBreaking = false ↔ ∀ c ∈ r.changes, c.isBreaking = false := by
      rw [← Bool.not_eq_true, r.hasBreaking_iff_exists]
      simp only [not_exists, not_and, Bool.not_eq_true]
    rw [r.exitCode_eq_zero_iff, hrecords, hfailures]

end Report

/-- Every report that a comparison gives answers alike wherever it is asked what changed and what
broke. -/
theorem totals_agree (policy : Policy) (old new : Snapshot) (packages : List String) {r : Report}
    (h : compare? policy old new packages = some r) : r.TotalsAgree := by
  obtain ⟨_, rfl⟩ := (compare?_eq_some_iff policy old new packages).1 h
  exact Report.totalsAgree_of_listed _ fun _ hp => changes_ne_nil_of_mem_compare hp

/-- One record that breaks callers and one that does not. -/
theorem totals_agree_reordered : ∃ r : Report,
    compare? {} pairRelease reorderedRelease ["./p"] = some r ∧ r.TotalsAgree ∧
      r.breakingCount = 1 ∧ r.compatibleCount = 1 := by
  have hcounts : (compare? {} pairRelease reorderedRelease ["./p"]).map
      (fun r => (r.breakingCount, r.compatibleCount)) = some (1, 1) := by decide +kernel
  obtain ⟨r, hr, hboth⟩ := Option.map_eq_some_iff.1 hcounts
  obtain ⟨hbreaking, hcompatible⟩ := Prod.mk.inj hboth
  exact ⟨r, hr, totals_agree {} pairRelease reorderedRelease ["./p"] hr, hbreaking, hcompatible⟩

/-- A report that lists a package without a record would be told empty by one test and not by another. -/
example : (Report.mk "v1" "v2" [⟨"./p", []⟩] [] []).isEmpty = true ∧
    (Report.mk "v1" "v2" [⟨"./p", []⟩] [] []).listsNothing = false := by
  decide

end GoApi
