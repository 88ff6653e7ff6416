import GoApi.Proofs.Compare
import GoApi.Proofs.Discovery.Path
import GoApi.Proofs.Surface.Ending
import GoApi.Repository

/-!
# Comparing changed packages only

Of two revisions only the packages with a changed file are compared.  If all packages have a report, so do the
changed ones, and nothing is lost by leaving the others out, unless a package is *overlooked*: both revisions
list it, its sources differ, but each of the files that differ is left out of the listing by itself.

    compareAll? policy … = .ok (some all) → ∃ bounded, compare? policy … (old.changedPackages s new) = some bounded ∧
      (bounded.packages = all.packages ↔ no overlooked package has a change)    (changedPackages_suffice_iff)

A package loads all sources of its directory, also those that a pattern leaves out, so a file may count
for the one and not for the other.  A package without end that did not change leaves all packages without a
report, but not the changed ones.
-/

namespace GoApi

open Discovery Surface

/-! ## Files that differ -/

namespace Revision

/-- The files stand in ascending order of their paths, each path once. -/
def Ordered (r : Revision) : Prop := r.files.Pairwise (·.1 < ·.1)

theorem Ordered.nodup_paths {r : Revision} (h : r.Ordered) : r.paths.Nodup := by
  unfold paths List.Nodup
  rw [List.pairwise_map]
  refine List.Pairwise.imp (fun {a b} hlt heq => ?_) h
  rw [heq] at hlt
  exact String.lt_irrefl _ hlt

theorem Ordered.content?_eq_some_iff {r : Revision} (h : r.Ordered) {path : String}
    {content : ByteArray} : r.content? path = some content ↔ (path, content) ∈ r.files := by
  have hmem : ∀ {c}, r.content? path = some c → (path, c) ∈ r.files := by
    intro c hc
    obtain ⟨xs, ys, hxy, _⟩ := List.lookup_eq_some_iff.1 hc
    rw [hxy]
    simp
  refine ⟨hmem, fun hfile => ?_⟩
  obtain ⟨c, hc⟩ : ∃ c, r.content? path = some c :=
    Option.isSome_iff_exists.1 (List.lookup_isSome_iff.2 ⟨_, hfile, by simp⟩)
  have heq := List.inj_on_of_nodup_map h.nodup_paths (hmem hc) hfile rfl
  rw [hc, (Prod.mk.inj heq).2]

theorem content?_isSome_iff {r : Revision} {path : String} :
    (r.content? path).isSome ↔ path ∈ r.paths := by
  unfold content? paths
  rw [List.lookup_isSome_iff, List.mem_map]
  constructor
  · rintro ⟨file, hfile, hpath⟩
    exact ⟨file, hfile, (beq_iff_eq.1 hpath).symm⟩
  · rintro ⟨file, hfile, rfl⟩
    exact ⟨file, hfile, beq_self_eq_true _⟩

theorem mem_changedPaths {old new : Revision} {path : String} :
    path ∈ old.changedPaths new ↔
      (path ∈ old.paths ∨ path ∈ new.paths) ∧ old.content? path ≠ new.content? path := by
  have hdata : ∀ x y : Option ByteArray, x.map (·.data) = y.map (·.data) ↔ x = y := by
    intro x y
    refine (Option.map_injective fun c d hcd => ?_).eq_iff
    exact ByteArray.ext hcd
  unfold changedPaths
  rw [List.mem_filter, List.mem_append, bne_iff_ne, ne_eq, hdata]

theorem changedPaths_comm {old new : Revision} {path : String} :
    path ∈ old.changedPaths new ↔ path ∈ new.changedPaths old := by
  rw [mem_changedPaths, mem_changedPaths, or_comm, ne_comm]

/-- What does not differ is there on both sides or on neither, with one content. -/
theorem content?_eq_of_notMem {old new : Revision} {path : String} (h : path ∉ old.changedPaths new) :
    old.content? path = new.content? path := by
  by_contra hne
  refine h (mem_changedPaths.2 ⟨?_, hne⟩)
  by_contra hnone
  rw [not_or, ← content?_isSome_iff, ← content?_isSome_iff, Option.not_isSome_iff_eq_none,
    Option.not_isSome_iff_eq_none] at hnone
  exact hne (hnone.1.trans hnone.2.symm)

/-- Revisions whose files of one kind do not differ have the same files of that kind. -/
theorem filter_files_eq {old new : Revision} (hold : old.Ordered) (hnew : new.Ordered)
    (keep : String → Bool) (h : ∀ path ∈ old.changedPaths new, keep path = false) :
    (old.files.filter fun f => keep f.1) = new.files.filter fun f => keep f.1 := by
  refine eq_of_pairwise_lt Prod.fst (List.Pairwise.filter _ hold) (List.Pairwise.filter _ hnew) ?_
  rintro ⟨path, content⟩
  rw [List.mem_filter, List.mem_filter, and_congr_left_iff]
  intro hkeep
  have hsame : path ∉ old.changedPaths new := by
    intro hpath
    rw [h path hpath] at hkeep
    exact Bool.noConfusion hkeep
  rw [← hold.content?_eq_some_iff, ← hnew.content?_eq_some_iff, content?_eq_of_notMem hsame]

/-! ## Packages that are listed -/

theorem mem_packagesOfPaths {s : Selection} {paths : List String} {package : String} :
    package ∈ s.packagesOfPaths paths ↔
      (∃ path ∈ paths, s.packageOf? path = some package) ∧ s.takesPart package = true := by
  rw [Selection.packagesOfPaths, Selection.mem_filter, List.mem_filterMap]

/-- The packages that either revision lists. -/
def listedPackages (s : Selection) (old new : Revision) : List String :=
  s.packagesOfPaths old.paths ++ s.packagesOfPaths new.paths

/-- A file that counts for a package is a source of it. -/
theorem sourcePackage?_of_packageOf? {s : Selection} {path package : String}
    (h : s.packageOf? path = some package) : sourcePackage? path = some package := by
  unfold Selection.packageOf? at h
  simp only [Option.ite_none_left_eq_some] at h
  obtain ⟨hsource, _, _, hpackage⟩ := h
  unfold sourcePackage?
  rw [if_pos (by simpa using hsource), hpackage]

/-- A package that is listed in both revisions and whose sources differ, but only in files that do not
count for it. -/
structure Overlooked (s : Selection) (old new : Revision) (package : String) : Prop where
  listed : package ∈ s.packagesOfPaths old.paths
  listed' : package ∈ s.packagesOfPaths new.paths
  differs : ∃ path ∈ old.changedPaths new, sourcePackage? path = some package
  leftOut : ∀ path ∈ old.changedPaths new, s.packageOf? path ≠ some package

/-- A package that one revision lists is listed by the other one as well, unless a file that counts
for it has changed. -/
theorem listed_of_listed {s : Selection} {old new : Revision} {package : String}
    (hlisted : package ∈ s.packagesOfPaths old.paths)
    (hleftOut : ∀ path ∈ old.changedPaths new, s.packageOf? path ≠ some package) :
    package ∈ s.packagesOfPaths new.paths := by
  obtain ⟨⟨path, hpath, hcounts⟩, hpart⟩ := mem_packagesOfPaths.1 hlisted
  have hsame : path ∉ old.changedPaths new := fun hchanged => hleftOut path hchanged hcounts
  refine mem_packagesOfPaths.2 ⟨⟨path, ?_, hcounts⟩, hpart⟩
  rw [← content?_isSome_iff] at hpath ⊢
  rwa [← content?_eq_of_notMem hsame]

/-- A package of which no source differs has no change. -/
theorem comparePackage_unchanged (policy : Policy) (s : Selection) {old new : Revision}
    (hold : old.Ordered) (hnew : new.Ordered) (oldLabel newLabel : String) {package : String}
    (hlisted : package ∈ s.packagesOfPaths old.paths) (hlisted' : package ∈ s.packagesOfPaths new.paths)
    (hsame : ∀ path ∈ old.changedPaths new, sourcePackage? path ≠ some package) :
    (comparePackage policy (old.snapshot s oldLabel) (new.snapshot s newLabel) package).changes? =
      none := by
  have hfiles := filter_files_eq hold hnew (sourcePackage? · == some package)
    fun path hpath => by simpa using hsame path hpath
  refine comparePackage_same policy rfl ?_
  simp only [snapshot, List.contains_iff_mem.2 hlisted, List.contains_iff_mem.2 hlisted', if_true, hfiles]

/-- A package that is listed but not among the changed ones has no change, or it is overlooked. -/
theorem unchanged_or_overlooked (policy : Policy) (s : Selection) {old new : Revision}
    (hold : old.Ordered) (hnew : new.Ordered) (oldLabel newLabel : String) {package : String}
    (hlisted : package ∈ listedPackages s old new)
    (hunchanged : package ∉ old.changedPackages s new) :
    (comparePackage policy (old.snapshot s oldLabel) (new.snapshot s newLabel) package).changes? =
      none ∨ Overlooked s old new package := by
  have hpart : s.takesPart package = true := by
    rcases List.mem_append.1 hlisted with h | h <;> exact (mem_packagesOfPaths.1 h).2
  have hleftOut : ∀ path ∈ old.changedPaths new, s.packageOf? path ≠ some package := fun path hpath hcounts =>
    hunchanged (mem_packagesOfPaths.2 ⟨⟨path, hpath, hcounts⟩, hpart⟩)
  have hboth : package ∈ s.packagesOfPaths old.paths ∧ package ∈ s.packagesOfPaths new.paths := by
    rcases List.mem_append.1 hlisted with h | h
    · exact ⟨h, listed_of_listed h hleftOut⟩
    · exact ⟨listed_of_listed h fun path hpath => hleftOut path (changedPaths_comm.1 hpath), h⟩
  by_cases hdiffers : ∃ path ∈ old.changedPaths new, sourcePackage? path = some package
  · exact Or.inr ⟨hboth.1, hboth.2, hdiffers, hleftOut⟩
  · refine Or.inl (comparePackage_unchanged policy s hold hnew oldLabel newLabel hboth.1 hboth.2 ?_)
    exact fun path hpath hsource => hdiffers ⟨path, hpath, hsource⟩

theorem changedPackages_subset (s : Selection) (old new : Revision) :
    old.changedPackages s new ⊆ listedPackages s old new := by
  intro package hpackage
  obtain ⟨⟨path, hpath, hcounts⟩, hpart⟩ := mem_packagesOfPaths.1 hpackage
  rcases (mem_changedPaths.1 hpath).1 with hpath | hpath
  · exact List.mem_append_left _ (mem_packagesOfPaths.2 ⟨⟨path, hpath, hcounts⟩, hpart⟩)
  · exact List.mem_append_right _ (mem_packagesOfPaths.2 ⟨⟨path, hpath, hcounts⟩, hpart⟩)

theorem Overlooked.notMem {s : Selection} {old new : Revision} {package : String}
    (h : Overlooked s old new package) : package ∉ old.changedPackages s new := by
  intro hpackage
  obtain ⟨⟨path, hpath, hcounts⟩, _⟩ := mem_packagesOfPaths.1 hpackage
  exact h.leftOut path hpath hcounts

/-! ## Directories that are taken as a whole -/

/-- The sources of a directory count for it all together or not at all. -/
def TakenWhole (s : Selection) (paths : List String) : Prop :=
  ∀ path ∈ paths, ∀ path' ∈ paths, sourcePackage? path = sourcePackage? path' →
    s.packageOf? path = s.packageOf? path'

/-- Nothing is overlooked where directories are taken or left as a whole. -/
theorem TakenWhole.not_overlooked {s : Selection} {old new : Revision}
    (h : TakenWhole s (old.paths ++ new.paths)) (package : String) : ¬ Overlooked s old new package := by
  intro ho
  obtain ⟨path, hpath, hsource⟩ := ho.differs
  obtain ⟨⟨path', hpath', hcounts⟩, _⟩ := mem_packagesOfPaths.1 ho.listed
  have hsame := h path (List.mem_append.2 (mem_changedPaths.1 hpath).1) path'
    (List.mem_append_left _ hpath') (hsource.trans (sourcePackage?_of_packageOf? hcounts).symm)
  exact ho.leftOut path hpath (hsame.trans hcounts)

theorem decideUpwards_nil (path : String) : Pattern.decideUpwards [] path = none := by
  have hdecide : ∀ (path : String) (isDir : Bool), Pattern.decide [] path isDir = none := fun _ _ => rfl
  unfold Pattern.decideUpwards
  rw [hdecide, Option.none_or, List.findSome?_eq_none_iff]
  exact fun dir _ => hdecide dir true

/-- Without patterns, the names of the directories decide. -/
theorem packageOf?_of_ignore_nil {s : Selection} (hs : s.ignore = []) {path file : String}
    {dirs : List String} (hparts : Path.parts path = dirs ++ [file])
    (hdirs : ∀ d ∈ dirs, Path.IsEntry d) (hfile : Path.IsEntry file) :
    s.packageOf? path =
      if isGoSource file = false ∨ dirs.any skipsDir = true then none
      else some (packagePath (Text.join "/" dirs)) := by
  have hpatterns : s.patterns = [] := by simp [Selection.patterns, hs]
  unfold Selection.packageOf?
  simp only [Path.name?_eq hparts hdirs hfile, Path.parent?_eq hparts hdirs hfile, Option.getD_some,
    Path.names_join hdirs, hpatterns, decideUpwards_nil, Option.any_some]
  cases isGoSource file <;> cases dirs.any skipsDir <;> rfl

/-- Without patterns, plain directories are taken or left as a whole. -/
theorem takenWhole_of_ignore_nil {s : Selection} (hs : s.ignore = []) {paths : List String}
    (hplain : ∀ path ∈ paths, Path.IsPlain path) : TakenWhole s paths := by
  intro path hpath path' hpath' hsame
  obtain ⟨dirs, file, hparts, hdirs, hfile⟩ := (hplain path hpath).split
  obtain ⟨dirs', file', hparts', hdirs', hfile'⟩ := (hplain path' hpath').split
  have hentries : ∀ d ∈ dirs, Path.IsEntry d := fun d hd => (hdirs d hd).toIsEntry
  have hentries' : ∀ d ∈ dirs', Path.IsEntry d := fun d hd => (hdirs' d hd).toIsEntry
  rw [packageOf?_of_ignore_nil hs hparts hentries hfile.toIsEntry,
    packageOf?_of_ignore_nil hs hparts' hentries' hfile'.toIsEntry]
  unfold sourcePackage? at hsame
  simp only [Path.name?_eq hparts hentries hfile.toIsEntry, Path.parent?_eq hparts hentries hfile.toIsEntry,
    Path.name?_eq hparts' hentries' hfile'.toIsEntry, Path.parent?_eq hparts' hentries' hfile'.toIsEntry,
    Option.getD_some, Option.any_some] at hsame
  cases hgo : isGoSource file <;> cases hgo' : isGoSource file' <;> simp only [hgo, hgo', if_true] at hsame
  · simp
  · simp at hsame
  · simp at hsame
  · rw [packagePath_inj hdirs hdirs' (Option.some.inj hsame)]

/-! ## Nothing is lost -/

section

variable (policy : Policy) (s : Selection) {old new : Revision} (hold : old.Ordered) (hnew : new.Ordered)
  (oldLabel newLabel : String)

theorem compareAll?_eq (policy : Policy) (s : Selection) (old new : Revision) (oldLabel newLabel : String) :
    compareAll? policy (old.snapshot s oldLabel) (new.snapshot s newLabel) =
      .ok (compare? policy (old.snapshot s oldLabel) (new.snapshot s newLabel) (listedPackages s old new)) :=
  rfl

include hold hnew in
/-- The outcomes of the changed packages have the changes of all outcomes exactly if those of the overlooked
packages have none. -/
theorem outcomes_suffice_iff :
    (compare policy (old.snapshot s oldLabel) (new.snapshot s newLabel)
        (old.changedPackages s new)).packages =
      (compare policy (old.snapshot s oldLabel) (new.snapshot s newLabel)
        (listedPackages s old new)).packages ↔
      ∀ package, Overlooked s old new package →
        (comparePackage policy (old.snapshot s oldLabel) (new.snapshot s newLabel)
          package).changes? = none := by
  constructor
  · intro heq package ho
    rw [Option.eq_none_iff_forall_ne_some]
    intro changes hchanges
    have hpackage := comparePackage_package hchanges
    have hall : changes ∈ (compare policy (old.snapshot s oldLabel) (new.snapshot s newLabel)
        (listedPackages s old new)).packages := by
      rw [mem_compare_packages, hpackage]
      exact ⟨List.mem_append_left _ ho.listed, hchanges⟩
    rw [← heq, mem_compare_packages, hpackage] at hall
    exact ho.notMem hall.1
  · intro hnone
    simp only [compare, List.filterMap_map]
    refine filterMap_ascending_eq (changedPackages_subset s old new) fun package hlisted hunchanged => ?_
    rcases unchanged_or_overlooked policy s hold hnew oldLabel newLabel hlisted hunchanged with h | h
    · exact h
    · exact hnone package h

end

/-- There is a report on all packages exactly if comparing each of them comes to an end, and one on the changed
packages exactly if comparing each of those does.  Where all packages have a report, the changed ones have
one, and its changes are the same exactly if no overlooked package has a change.  Without patterns no package
with a plain path is overlooked. -/
theorem changedPackages_suffice_iff (policy : Policy) (s : Selection) (old new : Revision)
    (hold : old.Ordered) (hnew : new.Ordered) (oldLabel newLabel : String) :
    ∃ all?, compareAll? policy (old.snapshot s oldLabel) (new.snapshot s newLabel) = .ok all? ∧
      (all?.isSome ↔ ∀ package ∈ listedPackages s old new,
        comparisonEnds (old.snapshot s oldLabel) (new.snapshot s newLabel) package = true) ∧
      ((compare? policy (old.snapshot s oldLabel) (new.snapshot s newLabel)
          (old.changedPackages s new)).isSome ↔
        ∀ package ∈ old.changedPackages s new,
          comparisonEnds (old.snapshot s oldLabel) (new.snapshot s newLabel) package = true) ∧
      (∀ all, all? = some all → ∃ bounded,
        compare? policy (old.snapshot s oldLabel) (new.snapshot s newLabel)
          (old.changedPackages s new) = some bounded ∧
        (bounded.packages = all.packages ↔
          ∀ package, Overlooked s old new package →
            (compare? policy (old.snapshot s oldLabel) (new.snapshot s newLabel)
              [package]).map (·.packages) = some [])) ∧
      (s.ignore = [] → (∀ path ∈ old.paths ++ new.paths, Path.IsPlain path) →
        ∀ package, ¬ Overlooked s old new package) := by
  refine ⟨_, compareAll?_eq policy s old new oldLabel newLabel, compare?_isSome_iff policy _ _ _,
    compare?_isSome_iff policy _ _ _, fun all hall => ?_,
    fun hs hplain => (takenWhole_of_ignore_nil hs hplain).not_overlooked⟩
  obtain ⟨hends, rfl⟩ := (compare?_eq_some_iff policy _ _ _).1 hall
  refine ⟨_, (compare?_eq_some_iff policy _ _ _).2
    ⟨fun package hpackage => hends package (changedPackages_subset s old new hpackage), rfl⟩, ?_⟩
  rw [outcomes_suffice_iff policy s hold hnew oldLabel newLabel]
  refine forall_congr' fun package => forall_congr' fun ho => ?_
  rw [compare?_singleton_packages policy _ _ (hends package (List.mem_append_left _ ho.listed)),
    Option.some.injEq, Option.toList_eq_nil_iff]

/-- A package of two files. -/
def twoFiles : Revision :=
  ⟨[("p/a.go", "package p\n".toUTF8), ("p/gen.go", "package p\nfunc Gone()\n".toUTF8)]⟩

/-- The function of the second file is gone. -/
def twoFilesLater : Revision :=
  ⟨[("p/a.go", "package p\n".toUTF8), ("p/gen.go", "package p\n".toUTF8)]⟩

/-- Without patterns the function is reported as removed. -/
theorem changedPackages_suffice_removed :
    twoFiles.Ordered ∧ twoFilesLater.Ordered ∧ ∃ all bounded,
      compareAll? {} (twoFiles.snapshot {} "v1") (twoFilesLater.snapshot {} "v2") = .ok (some all) ∧
      compare? {} (twoFiles.snapshot {} "v1") (twoFilesLater.snapshot {} "v2")
        (twoFiles.changedPackages {} twoFilesLater) = some bounded ∧
      bounded.packages = all.packages ∧ all.packages = [⟨"./p", [.removed "Gone"]⟩] := by
  have hold : twoFiles.Ordered := by
    unfold Ordered
    decide +kernel
  have hnew : twoFilesLater.Ordered := by
    unfold Ordered
    decide +kernel
  have hplain : ∀ path ∈ twoFiles.paths ++ twoFilesLater.paths, Path.IsPlain path := by
    unfold Path.IsPlain
    decide +kernel
  have hall : (compareAll? {} (twoFiles.snapshot {} "v1") (twoFilesLater.snapshot {} "v2")).toOption.join.map
      (·.packages) = some [⟨"./p", [.removed "Gone"]⟩] := by
    decide +kernel
  obtain ⟨all?, hall?, _, _, hsame, hwhole⟩ :=
    changedPackages_suffice_iff {} {} twoFiles twoFilesLater hold hnew "v1" "v2"
  rw [hall?] at hall
  obtain ⟨all, rfl, hremoved⟩ := Option.map_eq_some_iff.1 hall
  obtain ⟨bounded, hbounded, hiff⟩ := hsame all rfl
  refine ⟨hold, hnew, all, bounded, hall?, hbounded, hiff.2 fun package ho => ?_, hremoved⟩
  exact absurd ho (hwhole rfl hplain package)

/-- A pattern leaves the second file out of the listing, but not out of the package: its change is not
seen, and the removal of the function is lost. -/
theorem pattern_loses_removal :
    (compare? {} (twoFiles.snapshot { ignore := ["gen.go"] } "v1")
        (twoFilesLater.snapshot { ignore := ["gen.go"] } "v2")
        (twoFiles.changedPackages { ignore := ["gen.go"] } twoFilesLater)).map (·.packages) = some [] ∧
      (compareAll? {} (twoFiles.snapshot { ignore := ["gen.go"] } "v1")
        (twoFilesLater.snapshot { ignore := ["gen.go"] } "v2")).toOption.join.map (·.packages) =
          some [⟨"./p", [.removed "Gone"]⟩] := by
  decide +kernel

/-- A package without end that did not change: the changed packages have a report, all packages have none. -/
example :
    let old : Revision := ⟨[("p/p.go", "package p\nfunc F()\n".toUTF8), ("q/q.go", selfTaking.toUTF8)]⟩
    let new : Revision := ⟨[("p/p.go", "package p\n".toUTF8), ("q/q.go", selfTaking.toUTF8)]⟩
    (compare? {} (old.snapshot {} "v1") (new.snapshot {} "v2") (old.changedPackages {} new)).map (·.packages) =
        some [⟨"./p", [.removed "F"]⟩] ∧
      (compareAll? {} (old.snapshot {} "v1") (new.snapshot {} "v2")).toOption = some none := by
  decide +kernel

end Revision

end GoApi
