import GoApi.Proofs.Discovery.Pattern
import GoApi.Proofs.Discovery.Walk

/-!
# Two ways to find packages

The packages of a file tree are found by walking it, or from a listing of its files.  In a plain tree both look at
each file on its own and differ only in what they leave out: the walk asks the patterns with `!` in front, and not
about its root; the listing asks them as they are, and about the root as well.

    both ways give the same packages ↔
      each package that takes part has a file for the one exactly if it has one for the other
                                                                          (discoveries_agree_iff)

They do if no line is marked and each line for the root is for every file.
-/

namespace GoApi.Discovery

open Surface

/-! ## What is left out -/

namespace Selection

/-- Whether a walk leaves out a file. -/
def walkLeavesOut (s : Selection) (path : String) : Bool :=
  s.walkPatterns.any (·.covers path false) ||
    (Path.parents path).dropLast.any fun dir => s.walkPatterns.any (·.covers dir true)

/-- Whether a listing leaves out a file. -/
def listingLeavesOut (s : Selection) (path : String) : Bool :=
  Pattern.decideUpwards s.patterns path == some .leaveOut

end Selection

/-- The package of a file, if the file makes its directory a package. -/
def packageBy (leavesOut : String → Bool) (path : String) : Option String :=
  let dir := (Path.parent? path).getD ""
  if (Path.name? path).any isGoSource && !(Path.names dir).any skipsDir && !leavesOut path then
    some (packagePath dir)
  else none

/-- The paths of the files below the entries of a directory. -/
def filePaths (entries : List (String × Tree)) : List String :=
  (Tree.leavesAll [] entries).map fun leaf => Text.join "/" leaf.1

section Names

variable {dirs : List String} {file : String}

theorem parts_file (hdirs : ∀ d ∈ dirs, Path.IsEntry d) (hfile : Path.IsEntry file) :
    Path.parts (Text.join "/" (dirs ++ [file])) = dirs ++ [file] := by
  refine Path.parts_join (by simp) fun d hd => ?_
  rcases List.mem_append.1 hd with hd | hd
  · exact hdirs d hd
  · exact List.mem_singleton.1 hd ▸ hfile

theorem packageBy_file (leavesOut : String → Bool) (hdirs : ∀ d ∈ dirs, Path.IsEntry d)
    (hfile : Path.IsEntry file) :
    packageBy leavesOut (Text.join "/" (dirs ++ [file])) =
      if isGoSource file && !dirs.any skipsDir && !leavesOut (Text.join "/" (dirs ++ [file])) then
        some (packagePath (Text.join "/" dirs))
      else none := by
  have hparts := parts_file hdirs hfile
  simp only [packageBy, Path.name?_eq hparts hdirs hfile, Path.parent?_eq hparts hdirs hfile, Option.getD_some,
    Path.names_join hdirs, Option.any_some]

/-- A listing takes a path of names as it is. -/
theorem packageOf?_file (s : Selection) (hdirs : ∀ d ∈ dirs, Path.IsEntry d) (hfile : Path.IsEntry file) :
    s.packageOf? (Text.join "/" (dirs ++ [file])) =
      packageBy s.listingLeavesOut (Text.join "/" (dirs ++ [file])) := by
  have hparts := parts_file hdirs hfile
  have hbusy : ∀ part ∈ Path.parts (Text.join "/" (dirs ++ [file])), Path.isIdle part = false := by
    intro part hpart
    rw [hparts, List.mem_append, List.mem_singleton] at hpart
    rcases hpart with hpart | rfl
    · exact (hdirs part hpart).busy
    · exact hfile.busy
  obtain ⟨hdot, hslash⟩ := Path.toList_ne_lead hbusy
  rw [packageBy_file _ hdirs hfile, Selection.listingLeavesOut]
  generalize Text.join "/" (dirs ++ [file]) = path at *
  -- the two facts on the front of the path decide the matches on it
  unfold Selection.packageOf?
  simp only [Path.name?_eq hparts hdirs hfile, Path.parent?_eq hparts hdirs hfile, Option.getD_some,
    Path.names_join hdirs, Option.any_some, String.ofList_toList]
  cases isGoSource file <;> cases dirs.any skipsDir <;>
    cases Pattern.decideUpwards s.patterns path == some .leaveOut <;> rfl

theorem walkLeavesOut_file (s : Selection) (hdirs : ∀ d ∈ dirs, Path.IsEntry d) (hfile : Path.IsEntry file) :
    s.walkLeavesOut (Text.join "/" (dirs ++ [file])) =
      (s.walkPatterns.any (·.covers (Text.join "/" (dirs ++ [file])) false) ||
        dirs.inits.tail.any fun above => s.walkPatterns.any (·.covers (Text.join "/" above) true)) := by
  rw [Selection.walkLeavesOut, Path.parents_eq (parts_file hdirs hfile) hdirs hfile, List.dropLast_reverse,
    List.any_reverse, ← List.map_tail, List.any_map]
  rfl

/-- A walk sees a file if it makes its directory a package. -/
theorem dirOf?_file (s : Selection) (w : Walk) (hw : w.patterns = s.walkPatterns) (root : List String)
    (hdirs : ∀ d ∈ dirs, Path.IsEntry d) (hfile : Path.IsEntry file) :
    ((w.dirOf? root [] (dirs ++ [file])).map fun path => packagePath (Text.join "/" (path.drop root.length))) =
      packageBy s.walkLeavesOut (Text.join "/" (dirs ++ [file])) := by
  rw [packageBy_file _ hdirs hfile, walkLeavesOut_file s hdirs hfile, Walk.dirOf?, Walk.reaches_eq, hw]
  simp only [List.nil_append, List.dropLast_concat]
  split
  · simp
  · rfl

end Names

/-! ## Both ways are filters of the files -/

/-- The names on the way to a file below a directory of a plain tree. -/
theorem split_leaf {entries : List (String × Tree)} (h : (Tree.dir entries).IsPlain)
    {leaf : List String × ByteArray} (hleaf : leaf ∈ Tree.leavesAll [] entries) :
    ∃ dirs file, leaf.1 = dirs ++ [file] ∧ (∀ d ∈ dirs, Path.IsEntry d) ∧ Path.IsEntry file := by
  have hentry : ∀ name ∈ leaf.1, Path.IsEntry name := fun name hname => h.isEntry hleaf hname
  obtain ⟨e, -, leaf', -, hnames⟩ := Tree.mem_leavesAll hleaf
  have hne : leaf.1 ≠ [] := by simp [hnames]
  refine ⟨leaf.1.dropLast, leaf.1.getLast hne, (List.dropLast_concat_getLast hne).symm, fun d hd => ?_, ?_⟩
  · exact hentry d (List.mem_of_mem_dropLast hd)
  · exact hentry _ (List.getLast_mem hne)

theorem packagesOfPaths_eq (s : Selection) {entries : List (String × Tree)} (h : (Tree.dir entries).IsPlain) :
    s.packagesOfPaths (filePaths entries) =
      s.filter ((filePaths entries).filterMap (packageBy s.listingLeavesOut)) := by
  have hsame : ∀ path ∈ filePaths entries, s.packageOf? path = packageBy s.listingLeavesOut path := by
    intro path hpath
    obtain ⟨leaf, hleaf, rfl⟩ := List.mem_map.1 hpath
    obtain ⟨dirs, file, hnames, hdirs, hfile⟩ := split_leaf h hleaf
    rw [hnames, packageOf?_file s hdirs hfile]
  rw [Selection.packagesOfPaths, List.filterMap_congr hsame]

theorem scopesAbove_isSilent {top : Tree} (h : top.IsPlain) (place : List String) :
    ∀ s ∈ scopesAbove top place, s.IsSilent := by
  intro s hs
  obtain ⟨n, -, rfl⟩ := List.mem_map.1 (List.mem_reverse.1 hs)
  exact Scope.ofDir_isSilent h _ n

theorem packagesOfTree_eq (s : Selection) {top : Tree} (htop : top.IsPlain) {root : String} {place : List String}
    {entries : List (String × Tree)} (hroot : top.locate? [] root = some place)
    (hdir : top.at? place = some (.dir entries)) :
    s.packagesOfTree top root =
      .ok (s.filter ((filePaths entries).filterMap (packageBy s.walkLeavesOut))) := by
  have hplain : (Tree.dir entries).IsPlain := htop.at? hdir
  unfold Selection.packagesOfTree Selection.dirsOfTree
  simp only [hroot, hdir, Except.map, List.map_map]
  rw [Walk.findAll_eq htop _ ⟨rfl, by simp, ?_⟩ hplain, List.map_filterMap, filePaths, List.filterMap_map]
  · refine congrArg (fun packages => Except.ok (s.filter packages)) (List.filterMap_congr fun leaf hleaf => ?_)
    obtain ⟨dirs, file, hnames, hdirs, hfile⟩ := split_leaf hplain hleaf
    rw [Function.comp_apply, hnames]
    exact dirOf?_file s _ rfl place hdirs hfile
  · intro scope hscope
    rcases List.mem_cons.1 hscope with rfl | hscope
    · exact Scope.ofDir_isSilent htop place _
    · exact scopesAbove_isSilent htop place scope hscope

/-! ## When both agree -/

/-- A line that is for the root, but not for every file below it. -/
def Pattern.IsRootward (line : List Char) : Prop :=
  ∃ p, Pattern.ofLine? line = some p ∧ p.covers "" true = true ∧
    ∃ name, Path.IsEntry name ∧ p.covers name false = false

/-- The patterns of a walk and of a listing differ in their verdicts only. -/
theorem walkPatterns_eq_map {s : Selection} (h : ∀ line ∈ s.ignore, ¬Pattern.IsMarked line.toList) :
    s.walkPatterns = s.patterns.map Pattern.keeping := by
  rw [Selection.walkPatterns, Selection.patterns, List.map_filterMap]
  exact List.filterMap_congr fun line hline => (Pattern.ofLine?_exclaimed (h line hline)).1

theorem patterns_leaveOut {s : Selection} (h : ∀ line ∈ s.ignore, ¬Pattern.IsMarked line.toList) :
    ∀ p ∈ s.patterns, p.verdict = .leaveOut := by
  intro p hp
  obtain ⟨line, hline, hp⟩ := List.mem_filterMap.1 hp
  exact (Pattern.ofLine?_exclaimed (h line hline)).2 p hp

theorem Pattern.covers_dir {p : Pattern} {path : String} (h : p.covers path false = true) :
    p.covers path true = true := by
  unfold Pattern.covers at *
  simp_all

/-- A listing asks its patterns about the root as well. -/
theorem listingLeavesOut_file {s : Selection} (h : ∀ p ∈ s.patterns, p.verdict = .leaveOut) {dirs : List String}
    {file : String} (hdirs : ∀ d ∈ dirs, Path.IsEntry d) (hfile : Path.IsEntry file) :
    s.listingLeavesOut (Text.join "/" (dirs ++ [file])) =
      (s.patterns.any (·.covers (Text.join "/" (dirs ++ [file])) false) || (s.patterns.any (·.covers "" true) ||
        dirs.inits.tail.any fun above => s.patterns.any (·.covers (Text.join "/" above) true))) := by
  have hinits : dirs.inits = [] :: dirs.inits.tail := by cases dirs <;> simp
  rw [Selection.listingLeavesOut, Pattern.decideUpwards_eq_leaveOut h,
    Path.parents_eq (parts_file hdirs hfile) hdirs hfile, List.any_reverse, List.any_map, hinits, List.any_cons]
  rfl

/-- What is for every name at the root leaves nothing below it. -/
theorem walkLeavesOut_of_root {s : Selection} {p : Pattern} (hp : p ∈ s.walkPatterns)
    (hall : ∀ name, Path.IsEntry name → p.covers name false = true) {dirs : List String} {file : String}
    (hdirs : ∀ d ∈ dirs, Path.IsEntry d) (hfile : Path.IsEntry file) :
    s.walkLeavesOut (Text.join "/" (dirs ++ [file])) = true := by
  rw [walkLeavesOut_file s hdirs hfile, Bool.or_eq_true]
  cases dirs with
  | nil => exact Or.inl (List.any_eq_true.2 ⟨p, hp, hall file hfile⟩)
  | cons dir rest =>
    have hfirst : [dir] ∈ (dir :: rest).inits.tail := by cases rest <;> simp
    refine Or.inr (List.any_eq_true.2 ⟨[dir], hfirst, List.any_eq_true.2 ⟨p, hp, ?_⟩⟩)
    exact Pattern.covers_dir (hall dir (hdirs dir (by simp)))

/-- Both ways leave out the same files if no line is marked and each line for the root is for every file. -/
theorem leavesOut_alike {s : Selection} (hmarked : ∀ line ∈ s.ignore, ¬Pattern.IsMarked line.toList)
    (hrootward : ∀ line ∈ s.ignore, ¬Pattern.IsRootward line.toList) {dirs : List String} {file : String}
    (hdirs : ∀ d ∈ dirs, Path.IsEntry d) (hfile : Path.IsEntry file) :
    s.walkLeavesOut (Text.join "/" (dirs ++ [file])) = s.listingLeavesOut (Text.join "/" (dirs ++ [file])) := by
  have hlisting := listingLeavesOut_file (patterns_leaveOut hmarked) hdirs hfile
  cases hroot : s.patterns.any (·.covers "" true) with
  | false =>
    rw [hlisting, walkLeavesOut_file s hdirs hfile, walkPatterns_eq_map hmarked, hroot]
    simp only [List.any_map, Function.comp_def, Pattern.keeping_covers, Bool.false_or]
  | true =>
    -- then the walk leaves everything out by what is below the root
    obtain ⟨p, hp, hcovers⟩ := List.any_eq_true.1 hroot
    obtain ⟨line, hline, hof⟩ := List.mem_filterMap.1 hp
    have hall : ∀ name, Path.IsEntry name → p.keeping.covers name false = true := by
      intro name hname
      rw [← Bool.not_eq_false]
      exact fun hfalse => hrootward line hline ⟨p, hof, hcovers, name, hname, hfalse⟩
    have hkeeping : p.keeping ∈ s.walkPatterns := by
      rw [walkPatterns_eq_map hmarked]
      exact List.mem_map_of_mem hp
    rw [walkLeavesOut_of_root hkeeping hall hdirs hfile, hlisting, hroot]
    simp

/-- Walking a plain tree and reading the listing of its files find the same packages exactly if each package that
takes part has a file for the one way if and only if it has one for the other.  So it is if no line is marked and
each line for the root is for every file. -/
theorem discoveries_agree_iff (s : Selection) {top : Tree} (htop : top.IsPlain) {root : String}
    {place : List String} {entries : List (String × Tree)} (hroot : top.locate? [] root = some place)
    (hdir : top.at? place = some (.dir entries)) :
    (s.packagesOfTree top root = .ok (s.packagesOfPaths (filePaths entries)) ↔
      ∀ package, s.takesPart package = true →
        ((∃ path ∈ filePaths entries, packageBy s.walkLeavesOut path = some package) ↔
          ∃ path ∈ filePaths entries, packageBy s.listingLeavesOut path = some package)) ∧
    ((∀ line ∈ s.ignore, ¬Pattern.IsMarked line.toList ∧ ¬Pattern.IsRootward line.toList) →
      s.packagesOfTree top root = .ok (s.packagesOfPaths (filePaths entries))) := by
  have hplain : (Tree.dir entries).IsPlain := htop.at? hdir
  rw [packagesOfTree_eq s htop hroot hdir, packagesOfPaths_eq s hplain]
  constructor
  · rw [Except.ok.injEq, Selection.filter_eq_iff]
    simp only [List.mem_filterMap]
  · intro hlines
    have hsame : ∀ path ∈ filePaths entries,
        packageBy s.walkLeavesOut path = packageBy s.listingLeavesOut path := by
      intro path hpath
      obtain ⟨leaf, hleaf, rfl⟩ := List.mem_map.1 hpath
      obtain ⟨dirs, file, hnames, hdirs, hfile⟩ := split_leaf hplain hleaf
      rw [hnames, packageBy, packageBy,
        leavesOut_alike (fun line hline => (hlines line hline).1) (fun line hline => (hlines line hline).2) hdirs hfile]
    rw [List.filterMap_congr hsame]

theorem locate?_here (top : Tree) (here : List String) : top.locate? here "." = some here := by
  have hparts : Path.parts "." = ["."] := by decide
  rw [Tree.locate?, hparts]
  rfl

/-- A directory of sources. -/
def sourceDir (names : List String) : Tree := .dir (names.map fun name => (name, .file default))

theorem sourceDir_isPlain {names : List String} (hnames : ∀ name ∈ names, Path.IsEntry name)
    (hquiet : ∀ name ∈ names, name ∉ ignoreNames) : (sourceDir names).IsPlain := by
  refine .dir (fun e he => ?_) (fun e he => ?_) fun e he => ?_ <;> obtain ⟨name, hname, rfl⟩ := List.mem_map.1 he
  · exact hnames name hname
  · exact hquiet name hname
  · exact .file default

/-- A package, and one that is generated. -/
def generatedTree : Tree := .dir [("gen", sourceDir ["b.go"]), ("pkg", sourceDir ["a.go", "gen.go"])]

theorem generatedTree_isPlain : generatedTree.IsPlain := by
  refine .dir (by decide) (by decide) fun e he => ?_
  rcases List.mem_cons.1 he with rfl | he
  · exact sourceDir_isPlain (by decide) (by decide)
  · cases List.mem_singleton.1 he
    exact sourceDir_isPlain (by decide) (by decide)

theorem not_isRootward {line : List Char} (h : (Pattern.ofLine? line).any (·.covers "" true) = false) :
    ¬Pattern.IsRootward line := by
  rintro ⟨p, hp, hcovers, -⟩
  rw [hp, Option.any_some, hcovers] at h
  cases h

theorem discoveries_agree_generated :
    ({ ignore := ["gen/", "/pkg/gen.go"] } : Selection).packagesOfTree generatedTree "." = .ok ["./pkg"] ∧
      ({ ignore := ["gen/", "/pkg/gen.go"] } : Selection).packagesOfPaths ["gen/b.go", "pkg/a.go", "pkg/gen.go"] =
        ["./pkg"] := by
  have hlines : ∀ line ∈ ["gen/", "/pkg/gen.go"],
      ¬Pattern.IsMarked line.toList ∧ ¬Pattern.IsRootward line.toList := by
    intro line hline
    refine ⟨?_, not_isRootward ?_⟩ <;> revert line <;> decide +kernel
  have hlisting : ({ ignore := ["gen/", "/pkg/gen.go"] } : Selection).packagesOfPaths
      ["gen/b.go", "pkg/a.go", "pkg/gen.go"] = ["./pkg"] := by decide +kernel
  have hpaths : filePaths generatedTree.entries = ["gen/b.go", "pkg/a.go", "pkg/gen.go"] := by decide
  refine ⟨?_, hlisting⟩
  rw [← hlisting, ← hpaths]
  exact (discoveries_agree_iff _ generatedTree_isPlain (locate?_here _ []) rfl).2 hlines

theorem filePaths_sourceDir (names : List String) : filePaths (sourceDir names).entries = names := by
  show (Tree.leavesAll [] (names.map fun name => (name, .file default))).map _ = names
  rw [Tree.leavesAll_eq_flatMap, List.flatMap_map, List.map_flatMap]
  simp [Tree.leaves, Text.join]

theorem packagesOfTree_sourceDir {s : Selection} {names packages : List String}
    (hnames : ∀ name ∈ names, Path.IsEntry name) (hquiet : ∀ name ∈ names, name ∉ ignoreNames)
    (h : s.filter (names.filterMap (packageBy s.walkLeavesOut)) = packages) :
    s.packagesOfTree (sourceDir names) "." = .ok packages := by
  have hdir : (sourceDir names).at? [] = some (.dir (sourceDir names).entries) := rfl
  rw [packagesOfTree_eq s (sourceDir_isPlain hnames hquiet) (locate?_here _ []) hdir, filePaths_sourceDir, h]

/-- A line that is negated, a comment or blank means one thing for a walk and another one for a listing, and a line
for directories may leave out the root of a listing. -/
theorem discoveries_disagree :
    (({ ignore := ["*.go", "!root.go"] } : Selection).packagesOfTree (sourceDir ["root.go"]) "." = .ok [] ∧
      ({ ignore := ["*.go", "!root.go"] } : Selection).packagesOfPaths ["root.go"] = ["."]) ∧
    (({ ignore := ["#*"] } : Selection).packagesOfTree (sourceDir ["#root.go"]) "." = .ok [] ∧
      ({ ignore := ["#*"] } : Selection).packagesOfPaths ["#root.go"] = ["."]) ∧
    (({ ignore := [""] } : Selection).packagesOfTree (sourceDir ["root.go"]) "." = .ok [] ∧
      ({ ignore := [""] } : Selection).packagesOfPaths ["root.go"] = ["."]) ∧
    (({ ignore := ["*/"] } : Selection).packagesOfTree (sourceDir ["root.go"]) "." = .ok ["."] ∧
      ({ ignore := ["*/"] } : Selection).packagesOfPaths ["root.go"] = []) :=
  ⟨⟨packagesOfTree_sourceDir (by decide) (by decide) (by decide +kernel), by decide +kernel⟩,
    ⟨packagesOfTree_sourceDir (by decide) (by decide) (by decide +kernel), by decide +kernel⟩,
    ⟨packagesOfTree_sourceDir (by decide) (by decide) (by decide +kernel), by decide +kernel⟩,
    packagesOfTree_sourceDir (by decide) (by decide) (by decide +kernel), by decide +kernel⟩

end GoApi.Discovery
