import GoApi.Discovery.Checkout
import GoApi.Proofs.Discovery.Agreement
import GoApi.Proofs.Lists

/-!
# From a package back to its directory

A package is named after the directory that a walk has found it in, and its files are read from the directory that
the name leads to.  The name leads back exactly if no directory on the way has a backslash in its name
(`packageDir_packagePath_iff`).  The walk goes by paths that the file system resolves (`Stands`), also through links
that it follows, so what it finds is found again by its path (`found_of_mem_dirsOfTree`), and what is read there are
the regular files that are Go sources (`sourcesOf_eq_ok_iff`).
-/

namespace GoApi.Discovery

open Surface

/-! ## Names of packages -/

theorem mem_of_mem_trimSlashes {text : List Char} {c : Char} (h : c ∈ trimSlashes text) : c ∈ text := by
  have hright := (List.dropWhile_sublist _).subset (List.mem_reverse.1 h)
  exact (List.dropWhile_sublist _).subset (List.mem_reverse.1 hright)

theorem mem_of_mem_dropDotSlashes {text : List Char} {c : Char} (h : c ∈ dropDotSlashes text) : c ∈ text := by
  induction text using dropDotSlashes.induct with
  | case1 rest ih =>
    rw [dropDotSlashes] at h
    exact List.mem_cons_of_mem _ (List.mem_cons_of_mem _ (ih h))
  | case2 text hlead => rwa [dropDotSlashes.eq_2 text hlead] at h

theorem backslash_notMem_packagePath (dir : String) : '\\' ∉ (packagePath dir).toList := by
  have hmap : '\\' ∉ dir.toList.map fun c => if c = '\\' then '/' else c := by
    rw [List.mem_map]
    rintro ⟨c, _, hc⟩
    split at hc
    · cases hc
    · next hne => exact hne hc
  unfold packagePath
  generalize (dir.toList.map fun c => if c = '\\' then '/' else c) = text at hmap
  intro hmem
  dsimp only at hmem
  split at hmem
  · exact absurd hmem (by decide)
  · rw [String.toList_append, List.mem_append] at hmem
    rcases hmem with hmem | hmem
    · exact absurd hmem (by decide)
    · rw [String.toList_ofList] at hmem
      exact hmap (mem_of_mem_trimSlashes (mem_of_mem_dropDotSlashes hmem))

theorem mem_join_of_mem {c : Char} {names : List String} {name : String} (hname : name ∈ names)
    (hc : c ∈ name.toList) : c ∈ (Text.join "/" names).toList := by
  induction names with
  | nil => cases hname
  | cons first rest ih =>
    cases rest with
    | nil =>
      rw [List.mem_singleton.1 hname] at hc
      exact hc
    | cons next rest =>
      rw [Text.join.eq_3 _ _ _ (by simp), String.toList_append, String.toList_append, List.mem_append,
        List.mem_append]
      rcases List.mem_cons.1 hname with rfl | hname
      · exact .inl (.inl hc)
      · exact .inr (ih hname)

/-- The name of a package leads back to its directory exactly if no name on the way has a backslash. -/
theorem packageDir_packagePath_iff {names : List String} (hnames : ∀ name ∈ names, Path.IsEntry name) :
    packageDir (packagePath (Text.join "/" names)) = Text.join "/" names ↔ ∀ name ∈ names, '\\' ∉ name.toList := by
  constructor
  · intro h name hname hslash
    have hdir : '\\' ∈ (packageDir (packagePath (Text.join "/" names))).toList := by
      rw [h]
      exact mem_join_of_mem hname hslash
    rw [packageDir, String.toList_ofList] at hdir
    refine backslash_notMem_packagePath (Text.join "/" names) ?_
    exact (List.dropWhile_sublist _).subset ((List.dropWhile_sublist _).subset hdir)
  · intro hplain
    cases names with
    | nil => decide
    | cons first rest =>
      have hname : ∀ name ∈ first :: rest, Path.IsName name := fun name hm => ⟨hnames name hm, hplain name hm⟩
      rw [packagePath_join (by simp) hname, packageDir]
      have hbusy : ∀ part ∈ Path.parts (Text.join "/" (first :: rest)), Path.isIdle part = false := by
        rw [Path.parts_join (by simp) hnames]
        exact fun part hpart => (hnames part hpart).busy
      obtain ⟨-, hstart⟩ := Path.toList_ne_lead hbusy
      have hlead : ("./" ++ Text.join "/" (first :: rest)).toList =
          '.' :: '/' :: (Text.join "/" (first :: rest)).toList := by simp
      have hrest : (Text.join "/" (first :: rest)).toList.dropWhile (· == '/') =
          (Text.join "/" (first :: rest)).toList := by
        cases htext : (Text.join "/" (first :: rest)).toList with
        | nil => rfl
        | cons c cs =>
          refine List.dropWhile_cons_of_neg fun hc => hstart cs ?_
          rw [htext, beq_iff_eq.1 hc]
      rw [hlead, List.dropWhile_cons_of_pos (by rfl), List.dropWhile_cons_of_neg (by decide),
        List.dropWhile_cons_of_pos (by rfl), hrest, String.ofList_toList]

/-! ## Paths that lead to directories -/

/-- A tree of files, links and directories, as a file system has them: entries have names of their own. -/
inductive Tree.IsProper : Tree → Prop where
  | file (content : ByteArray) : IsProper (.file content)
  | link (target : String) : IsProper (.link target)
  | dir {entries : List (String × Tree)} (names : ∀ e ∈ entries, Path.IsEntry e.1)
      (distinct : (entries.map (·.1)).Nodup) (proper : ∀ e ∈ entries, IsProper e.2) : IsProper (.dir entries)

theorem lookup_of_mem {entries : List (String × Tree)} (h : (entries.map (·.1)).Nodup) {name : String} {t : Tree}
    (hmem : (name, t) ∈ entries) : entries.lookup name = some t := by
  have hsome : (entries.lookup name).isSome := List.lookup_isSome_iff.2 ⟨(name, t), hmem, by simp⟩
  obtain ⟨u, hu⟩ := Option.isSome_iff_exists.1 hsome
  obtain ⟨before, after, hentries, -⟩ := List.lookup_eq_some_iff.1 hu
  have hu' : (name, u) ∈ entries := by simp [hentries]
  rw [hu, (Prod.mk.inj (List.inj_on_of_nodup_map h hu' hmem rfl)).2]

theorem Tree.IsProper.at? {t : Tree} (h : t.IsProper) {place : List String} {t' : Tree}
    (hat : t.at? place = some t') : t'.IsProper := by
  induction place generalizing t with
  | nil => exact Option.some.inj hat ▸ h
  | cons name rest ih =>
    obtain ⟨u, hu, hrest⟩ := Option.bind_eq_some_iff.1 hat
    cases h with
    | file content => cases hu
    | link target => cases hu
    | dir names distinct proper =>
      obtain ⟨before, after, hentries, -⟩ := List.lookup_eq_some_iff.1 hu
      have hmem : (name, u) ∈ before ++ (name, u) :: after := by simp
      exact ih (proper _ (hentries ▸ hmem)) hrest

section Follow

variable {top : Tree} {place : List String} {entries inner : List (String × Tree)} {name : String}
  (hplace : top.at? place = some (.dir entries)) (hname : Path.IsEntry name)
  (hinner : top.at? (place ++ [name]) = some (.dir inner))

include hplace hname hinner

theorem followWith_concat {atLink : List String → List String → Option (List String)}
    (hlink : ∀ here parts, atLink here parts = some place → atLink here (parts ++ [name]) = some (place ++ [name]))
    {here parts : List String} (h : top.followWith atLink here parts = some place) :
    top.followWith atLink here (parts ++ [name]) = some (place ++ [name]) := by
  induction parts generalizing here with
  | nil =>
    obtain rfl : here = place := Option.some.inj h
    rw [List.nil_append, Tree.followWith, hinner]
    simp [hname.busy, hname.ne_up, Tree.followWith]
  | cons part rest ih =>
    rw [Tree.followWith] at h
    rw [List.cons_append, Tree.followWith]
    by_cases hidle : Path.isIdle part = true
    · rw [if_pos hidle] at h ⊢
      exact ih h
    · rw [if_neg hidle] at h ⊢
      by_cases hup : part = ".."
      · rw [if_pos hup] at h ⊢
        by_cases hempty : here.isEmpty = true
        · rw [if_pos hempty] at h
          cases h
        · rw [if_neg hempty] at h ⊢
          exact ih h
      · rw [if_neg hup] at h ⊢
        cases hat : top.at? (here ++ [part]) with
        | none =>
          rw [hat] at h
          cases h
        | some t =>
          rw [hat] at h
          cases t with
          | file content =>
            -- a path ends at a file, which is no directory
            cases rest with
            | nil =>
              obtain rfl : here ++ [part] = place := Option.some.inj h
              rw [hat] at hplace
              cases hplace
            | cons next rest => cases h
          | dir entries => exact ih h
          | link target =>
            dsimp only at h ⊢
            by_cases habsolute : (target.toList.head? == some '/') = true
            · rw [if_pos habsolute] at h
              cases h
            · rw [if_neg habsolute] at h ⊢
              rw [← List.append_assoc]
              exact hlink here _ h

/-- A path to a directory goes on to the directories inside. -/
theorem follow_concat {links : Nat} {here parts : List String} (h : top.follow links here parts = some place) :
    top.follow links here (parts ++ [name]) = some (place ++ [name]) := by
  induction links generalizing here parts with
  | zero => exact followWith_concat hplace hname hinner (fun _ _ hnone => by cases hnone) h
  | succ links ih => exact followWith_concat hplace hname hinner (fun _ _ hsome => ih hsome) h

end Follow

theorem isEmpty_join {names : List String} (hne : names ≠ []) (hnames : ∀ name ∈ names, Path.IsEntry name) :
    (Text.join "/" names).isEmpty = false := by
  cases names with
  | nil => exact absurd rfl hne
  | cons first rest =>
    have hfirst := (hnames first (by simp)).ne_empty
    cases rest with
    | nil => exact hfirst
    | cons next rest =>
      rw [Text.join.eq_3 _ _ _ (by simp)]
      simp_all

/-- The parts of a path below a root are those of the root and then the names. -/
theorem parts_below {root : String} (hroot : root.isEmpty = false) {names : List String}
    (hnames : ∀ name ∈ names, Path.IsEntry name) :
    Path.parts (below root (Text.join "/" names)) = Path.parts root ++ names := by
  by_cases hne : names = []
  · simp [hne, below, Text.join]
  · have hpieces : (root ++ "/" ++ Text.join "/" names).toList =
        root.toList ++ '/' :: (Text.join "/" names).toList := by simp
    have hparts := Path.parts_join hne hnames
    unfold Path.parts Text.pieces at hparts ⊢
    rw [below, isEmpty_join hne hnames, hroot]
    simp only [Bool.false_eq_true, if_false]
    rw [hpieces, Text.splitOn_append_sep, List.map_append, hparts]

/-- A path that leads somewhere is not empty and does not start at the top of the file system. -/
theorem relative_of_locate? {top : Tree} {root : String} {place : List String}
    (h : top.locate? [] root = some place) : root.isEmpty = false ∧ (root.toList.head? == some '/') = false := by
  unfold Tree.locate? at h
  split at h
  · cases h
  · next hne => simpa using hne

theorem locate?_below {root : String} (hempty : root.isEmpty = false)
    (hrelative : (root.toList.head? == some '/') = false) {names : List String}
    (hnames : ∀ name ∈ names, Path.IsEntry name) (top : Tree) :
    top.locate? [] (below root (Text.join "/" names)) =
      top.follow Tree.linkLimit [] (Path.parts root ++ names) := by
  have hfront : ∃ rest, (below root (Text.join "/" names)).toList = root.toList ++ rest := by
    unfold below
    split
    · exact ⟨[], by simp⟩
    · rw [hempty]
      exact ⟨'/' :: (Text.join "/" names).toList, by simp⟩
  obtain ⟨rest, hrest⟩ := hfront
  cases htext : root.toList with
  | nil =>
    rw [String.toList_eq_nil_iff] at htext
    simp [htext] at hempty
  | cons c cs =>
    rw [htext] at hrelative hrest
    have hne : (below root (Text.join "/" names)).isEmpty = false := by
      rw [← Bool.not_eq_true, String.isEmpty_iff, ← String.toList_eq_nil_iff, hrest]
      simp
    rw [Tree.locate?, hne, hrest, List.cons_append, List.head?_cons]
    rw [List.head?_cons] at hrelative
    rw [hrelative, parts_below hempty hnames]
    rfl

/-! ## What a walk finds -/

/-- A walk stands in a directory that its path leads to. -/
structure Walk.Stands (w : Walk) (root names : List String) (entries : List (String × Tree)) (p : Position) :
    Prop where
  rooted : w.top.locate? [] w.root = some root
  depth : w.rootDepth = root.length
  path : p.path = root ++ names
  named : ∀ name ∈ names, Path.IsEntry name
  located : w.top.locate? [] (below w.root (Text.join "/" names)) = some (p.places.headD [])
  inside : w.top.at? (p.places.headD []) = some (.dir entries)

/-- An entry that makes its directory a package: a source, or a link if links are followed. -/
def IsSourceEntry (followLinks : Bool) (e : String × Tree) : Prop :=
  isGoSource e.1 = true ∧ ((∃ content, e.2 = .file content) ∨ (followLinks = true ∧ ∃ target, e.2 = .link target))

/-- A directory below the root of a walk that its path leads to, and that has a source. -/
structure Walk.Finds (w : Walk) (names : List String) : Prop where
  named : ∀ name ∈ names, Path.IsEntry name
  directory : ∃ entries, w.top.find? [] (below w.root (Text.join "/" names)) = some (.dir entries) ∧
    ∃ e ∈ entries, IsSourceEntry w.followLinks e

namespace Walk.Stands

variable {w : Walk} {root names : List String} {entries : List (String × Tree)} {p : Position}

/-- A walk starts in the directory that it is given. -/
theorem start (hrooted : w.top.locate? [] w.root = some root) (hdepth : w.rootDepth = root.length)
    (hpath : p.path = root) (hplaces : p.places = [root]) (hinside : w.top.at? root = some (.dir entries)) :
    w.Stands root [] entries p where
  rooted := hrooted
  depth := hdepth
  path := by rw [hpath, List.append_nil]
  named := by simp
  located := by
    rw [hplaces]
    exact hrooted
  inside := by
    rw [hplaces]
    exact hinside

theorem pathTo (h : w.Stands root names entries p) (name : String) :
    w.pathTo p name = below w.root (Text.join "/" (names ++ [name])) := by
  rw [Walk.pathTo, h.path, h.depth, List.append_assoc, List.drop_left]

theorem finds (h : w.Stands root names entries p) {e : String × Tree} (he : e ∈ entries)
    (hsource : IsSourceEntry w.followLinks e) : w.Finds names where
  named := h.named
  directory := by
    refine ⟨entries, ?_, e, he, hsource⟩
    rw [Tree.find?, h.located, Option.bind_some, h.inside]

/-- The walk enters a place that the path to it leads to. -/
theorem enter (h : w.Stands root names entries p) {name : String} (hname : Path.IsEntry name) {place : List String}
    (hlocated : w.top.locate? [] (below w.root (Text.join "/" (names ++ [name]))) = some place)
    {inner : List (String × Tree)} (hinside : w.top.at? place = some (.dir inner)) :
    w.Stands root (names ++ [name]) inner (w.enter p name place) where
  rooted := h.rooted
  depth := h.depth
  path := by rw [Walk.enter, h.path, List.append_assoc]
  named := by
    intro n hn
    rcases List.mem_append.1 hn with hn | hn
    · exact h.named n hn
    · exact List.mem_singleton.1 hn ▸ hname
  located := hlocated
  inside := hinside

/-- The walk enters a directory by its name. -/
theorem enterDir (h : w.Stands root names entries p) (hproper : (Tree.dir entries).IsProper) {name : String}
    {inner : List (String × Tree)} (hmem : (name, Tree.dir inner) ∈ entries) :
    w.Stands root (names ++ [name]) inner (w.enter p name (p.places.headD [] ++ [name])) := by
  cases hproper with
  | dir hnames hdistinct hproper =>
    have hname : Path.IsEntry name := hnames _ hmem
    have hinner : w.top.at? (p.places.headD [] ++ [name]) = some (.dir inner) := by
      rw [Tree.at?_concat, h.inside]
      exact lookup_of_mem hdistinct hmem
    obtain ⟨hempty, hrelative⟩ := relative_of_locate? h.rooted
    have hnamed : ∀ n ∈ names ++ [name], Path.IsEntry n := by
      intro n hn
      rcases List.mem_append.1 hn with hn | hn
      · exact h.named n hn
      · exact List.mem_singleton.1 hn ▸ hname
    refine h.enter hname ?_ hinner
    have hhere := h.located
    rw [locate?_below hempty hrelative h.named] at hhere
    rw [locate?_below hempty hrelative hnamed, ← List.append_assoc]
    exact follow_concat h.inside hname hinner hhere

end Walk.Stands

/-- What is found from wherever the walk may stand leads to directories with a source. -/
def Walk.Sound (w : Walk) (root : List String) (atLink : Walk.AtLink) : Prop :=
  ∀ names entries p, w.Stands root names entries p → ∀ name target, (name, Tree.link target) ∈ entries →
    Path.IsEntry name → ∀ path ∈ atLink p name, ∃ found, path = root ++ found ∧ w.Finds found

section Walks

variable {w : Walk} {root : List String} {atLink : Walk.AtLink} (hlink : w.Sound root atLink)

include hlink

theorem findEntry_sound {t : Tree} (ht : t.IsProper) {names : List String} {entries : List (String × Tree)}
    {p : Position} (hp : w.Stands root names entries p) (hproper : (Tree.dir entries).IsProper) {name : String}
    (hmem : (name, t) ∈ entries) {path : List String} (hpath : path ∈ w.findEntry atLink p name t) :
    ∃ found, path = root ++ found ∧ w.Finds found := by
  induction ht generalizing names entries p name with
  | file content =>
    rw [Walk.findEntry] at hpath
    split at hpath
    · next hsees =>
      rw [List.mem_singleton.1 hpath]
      have hsource : isGoSource name = true := by
        unfold Walk.seesFile at hsees
        exact (Bool.and_eq_true_iff.1 hsees).1
      exact ⟨names, hp.path, hp.finds hmem ⟨hsource, .inl ⟨content, rfl⟩⟩⟩
    · cases hpath
  | link target =>
    rw [Walk.findEntry] at hpath
    cases hproper with
    | dir hnames _ _ => exact hlink names entries p hp name target hmem (hnames _ hmem) path hpath
  | @dir inner hnames hdistinct hinner ih =>
    rw [Walk.findEntry] at hpath
    split at hpath
    · rw [Walk.findAll_eq_flatMap] at hpath
      obtain ⟨e, he, hpath⟩ := List.mem_flatMap.1 hpath
      exact ih e he (hp.enterDir hproper hmem) (.dir hnames hdistinct hinner) he hpath
    · cases hpath

theorem findAll_sound {names : List String} {entries : List (String × Tree)} {p : Position}
    (hp : w.Stands root names entries p) (hproper : (Tree.dir entries).IsProper) {path : List String}
    (hpath : path ∈ w.findAll atLink p entries) : ∃ found, path = root ++ found ∧ w.Finds found := by
  rw [Walk.findAll_eq_flatMap] at hpath
  obtain ⟨e, he, hpath⟩ := List.mem_flatMap.1 hpath
  have ht : e.2.IsProper := by
    cases hproper with
    | dir _ _ hproper => exact hproper e he
  exact findEntry_sound hlink ht hp hproper he hpath

end Walks

/-- Every link that a walk follows leads to directories with a source. -/
theorem atLink_sound {w : Walk} (htop : w.top.IsProper) (root : List String) (links : Nat) :
    w.Sound root (w.atLink links) := by
  induction links with
  | zero =>
    intro names entries p _ name target _ _ path hpath
    cases hpath
  | succ links ih =>
    intro names entries p hp name target hmem hname path hpath
    unfold Walk.atLink at hpath
    split at hpath
    · cases hpath
    · next hfollow =>
      have hfollow : w.followLinks = true := by simpa using hfollow
      rw [hp.pathTo] at hpath
      split at hpath
      · cases hpath
      · next place hplace =>
        split at hpath
        · next content hat =>
          split at hpath
          · next hsees =>
            rw [List.mem_singleton.1 hpath]
            have hsource : isGoSource name = true := by
              unfold Walk.seesFile at hsees
              exact (Bool.and_eq_true_iff.1 hsees).1
            exact ⟨names, hp.path, hp.finds hmem ⟨hsource, .inr ⟨hfollow, target, rfl⟩⟩⟩
          · cases hpath
        · next inner hat =>
          split at hpath
          · cases hpath
          · exact findAll_sound ih (hp.enter hname hplace hat) (htop.at? hat) hpath
        · cases hpath

/-- Every directory that a walk finds a package in is found again by its path, and has a source. -/
theorem finds_of_mem_dirsOfTree (s : Selection) {top : Tree} (htop : top.IsProper) {root : String}
    {dirs : List (List String)} (h : s.dirsOfTree top root = .ok dirs) {names : List String} (hnames : names ∈ dirs) :
    (∀ name ∈ names, Path.IsEntry name) ∧
      ∃ entries, top.find? [] (below root (Text.join "/" names)) = some (.dir entries) ∧
        ∃ e ∈ entries, IsSourceEntry s.followLinks e := by
  unfold Selection.dirsOfTree at h
  split at h
  · cases h
  · next place hplace =>
    split at h
    · next entries hentries =>
      cases h
      obtain ⟨path, hpath, rfl⟩ := List.mem_map.1 hnames
      obtain ⟨found, rfl, hfound⟩ := findAll_sound (atLink_sound htop place _)
        (.start hplace rfl rfl rfl hentries) (htop.at? hentries) hpath
      rw [List.drop_left]
      exact ⟨hfound.named, hfound.directory⟩
    · cases h

/-! ## What is read in a directory -/

/-- The sources that are read in a directory: all regular files that are Go sources and no tests, in the order of
their names. -/
structure Lists (entries : List (String × Tree)) (files : List SourceFile) : Prop where
  readable : ∀ name content, (name, Tree.file content) ∈ entries → isGoSource name = true →
    (Text.Utf8.decode? content.data.toList).isSome = true
  ascending : files.Pairwise (·.name < ·.name)
  exact : ∀ f, f ∈ files ↔ ∃ content, (f.name, Tree.file content) ∈ entries ∧ isGoSource f.name = true ∧
    Text.Utf8.decode? content.data.toList = some f.source

/-- The source of an entry. -/
def sourceOfEntry (e : String × Tree) : Except LoadError (Option SourceFile) :=
  match e.2 with
  | .file content => if isGoSource e.1 then some <$> sourceOf e.1 content else .ok none
  | _ => .ok none

theorem sourceOfEntry_isOk_iff (e : String × Tree) :
    (sourceOfEntry e).isOk = true ↔ ∀ content, e.2 = .file content → isGoSource e.1 = true →
      (Text.Utf8.decode? content.data.toList).isSome = true := by
  obtain ⟨name, t⟩ := e
  cases t with
  | file content =>
    cases hsource : isGoSource name <;> cases hdecode : Text.Utf8.decode? content.data.toList <;>
      simp [sourceOfEntry, sourceOf, hsource, hdecode, Except.isOk, Except.toBool, Functor.map, Except.map]
  | _ => simp [sourceOfEntry, Except.isOk, Except.toBool]

theorem sourceOfEntry_eq_some_iff (e : String × Tree) (f : SourceFile) :
    (sourceOfEntry e).toOption.join = some f ↔ f.name = e.1 ∧ ∃ content, e.2 = .file content ∧
      isGoSource e.1 = true ∧ Text.Utf8.decode? content.data.toList = some f.source := by
  obtain ⟨name, t⟩ := e
  obtain ⟨fname, source⟩ := f
  cases t with
  | file content =>
    cases hsource : isGoSource name <;> cases hdecode : Text.Utf8.decode? content.data.toList <;>
      simp [sourceOfEntry, sourceOf, hsource, hdecode, Except.toOption, Functor.map, Except.map, eq_comm]
  | _ => simp [sourceOfEntry, Except.toOption]

/-- Reading a directory gives exactly its sources, or fails at one that is no text. -/
theorem sourcesOf_eq_ok_iff {entries : List (String × Tree)} (hdistinct : (entries.map (·.1)).Nodup)
    (files : List SourceFile) : sourcesOf entries = .ok files ↔ Lists entries files := by
  have hsources : sourcesOf entries = (sortBy (·.1) entries).filterMapM sourceOfEntry := rfl
  rw [hsources, filterMapM_eq_ok_iff]
  have hread : (∀ e ∈ sortBy (·.1) entries, (sourceOfEntry e).isOk = true) ↔ ∀ name content,
      (name, Tree.file content) ∈ entries → isGoSource name = true →
        (Text.Utf8.decode? content.data.toList).isSome = true := by
    simp only [mem_sortBy, sourceOfEntry_isOk_iff]
    constructor
    · exact fun h name content hmem => h _ hmem content rfl
    · rintro h ⟨name, t⟩ hmem content rfl
      exact h name content hmem
  have hmem : ∀ f, f ∈ (sortBy (·.1) entries).filterMap (fun e => (sourceOfEntry e).toOption.join) ↔
      ∃ content, (f.name, Tree.file content) ∈ entries ∧ isGoSource f.name = true ∧
        Text.Utf8.decode? content.data.toList = some f.source := by
    intro f
    simp only [List.mem_filterMap, mem_sortBy, sourceOfEntry_eq_some_iff]
    constructor
    · rintro ⟨⟨name, t⟩, he, hname, content, rfl, hsource, hdecode⟩
      dsimp only at hname hsource
      rw [hname]
      exact ⟨content, he, hsource, hdecode⟩
    · rintro ⟨content, he, hsource, hdecode⟩
      exact ⟨_, he, rfl, content, rfl, hsource, hdecode⟩
  have hascending : ((sortBy (·.1) entries).filterMap fun e => (sourceOfEntry e).toOption.join).Pairwise
      (·.name < ·.name) := by
    -- distinct names in order are strictly in order, and a source has the name of its entry
    have hstrict : (sortBy (·.1) entries).Pairwise (·.1 < ·.1) := by
      have hnodup : ((sortBy (·.1) entries).map (·.1)).Nodup := ((sortBy_perm (·.1) entries).map _).nodup_iff.2 hdistinct
      have hne : (sortBy (·.1) entries).Pairwise (·.1 ≠ ·.1) := List.pairwise_map.1 hnodup
      refine ((sortedBy_sortBy (·.1) entries).and hne).imp ?_
      rintro a b ⟨hle, hne⟩
      rcases Std.lt_trichotomy a.1 b.1 with hlt | heq | hlt
      · exact hlt
      · exact absurd heq hne
      · exact absurd hlt hle
    refine List.pairwise_filterMap.2 (hstrict.imp fun {a b} hab f hf g hg => ?_)
    rw [((sourceOfEntry_eq_some_iff a f).1 hf).1, ((sourceOfEntry_eq_some_iff b g).1 hg).1]
    exact hab
  constructor
  · rintro ⟨hok, rfl⟩
    exact ⟨hread.1 hok, hascending, hmem⟩
  · intro h
    refine ⟨hread.2 h.readable, ?_⟩
    exact eq_of_pairwise_lt (·.name) hascending h.ascending fun f => (hmem f).trans (h.exact f).symm

theorem files_checkout (s : Selection) (top : Tree) (root package : String) :
    (checkout s top root).files package =
      sourcesOf (((top.find? [] (below root (packageDir package))).map Tree.entries).getD []) := by
  rw [checkout]

/-- The packages of a directory are named after the directories in which a walk finds one.  Each such directory is
found again by its path and has a source, as a file or, if links are followed, as a link.  Its package leads back
to it exactly if no name on the way has a backslash; then reading the package gives exactly the sources among the
files of the directory, and no other directory without backslashes has that package.

This is about trees: all names are UTF-8, and a link with an absolute target leads nowhere. -/
theorem packages_lead_back (s : Selection) {top : Tree} (htop : top.IsProper) {root : String}
    {dirs : List (List String)} (h : s.dirsOfTree top root = .ok dirs) :
    (∃ packages, (checkout s top root).packages = .ok packages ∧ ∀ package, package ∈ packages ↔
      s.takesPart package = true ∧ ∃ d ∈ dirs, packagePath (Text.join "/" d) = package) ∧
    ∀ d ∈ dirs, ∃ entries, top.find? [] (below root (Text.join "/" d)) = some (.dir entries) ∧
      (∃ e ∈ entries, IsSourceEntry s.followLinks e) ∧
      (packageDir (packagePath (Text.join "/" d)) = Text.join "/" d ↔ ∀ name ∈ d, '\\' ∉ name.toList) ∧
      ((∀ name ∈ d, '\\' ∉ name.toList) →
        (∀ files, (checkout s top root).files (packagePath (Text.join "/" d)) = .ok files ↔ Lists entries files) ∧
        ∀ d' ∈ dirs, (∀ name ∈ d', '\\' ∉ name.toList) →
          packagePath (Text.join "/" d') = packagePath (Text.join "/" d) → d' = d) := by
  constructor
  · refine ⟨s.filter (dirs.map fun d => packagePath (Text.join "/" d)), ?_, fun package => ?_⟩
    · show s.packagesOfTree top root = _
      rw [Selection.packagesOfTree, h]
      rfl
    · rw [Selection.mem_filter, List.mem_map, and_comm]
  · intro d hd
    obtain ⟨hnamed, entries, hfind, hsource⟩ := finds_of_mem_dirsOfTree s htop h hd
    have hback := packageDir_packagePath_iff hnamed
    refine ⟨entries, hfind, hsource, hback, fun hplain => ⟨fun files => ?_, fun d' hd' hplain' heq => ?_⟩⟩
    · have hdistinct : (entries.map (·.1)).Nodup := by
        obtain ⟨place, -, hat⟩ := Option.bind_eq_some_iff.1 hfind
        cases htop.at? hat with
        | dir _ hdistinct _ => exact hdistinct
      rw [← sourcesOf_eq_ok_iff hdistinct, files_checkout, hback.2 hplain, hfind, Option.map_some, Option.getD_some,
        Tree.entries]
    · obtain ⟨hnamed', -⟩ := finds_of_mem_dirsOfTree s htop h hd'
      exact packagePath_inj (fun name hm => ⟨hnamed' name hm, hplain' name hm⟩)
        (fun name hm => ⟨hnamed name hm, hplain name hm⟩) heq

/-- A package with a test, a package inside, and a link to that one. -/
def linkedTree : Tree :=
  .dir [("pkg", .dir [("a.go", .file default), ("a_test.go", .file default), ("sub", sourceDir ["b.go"])]),
    ("via", .link "pkg/sub")]

theorem sourceDir_isProper {names : List String} (hnames : ∀ name ∈ names, Path.IsEntry name)
    (hdistinct : names.Nodup) : (sourceDir names).IsProper := by
  refine .dir (fun e he => ?_) ?_ fun e he => ?_
  · obtain ⟨name, hname, rfl⟩ := List.mem_map.1 he
    exact hnames name hname
  · rwa [List.map_map, show (fun e : String × Tree => e.1) ∘ (fun name => (name, Tree.file default)) = id from rfl,
      List.map_id]
  · obtain ⟨name, -, rfl⟩ := List.mem_map.1 he
    exact .file default

theorem linkedTree_isProper : linkedTree.IsProper := by
  refine .dir (by decide) (by decide) (List.forall_mem_cons.2 ⟨?_, List.forall_mem_singleton.2 (.link _)⟩)
  refine .dir (by decide) (by decide) (List.forall_mem_cons.2 ⟨.file _, List.forall_mem_cons.2 ⟨.file _, ?_⟩⟩)
  exact List.forall_mem_singleton.2 (sourceDir_isProper (by decide) (by decide))

theorem packages_lead_back_linked :
    ({ followLinks := true } : Selection).dirsOfTree linkedTree "." = .ok [["pkg"], ["pkg", "sub"], ["via"]] ∧
      packageDir (packagePath "via") = "via" ∧
      ∃ entries, linkedTree.find? [] "./via" = some (.dir entries) ∧
        ∀ files, (checkout { followLinks := true } linkedTree ".").files (packagePath "via") = .ok files ↔
          Lists entries files := by
  have hdirs : ({ followLinks := true } : Selection).dirsOfTree linkedTree "." =
      .ok [["pkg"], ["pkg", "sub"], ["via"]] := by decide +kernel
  obtain ⟨-, hback⟩ := packages_lead_back { followLinks := true } linkedTree_isProper hdirs
  obtain ⟨entries, hfind, -, hname, hfiles⟩ := hback ["via"] (by simp)
  exact ⟨hdirs, hname.2 (by decide), entries, hfind, (hfiles (by decide)).1⟩

/-- A directory that has a backslash in its name. -/
def backslashTree : Tree := .dir [("a\\b", sourceDir ["x.go"])]

/-- A source in one directory, and a link to it in another. -/
def linkedSourceTree : Tree := .dir [("x", sourceDir ["src.go"]), ("y", .dir [("a.go", .link "../x/src.go")])]

/-- A package whose directory has a backslash in its name is read as absent, or as another one, and so is one that
has only links to sources. -/
theorem packages_lead_astray :
    ((checkout {} backslashTree ".").packages = .ok ["./a/b"] ∧
      (checkout {} backslashTree ".").files "./a/b" = .ok []) ∧
    ({} : Selection).dirsOfTree (.dir [("a\\b", sourceDir ["x.go"]), ("a", .dir [("b", sourceDir ["y.go"])])]) "." =
      .ok [["a\\b"], ["a", "b"]] ∧
    packagePath "a\\b" = packagePath "a/b" ∧
    (checkout { followLinks := true } linkedSourceTree ".").packages = .ok ["./x", "./y"] ∧
    (checkout { followLinks := true } linkedSourceTree ".").files "./y" = .ok [] := by
  decide +kernel

end GoApi.Discovery
