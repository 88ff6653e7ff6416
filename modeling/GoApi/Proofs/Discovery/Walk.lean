import GoApi.Discovery.Walk
import GoApi.Proofs.Discovery.Path
import Mathlib.Data.List.Infix

/-!
# A walk sees a file by its path

In a plain tree, of files and directories without ignore files and repositories, a walk meets only the patterns
of its selection.  Whether it sees a file then depends on the names on the way to it alone (`Walk.reaches`), and
what it finds is a filter over the files of the tree (`Walk.findAll_eq`).
-/

namespace GoApi.Discovery

open Surface

/-- The names of ignore files, and of what makes a directory the top of a repository. -/
def ignoreNames : List String := [".gitignore", ".ignore", ".git", ".apidiffignore"]

namespace Tree

/-- A tree of files and directories, without ignore files and repositories. -/
inductive IsPlain : Tree → Prop where
  | file (content : ByteArray) : IsPlain (.file content)
  | dir {entries : List (String × Tree)} (names : ∀ e ∈ entries, Path.IsEntry e.1)
      (quiet : ∀ e ∈ entries, e.1 ∉ ignoreNames) (plain : ∀ e ∈ entries, IsPlain e.2) : IsPlain (.dir entries)

variable {t top : Tree}

theorem IsPlain.at? (h : t.IsPlain) {place : List String} {t' : Tree} (hat : t.at? place = some t') :
    t'.IsPlain := by
  induction place generalizing t with
  | nil => exact Option.some.inj hat ▸ h
  | cons name rest ih =>
    obtain ⟨u, hu, hrest⟩ := Option.bind_eq_some_iff.1 hat
    cases h with
    | file content => cases hu
    | dir names quiet plain =>
      obtain ⟨before, after, hentries, -⟩ := List.lookup_eq_some_iff.1 hu
      have hmem : (name, u) ∈ before ++ (name, u) :: after := by simp
      exact ih (plain _ (hentries ▸ hmem)) hrest

theorem at?_concat (t : Tree) (place : List String) (name : String) :
    t.at? (place ++ [name]) = (t.at? place).bind fun u => u.entries.lookup name := by
  induction place generalizing t with
  | nil => simp [Tree.at?]
  | cons first rest ih =>
    rw [List.cons_append, Tree.at?, Tree.at?, Option.bind_assoc]
    exact congrArg _ (funext fun u => ih u)

/-- Nothing in a plain tree has the name of an ignore file. -/
theorem IsPlain.at?_eq_none (h : top.IsPlain) {name : String} (hname : name ∈ ignoreNames) (place : List String) :
    top.at? (place ++ [name]) = none := by
  rw [at?_concat]
  cases hat : top.at? place with
  | none => rfl
  | some t =>
    cases h.at? hat with
    | file content => rfl
    | dir names quiet plain =>
      refine List.lookup_eq_none_iff.2 fun e he => ?_
      rw [bne_iff_ne]
      rintro rfl
      exact quiet e he hname

theorem busy_of_mem_ignoreNames : ∀ name ∈ ignoreNames, Path.isIdle name = false ∧ name ≠ ".." := by decide

/-- No path through an ignore file leads anywhere in a plain tree. -/
theorem IsPlain.find?_eq_none (h : top.IsPlain) {path : String}
    (hpath : ∃ name ∈ ignoreNames, (Path.parts path).head? = some name) (place : List String) :
    top.find? place path = none := by
  obtain ⟨name, hname, hhead⟩ := hpath
  obtain ⟨rest, hparts⟩ := List.head?_eq_some_iff.1 hhead
  obtain ⟨hbusy, hup⟩ := busy_of_mem_ignoreNames name hname
  have hfollow : top.follow linkLimit place (name :: rest) = none := by
    show top.followWith _ place (name :: rest) = none
    rw [followWith, h.at?_eq_none hname]
    simp [hbusy, hup]
  unfold find? locate?
  rw [hparts, hfollow]
  split <;> rfl

end Tree

/-! ## Ignore files -/

namespace Scope

/-- A directory whose ignore files say nothing. -/
structure IsSilent (s : Scope) : Prop where
  own : s.own = []
  general : s.general = []
  versioned : s.versioned = []
  excluded : s.excluded = []

theorem ofDir_isSilent {top : Tree} (h : top.IsPlain) (place : List String) (depth : Nat) :
    (ofDir top place depth).IsSilent := by
  have hread {path : String} (hpath : ∃ name ∈ ignoreNames, (Path.parts path).head? = some name) :
      ((top.read? place path).map Pattern.ofFile).getD [] = [] := by
    rw [Tree.read?, h.find?_eq_none hpath]
    rfl
  exact ⟨hread (by decide), hread (by decide), hread (by decide), hread (by decide)⟩

theorem mem_of_mem_inRepository {scopes : List Scope} {s : Scope} (h : s ∈ inRepository scopes) : s ∈ scopes := by
  induction scopes with
  | nil => exact h
  | cons first rest ih =>
    rw [inRepository] at h
    split at h
    · exact List.mem_cons.2 (Or.inl (List.mem_singleton.1 h))
    · split at h
      · cases h
      · next inner =>
        rcases List.mem_cons.1 h with rfl | h
        · exact List.mem_cons_self
        · exact List.mem_cons_of_mem _ (ih h)

theorem decide_eq_none {kind : Scope → List Pattern} {scopes : List Scope} (h : ∀ s ∈ scopes, kind s = [])
    (path : List String) (isDir : Bool) : decide kind scopes path isDir = none := by
  unfold decide
  rw [List.findSome?_eq_none_iff]
  intro s hs
  rw [h s hs]
  rfl

theorem leavesOut_eq_false {scopes : List Scope} (h : ∀ s ∈ scopes, s.IsSilent) (path : List String)
    (isDir : Bool) : leavesOut scopes path isDir = false := by
  have hinside : ∀ s ∈ inRepository scopes, s.IsSilent := fun s hs => h s (mem_of_mem_inRepository hs)
  simp only [leavesOut, decide_eq_none fun s hs => (h s hs).own, decide_eq_none fun s hs => (h s hs).general,
    decide_eq_none fun s hs => (hinside s hs).versioned, decide_eq_none fun s hs => (hinside s hs).excluded]
  rfl

end Scope

/-! ## Files by their places -/

namespace Tree

mutual

/-- Files are told by their places below a place. -/
theorem leaves_eq_map (place : List String) : ∀ t : Tree,
    t.leaves place = (t.leaves []).map fun leaf => (place ++ leaf.1, leaf.2)
  | .file _ => by simp [leaves]
  | .link _ => by simp [leaves]
  | .dir entries => by
    rw [leaves, leaves]
    exact leavesAll_eq_map place entries

theorem leavesAll_eq_map (place : List String) : ∀ entries : List (String × Tree),
    leavesAll place entries = (leavesAll [] entries).map fun leaf => (place ++ leaf.1, leaf.2)
  | [] => rfl
  | (name, t) :: rest => by
    rw [leavesAll, leavesAll, List.map_append, leavesAll_eq_map place rest, List.nil_append,
      leaves_eq_map (place ++ [name]) t, leaves_eq_map [name] t, List.map_map]
    simp

end

theorem leavesAll_eq_flatMap (entries : List (String × Tree)) :
    leavesAll [] entries =
      entries.flatMap fun e => (e.2.leaves []).map fun leaf => (e.1 :: leaf.1, leaf.2) := by
  induction entries with
  | nil => rfl
  | cons e rest ih =>
    rw [leavesAll, ih, List.flatMap_cons, List.nil_append, leaves_eq_map [e.1] e.2]
    rfl

/-- A file below a directory is a file at or below one of its entries. -/
theorem mem_leavesAll {entries : List (String × Tree)} {leaf : List String × ByteArray}
    (h : leaf ∈ leavesAll [] entries) :
    ∃ e ∈ entries, ∃ leaf' ∈ e.2.leaves [], leaf.1 = e.1 :: leaf'.1 := by
  rw [leavesAll_eq_flatMap, List.mem_flatMap] at h
  obtain ⟨e, he, hleaf⟩ := h
  obtain ⟨leaf', hleaf', rfl⟩ := List.mem_map.1 hleaf
  exact ⟨e, he, leaf', hleaf', rfl⟩

theorem IsPlain.isEntry {t : Tree} (h : t.IsPlain) {leaf : List String × ByteArray} (hleaf : leaf ∈ t.leaves [])
    {name : String} (hname : name ∈ leaf.1) : Path.IsEntry name := by
  induction h generalizing leaf with
  | file content =>
    rw [leaves, List.mem_singleton] at hleaf
    rw [hleaf] at hname
    cases hname
  | dir names quiet plain ih =>
    obtain ⟨e, he, leaf', hleaf', hleaf⟩ := mem_leavesAll hleaf
    rw [hleaf] at hname
    rcases List.mem_cons.1 hname with rfl | hname
    · exact names e he
    · exact ih e he hleaf' hname

end Tree

/-! ## The walk -/

namespace Walk

/-- Whether a walk sees a file, by the names on the way to it from a place below its root. -/
def reaches (patterns : List Pattern) (before : List String) : List String → Bool
  | [] => false
  | [file] => isGoSource file && !patterns.any (·.covers (Text.join "/" (before ++ [file])) false)
  | dir :: rest =>
    !skipsDir dir && !patterns.any (·.covers (Text.join "/" (before ++ [dir])) true) &&
      reaches patterns (before ++ [dir]) rest

theorem reaches_dir (patterns : List Pattern) (before : List String) (dir : String) {rest : List String}
    (h : rest ≠ []) :
    reaches patterns before (dir :: rest) =
      (!skipsDir dir && !patterns.any (·.covers (Text.join "/" (before ++ [dir])) true) &&
        reaches patterns (before ++ [dir]) rest) := by
  cases rest with
  | nil => exact absurd rfl h
  | cons next rest => rfl

/-- A walk sees a source if no directory on the way is skipped and no pattern is for the file or a directory on the
way. -/
theorem reaches_eq (patterns : List Pattern) (before dirs : List String) (file : String) :
    reaches patterns before (dirs ++ [file]) =
      (isGoSource file && !dirs.any skipsDir &&
        !(patterns.any (·.covers (Text.join "/" (before ++ (dirs ++ [file]))) false) ||
          dirs.inits.tail.any fun above => patterns.any (·.covers (Text.join "/" (before ++ above)) true))) := by
  induction dirs generalizing before with
  | nil => simp [reaches]
  | cons dir dirs ih =>
    have hinits : (dir :: dirs).inits.tail = [dir] :: dirs.inits.tail.map (dir :: ·) := by
      cases dirs <;> simp
    rw [List.cons_append, reaches_dir _ _ _ (by simp), ih, hinits, List.any_cons, List.any_cons, List.any_map]
    simp only [Function.comp_def, List.append_assoc, List.singleton_append]
    cases skipsDir dir <;> cases patterns.any (·.covers (Text.join "/" (before ++ [dir])) true) <;> simp

/-- A walk stands below its root, and no ignore file says anything of what is below. -/
structure StandsAt (w : Walk) (root before : List String) (p : Position) : Prop where
  depth : w.rootDepth = root.length
  path : p.path = root ++ before
  silent : ∀ s ∈ p.scopes, s.IsSilent

namespace StandsAt

variable {w : Walk} {root before : List String} {p : Position}

theorem enter (h : w.StandsAt root before p) (htop : w.top.IsPlain) (name : String) (place : List String) :
    w.StandsAt root (before ++ [name]) (w.enter p name place) where
  depth := h.depth
  path := by rw [Walk.enter, h.path, List.append_assoc]
  silent := by
    intro s hs
    rcases List.mem_cons.1 hs with rfl | hs
    · exact Scope.ofDir_isSilent htop place _
    · exact h.silent s hs

theorem leavesOut (h : w.StandsAt root before p) (name : String) (isDir : Bool) :
    w.leavesOut p name isDir = w.patterns.any (·.covers (Text.join "/" (before ++ [name])) isDir) := by
  have hpath : (p.path ++ [name]).drop w.rootDepth = before ++ [name] := by
    rw [h.path, h.depth, List.append_assoc, List.drop_left]
  simp only [Walk.leavesOut, Scope.leavesOut_eq_false h.silent, hpath, Bool.or_false]

end StandsAt

/-- The directory of a file that a walk sees. -/
def dirOf? (w : Walk) (root before names : List String) : Option (List String) :=
  if reaches w.patterns before names then some (root ++ (before ++ names).dropLast) else none

theorem findAll_eq_flatMap (w : Walk) (atLink : AtLink) (p : Position) (entries : List (String × Tree)) :
    w.findAll atLink p entries = entries.flatMap fun e => w.findEntry atLink p e.1 e.2 := by
  induction entries with
  | nil => rfl
  | cons e rest ih => rw [findAll, ih, List.flatMap_cons]

/-- What a walk finds at or below an entry of a plain tree. -/
theorem findEntry_eq {w : Walk} (htop : w.top.IsPlain) (atLink : AtLink) {root before : List String} {p : Position}
    (hp : w.StandsAt root before p) (name : String) {t : Tree} (ht : t.IsPlain) :
    w.findEntry atLink p name t = (t.leaves []).filterMap fun leaf => w.dirOf? root before (name :: leaf.1) := by
  induction ht generalizing before p name with
  | file content =>
    rw [findEntry, seesFile, hp.leavesOut, Tree.leaves, List.filterMap_cons, List.filterMap_nil, dirOf?, reaches,
      hp.path, List.dropLast_concat]
    split <;> rfl
  | @dir entries names quiet plain ih =>
    -- a file below the directory is seen if the directory is entered and the file is seen from there
    have hbelow : ∀ leaf ∈ Tree.leavesAll [] entries, w.dirOf? root before (name :: leaf.1) =
        if w.entersDir p name then w.dirOf? root (before ++ [name]) leaf.1 else none := by
      intro leaf hleaf
      obtain ⟨e, -, leaf', -, hnames⟩ := Tree.mem_leavesAll hleaf
      rw [dirOf?, dirOf?, reaches_dir _ _ _ (by simp [hnames]), entersDir, hp.leavesOut, List.append_assoc]
      cases !skipsDir name && !w.patterns.any (·.covers (Text.join "/" (before ++ [name])) true) <;> rfl
    rw [findEntry, Tree.leaves, List.filterMap_congr hbelow]
    split
    · rw [findAll_eq_flatMap, Tree.leavesAll_eq_flatMap, List.filterMap_flatMap]
      refine List.flatMap_congr fun e he => ?_
      rw [ih e he (hp.enter htop name _) e.1, List.filterMap_map]
      rfl
    · rw [List.filterMap_none]

/-- What a walk finds below a directory of a plain tree. -/
theorem findAll_eq {w : Walk} (htop : w.top.IsPlain) (atLink : AtLink) {root : List String} {p : Position}
    (hp : w.StandsAt root [] p) {entries : List (String × Tree)} (ht : (Tree.dir entries).IsPlain) :
    w.findAll atLink p entries = (Tree.leavesAll [] entries).filterMap fun leaf => w.dirOf? root [] leaf.1 := by
  cases ht with
  | dir names quiet plain =>
    rw [findAll_eq_flatMap, Tree.leavesAll_eq_flatMap, List.filterMap_flatMap]
    refine List.flatMap_congr fun e he => ?_
    rw [findEntry_eq htop atLink hp e.1 (plain e he), List.filterMap_map]
    rfl

end Walk

end GoApi.Discovery
