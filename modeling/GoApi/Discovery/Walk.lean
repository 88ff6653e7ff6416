import GoApi.Discovery.Package
import GoApi.Discovery.Scope

/-!
# Walking a file tree

`dirsOfTree` finds the directories with a package below a directory of a tree.  A directory that is left out, by its
name or by a pattern, is not entered.  Links count only when the selection follows them; a link to a
directory that the walk is already in is not followed.
-/

namespace GoApi.Discovery

open Surface

/-- Where a walk stands. -/
structure Position where
  /-- The names on the way from the top of the tree. -/
  path : List String
  /-- The places of the directories entered, innermost first. -/
  places : List (List String)
  /-- The ignore files that count, nearest first. -/
  scopes : List Scope

/-- The path to a directory below a root. -/
def below (root dir : String) : String :=
  if dir.isEmpty then root else if root.isEmpty then dir else root ++ "/" ++ dir

/-- What a walk does not change. -/
structure Walk where
  top : Tree
  /-- The path that the root of the walk was given by. -/
  root : String
  followLinks : Bool
  /-- The patterns of the selection. -/
  patterns : List Pattern
  /-- The number of names on the way from the top of the tree to the root of the walk. -/
  rootDepth : Nat

namespace Walk

/-- Whether an entry of a directory is left out.  The patterns of the selection come first. -/
def leavesOut (w : Walk) (p : Position) (name : String) (isDir : Bool) : Bool :=
  let path := p.path ++ [name]
  w.patterns.any (·.covers (Text.join "/" (path.drop w.rootDepth)) isDir) ||
    Scope.leavesOut p.scopes path isDir

/-- Whether a file makes its directory a package. -/
def seesFile (w : Walk) (p : Position) (name : String) : Bool :=
  isGoSource name && !w.leavesOut p name false

def entersDir (w : Walk) (p : Position) (name : String) : Bool :=
  !skipsDir name && !w.leavesOut p name true

/-- The position in a directory that is entered. -/
def enter (w : Walk) (p : Position) (name : String) (place : List String) : Position :=
  { path := p.path ++ [name]
    places := place :: p.places
    scopes := Scope.ofDir w.top place (p.path.length + 1) :: p.scopes }

/-- What a walk does at a link. -/
abbrev AtLink := Position → String → List (List String)

mutual

/-- The directories with a package at or below an entry. -/
def findEntry (w : Walk) (atLink : AtLink) (p : Position) (name : String) :
    Tree → List (List String)
  | .file _ => if w.seesFile p name then [p.path] else []
  | .link _ => atLink p name
  | .dir entries =>
    if w.entersDir p name then
      findAll w atLink (w.enter p name ((p.places.headD []) ++ [name])) entries
    else []

/-- The directories with a package at or below the entries of a directory. -/
def findAll (w : Walk) (atLink : AtLink) (p : Position) :
    List (String × Tree) → List (List String)
  | [] => []
  | (name, t) :: rest => findEntry w atLink p name t ++ findAll w atLink p rest

end

def pathTo (w : Walk) (p : Position) (name : String) : String :=
  below w.root (Text.join "/" ((p.path ++ [name]).drop w.rootDepth))

/-- What a walk finds at a link that it may follow, with `links` further links to directories. -/
def atLink (w : Walk) : Nat → AtLink
  | 0, _, _ => []
  | links + 1, p, name =>
    if !w.followLinks then []
    else
      match w.top.locate? [] (w.pathTo p name) with
      | none => []
      | some place =>
        match w.top.at? place with
        | some (.file _) => if w.seesFile p name then [p.path] else []
        | some (.dir entries) =>
          if p.places.contains place || !w.entersDir p name then []
          else w.findAll (atLink w links) (w.enter p name place) entries
        | _ => []

end Walk

/-- The scopes of the directories above a place, nearest first. -/
def scopesAbove (top : Tree) (place : List String) : List Scope :=
  ((List.range place.length).map fun n => Scope.ofDir top (place.take n) n).reverse

/-- The patterns of a selection, for a walk: they leave paths out, also where they start with `!`. -/
def Selection.walkPatterns (s : Selection) : List Pattern :=
  s.ignore.filterMap fun line => Pattern.ofLine? ('!' :: line.toList)

/-- The directories with a package below a directory of a tree, each as the names on the way from there.  The
directory is given by the path to it. -/
def Selection.dirsOfTree (s : Selection) (top : Tree) (root : String) :
    Except LoadError (List (List String)) :=
  match top.locate? [] root with
  | none => .error (.unavailable ("not a directory: " ++ root))
  | some place =>
    match top.at? place with
    | some (.dir entries) =>
      let w : Walk :=
        { top, root, followLinks := s.followLinks, patterns := s.walkPatterns, rootDepth := place.length }
      let p : Position :=
        { path := place
          places := [place]
          scopes := Scope.ofDir top place place.length :: scopesAbove top place }
      .ok ((w.findAll (w.atLink (top.dirCount + 1)) p entries).map (·.drop place.length))
    | _ => .error (.unavailable ("not a directory: " ++ root))

/-- The packages below a directory of a tree, given by the path to it. -/
def Selection.packagesOfTree (s : Selection) (top : Tree) (root : String) :
    Except LoadError (List String) :=
  (s.dirsOfTree top root).map fun dirs => s.filter (dirs.map fun d => packagePath (Text.join "/" d))

end GoApi.Discovery
