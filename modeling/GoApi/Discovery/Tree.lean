import GoApi.Discovery.Path

/-!
# File trees

A `Tree` is a directory with all that is below it, a file, or a symbolic link.  Places in a tree are
lists of names from its top.  Names and targets are texts, so a tree has no name that is not UTF-8.

`locate?` follows a path the way a file system does: links are followed, also on the way, and a path
that leaves the tree leads nowhere.  Nor does a link whose target is absolute, since a tree does not
say where in the file system it stands.
-/

namespace GoApi.Discovery

/-- A file, a symbolic link, or a directory. -/
inductive Tree where
  | file (content : ByteArray)
  | link (target : String)
  | dir (entries : List (String × Tree))

namespace Tree

def entries : Tree → List (String × Tree)
  | .dir entries => entries
  | _ => []

def isDir : Tree → Bool
  | .dir _ => true
  | _ => false

/-- What stands at a place. -/
def at? (t : Tree) : List String → Option Tree
  | [] => some t
  | name :: rest => (t.entries.lookup name).bind (at? · rest)

/-- Give a name an entry, in its old place if it has one. -/
def setEntry (name : String) (t : Tree) : List (String × Tree) → List (String × Tree)
  | [] => [(name, t)]
  | entry :: rest =>
    if entry.1 == name then (name, t) :: rest else entry :: setEntry name t rest

/-- Put something at a place, with the directories on the way.  A directory that is there stays. -/
def put (leaf : Tree) : List String → Tree → Tree
  | [], t => if t.isDir && leaf.isDir then t else leaf
  | name :: rest, t =>
    .dir (setEntry name (put leaf rest ((t.entries.lookup name).getD (.dir []))) t.entries)

/-- The tree of a list of paths with what stands there. -/
def ofLeaves (leaves : List (String × Tree)) : Tree :=
  leaves.foldl (fun t leaf => put leaf.2 ((Path.parts leaf.1).filter (!Path.isIdle ·)) t) (.dir [])

/-- The number of links that may be followed along one path. -/
def linkLimit : Nat := 40

/-- The place that parts of a path lead to from a directory, where `atLink` says how it goes on at a
link: from the directory of the link, along the parts of its target and the rest. -/
def followWith (top : Tree) (atLink : List String → List String → Option (List String))
    (here : List String) : List String → Option (List String)
  | [] => some here
  | part :: rest =>
    if Path.isIdle part then followWith top atLink here rest
    else if part = ".." then
      if here.isEmpty then none else followWith top atLink here.dropLast rest
    else
      match top.at? (here ++ [part]) with
      | none => none
      | some (.file _) => if rest.isEmpty then some (here ++ [part]) else none
      | some (.dir _) => followWith top atLink (here ++ [part]) rest
      | some (.link target) =>
        if target.toList.head? == some '/' then none else atLink here (Path.parts target ++ rest)

/-- The place that parts of a path lead to from a directory, over so many links. -/
def follow (top : Tree) : Nat → List String → List String → Option (List String)
  | 0 => followWith top fun _ _ => none
  | links + 1 => followWith top (follow top links)

/-- The place that a path leads to from a directory. -/
def locate? (top : Tree) (here : List String) (path : String) : Option (List String) :=
  if path.isEmpty || path.toList.head? == some '/' then none
  else follow top linkLimit here (Path.parts path)

/-- What a path leads to from a directory. -/
def find? (top : Tree) (here : List String) (path : String) : Option Tree :=
  (top.locate? here path).bind top.at?

def hasDir (top : Tree) (path : String) : Bool :=
  (top.find? [] path).any isDir

/-- The content of the file that a path leads to from a directory. -/
def read? (top : Tree) (here : List String) (path : String) : Option ByteArray :=
  match top.find? here path with
  | some (.file content) => some content
  | _ => none

mutual

/-- The files at or below a place, each with its place and content.  The content of a link is its
target. -/
def leaves (place : List String) : Tree → List (List String × ByteArray)
  | .file content => [(place, content)]
  | .link target => [(place, target.toUTF8)]
  | .dir entries => leavesAll place entries

def leavesAll (place : List String) : List (String × Tree) → List (List String × ByteArray)
  | [] => []
  | (name, t) :: rest => leaves (place ++ [name]) t ++ leavesAll place rest

end

mutual

def dirCount : Tree → Nat
  | .dir entries => 1 + dirCountAll entries
  | _ => 0

def dirCountAll : List (String × Tree) → Nat
  | [] => 0
  | (_, t) :: rest => dirCount t + dirCountAll rest

end

end Tree

end GoApi.Discovery
