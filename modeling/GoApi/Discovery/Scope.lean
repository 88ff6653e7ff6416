import GoApi.Discovery.Pattern
import GoApi.Discovery.Tree

/-!
# Ignore files

Every directory may have ignore files for what is below it.  Of the files of one kind the nearest one
that says something of a path decides.  Among the kinds the order is `.apidiffignore`, `.ignore`,
`.gitignore`, and the exclude file of a repository.  The last two count only inside a repository, and
only up to its top.
-/

namespace GoApi.Discovery

/-- The lines of a file; reading stops at a line that is no text.  A byte order mark is skipped. -/
def textLines (content : ByteArray) : List (List Char) :=
  let lines := splitLines content.data.toList
  let lines := (lines.map Text.Utf8.decode?).takeWhile (·.isSome)
  match lines.filterMap (·.map String.toList) with
  | [] => []
  | first :: rest => first.dropWhile (· == '\ufeff') :: rest
where
  /-- The lines of bytes, without the line breaks between them. -/
  splitLines : List UInt8 → List (List UInt8)
    | [] => [[]]
    | 0x0d :: 0x0a :: rest => [] :: splitLines rest
    | b :: rest =>
      if b = 0x0a then [] :: splitLines rest
      else
        match splitLines rest with
        | [] => [[b]]
        | line :: lines => (b :: line) :: lines

def Pattern.ofFile (content : ByteArray) : List Pattern :=
  (textLines content).filterMap Pattern.ofLine?

/-- A directory with what its ignore files say. -/
structure Scope where
  /-- The number of names on the way from the top of the tree to the directory. -/
  depth : Nat
  /-- The patterns of `.apidiffignore`. -/
  own : List Pattern
  /-- The patterns of `.ignore`. -/
  general : List Pattern
  /-- The patterns of `.gitignore`. -/
  versioned : List Pattern
  /-- The patterns of the repository's exclude file. -/
  excluded : List Pattern
  /-- Whether the directory is the top of a repository. -/
  isRepository : Bool

namespace Scope

/-- The scope of a directory: `place` is where it is, and `depth` the length of the way on which it
was reached. -/
def ofDir (top : Tree) (place : List String) (depth : Nat) : Scope :=
  let patterns (name : String) := ((top.read? place name).map Pattern.ofFile).getD []
  { depth
    own := patterns ".apidiffignore"
    general := patterns ".ignore"
    versioned := patterns ".gitignore"
    excluded := patterns ".git/info/exclude"
    isRepository := (top.find? place ".git").isSome }

/-- What the files of one kind say of a path. -/
def decide (kind : Scope → List Pattern) (scopes : List Scope) (path : List String)
    (isDir : Bool) : Option Verdict :=
  scopes.findSome? fun s => Pattern.decide (kind s) (Text.join "/" (path.drop s.depth)) isDir

/-- The scopes inside the nearest repository, its top included; none if there is no repository. -/
def inRepository : List Scope → List Scope
  | [] => []
  | s :: rest =>
    if s.isRepository then [s]
    else
      match inRepository rest with
      | [] => []
      | inner => s :: inner

/-- Whether ignore files leave out a path.  The scopes are given nearest first. -/
def leavesOut (scopes : List Scope) (path : List String) (isDir : Bool) : Bool :=
  let inside := inRepository scopes
  (decide (·.own) scopes path isDir
    |>.or (decide (·.general) scopes path isDir)
    |>.or (decide (·.versioned) inside path isDir)
    |>.or (decide (·.excluded) inside path isDir)) == some .leaveOut

end Scope

end GoApi.Discovery
