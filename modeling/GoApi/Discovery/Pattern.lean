import GoApi.Discovery.Glob
import GoApi.Discovery.Path
import GoApi.Text.Blank

/-!
# Ignore patterns

A pattern is a line of an ignore file: a glob for the paths to leave out, or after `!` for the paths to
keep.  A glob with a slash inside, or one in front, is for paths from the directory of the file;
another one is for names at any depth.  With a slash at the end it is for directories only.  Of several
patterns for a path the last one decides.
-/

namespace GoApi.Discovery

/-- What a pattern says of a path. -/
inductive Verdict where
  | leaveOut
  | keep
  deriving DecidableEq, Repr

/-- A line of an ignore file. -/
structure Pattern where
  glob : Glob
  verdict : Verdict
  /-- Whether it is for directories only. -/
  dirsOnly : Bool

namespace Pattern

/-- A line without the blanks at its end, unless the last one is escaped. -/
def trimLine (line : List Char) : List Char :=
  if "\\ ".toList.isSuffixOf line then line else Text.trimRight line

/-- The verdict of a line, whether it is for paths from the directory of its file, and its glob. -/
def splitMarks : List Char → Verdict × Bool × List Char
  | '\\' :: '!' :: rest => (.leaveOut, false, '!' :: rest)
  | '\\' :: '#' :: rest => (.leaveOut, false, '#' :: rest)
  | '!' :: '/' :: rest => (.keep, true, rest)
  | '!' :: rest => (.keep, false, rest)
  | '/' :: rest => (.leaveOut, true, rest)
  | line => (.leaveOut, false, line)

/-- Whether a glob is for directories only, and the glob without the mark of that. -/
def splitDirMark (text : List Char) : Bool × List Char :=
  match text.reverse with
  | '/' :: '\\' :: before => (true, before.reverse)
  | '/' :: before => (true, before.reverse)
  | _ => (false, text)

/-- A glob for names becomes one for paths of any depth. -/
def atAnyDepth (anchored : Bool) (text : List Char) : List Char :=
  if anchored || text.contains '/' || text == "**".toList then text else "**/".toList ++ text

/-- A glob for everything below a directory is not for the directory itself. -/
def strictlyBelow (text : List Char) : List Char :=
  if "/**".toList.isSuffixOf text then text ++ "/*".toList else text

/-- The pattern of a line; none if it is blank, a comment, or no glob. -/
def ofLine? (line : List Char) : Option Pattern :=
  let text := trimLine line
  if line.head? == some '#' || text.isEmpty then none
  else
    let (verdict, anchored, text) := splitMarks text
    let (dirsOnly, text) := splitDirMark text
    (Glob.ofText? (strictlyBelow (atAnyDepth anchored text))).map
      fun glob => { glob, verdict, dirsOnly }

/-- Whether a pattern is for a path. -/
def covers (p : Pattern) (path : String) (isDir : Bool) : Bool :=
  (isDir || !p.dirsOnly) && p.glob.admits (Text.Utf8.encode path)

/-- What a list of patterns says of a path. -/
def decide (patterns : List Pattern) (path : String) (isDir : Bool) : Option Verdict :=
  (patterns.reverse.find? (·.covers path isDir)).map (·.verdict)

/-- What a list of patterns says of a file, or else of the nearest directory above it of which they
say something. -/
def decideUpwards (patterns : List Pattern) (path : String) : Option Verdict :=
  (decide patterns path false).or
    ((Path.parents path).findSome? (decide patterns · true))

end Pattern

end GoApi.Discovery
