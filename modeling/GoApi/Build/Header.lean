import GoApi.Text.Blank
import GoApi.Text.Split

/-!
# Constraint lines of a file header

The header of a file is what stands before its first line of code: blank lines, line comments and
block comments.  A line `//go:build …` states a constraint expression; a line `// +build …` is the
older form, a list of options.
-/

namespace GoApi.Build

/-- A constraint line of a header. -/
inductive Directive where
  /-- The text after `//go:build`. -/
  | expression (text : String)
  /-- The text after `// +build`. -/
  | options (text : String)
  deriving DecidableEq, Repr

/-- The text after a directive's word, which has to end there or be followed by a blank. -/
def argument? (rest : List Char) : Option String :=
  match rest with
  | [] => some ""
  | ' ' :: _ | '\t' :: _ => some (String.ofList (Text.trim rest))
  | _ => none

/-- The directive of a line comment, given without its slashes. -/
def directive? (comment : List Char) : Option Directive :=
  match Text.after? "go:build".toList comment with
  | some rest => (argument? rest).map .expression
  | none =>
    match Text.after? "+build".toList (Text.trimLeft comment) with
    | some rest => (argument? rest).map .options
    | none => none

/-- The directives of a header.  The first flag says whether a block comment is open. -/
def directivesOf : Bool → List (List Char) → List Directive
  | _, [] => []
  | true, line :: rest => directivesOf (!Text.holds "*/".toList line) rest
  | false, line :: rest =>
    match Text.trim line with
    | [] => directivesOf false rest
    | '/' :: '*' :: more => directivesOf (!Text.holds "*/".toList ('/' :: '*' :: more)) rest
    | '/' :: '/' :: comment => (directive? comment).toList ++ directivesOf false rest
    | _ => []

/-- The directives before the first line of code of a source. -/
def directives (source : String) : List Directive :=
  directivesOf false (Text.splitOn '\n' source.toList)

end GoApi.Build
