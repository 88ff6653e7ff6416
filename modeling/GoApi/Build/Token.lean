import GoApi.Text.Blank
import GoApi.Text.Quoted

/-!
# Tokens of a build constraint

A constraint is written with tags, `!`, `&&`, `||` and parentheses.  A tag is a maximal run of ASCII
letters, digits, underscores and dots; ASCII white space separates tokens and is otherwise ignored.
-/

namespace GoApi.Build

/-- A token of a constraint expression. -/
inductive Token where
  | tag (name : List Char)
  | not
  | and
  | or
  | opening
  | closing
  deriving DecidableEq, Repr

def Token.word : Token → String
  | .tag name => "Tag(" ++ Text.quote (String.ofList name) ++ ")"
  | .not => "Not"
  | .and => "And"
  | .or => "Or"
  | .opening => "Open"
  | .closing => "Close"

def Token.spelling : Token → List Char
  | .tag name => name
  | .not => ['!']
  | .and => ['&', '&']
  | .or => ['|', '|']
  | .opening => ['(']
  | .closing => [')']

/-- A character that may stand in a tag. -/
def isTagChar (c : Char) : Bool :=
  c.isAlphanum || c == '_' || c == '.'

/-- The tokens of a text, or the first character that starts no token. -/
def tokenize (text : List Char) : Except Char (List Token) :=
  match text with
  | [] => .ok []
  | c :: rest =>
    if Text.isAsciiBlank c then tokenize rest
    else if c = '!' then return .not :: (← tokenize rest)
    else if c = '(' then return .opening :: (← tokenize rest)
    else if c = ')' then return .closing :: (← tokenize rest)
    else if isTagChar c then
      have := (List.dropWhile_suffix isTagChar (l := rest)).length_le
      return .tag (c :: rest.takeWhile isTagChar) :: (← tokenize (rest.dropWhile isTagChar))
    else
      match c, rest with
      | '&', '&' :: rest => return .and :: (← tokenize rest)
      | '|', '|' :: rest => return .or :: (← tokenize rest)
      | _, _ => .error c
termination_by text.length
decreasing_by all_goals grind

end GoApi.Build
