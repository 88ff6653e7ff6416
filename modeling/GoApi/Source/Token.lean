import GoApi.Text.Identifier
import GoApi.Text.Split

/-!
# Tokens of Go source

`tokens` cuts a source into words, literals and marks.  Every token keeps the blanks and comments
before it, so the text of a stretch of tokens is the text of the source, and says whether a line
ends before it.  A line break inside a comment does not count as one.
-/

namespace GoApi.Source

inductive Token.Kind where
  /-- An identifier or keyword. -/
  | word
  | int
  | float
  | imaginary
  | rune
  | string
  /-- An operator or a piece of punctuation. -/
  | mark
  /-- A character that starts no token. -/
  | stray
  deriving DecidableEq, Repr

/-- A token with what stands before it. -/
structure Token where
  kind : Token.Kind
  text : String
  /-- Blanks and comments before the token. -/
  lead : String
  /-- Whether a line ends in front of the token. -/
  afterBreak : Bool
  /-- The number of its line, from 1. -/
  line : Nat
  deriving DecidableEq, Repr

/-- White space between tokens. -/
def isGap (c : Char) : Bool :=
  ('\t' ≤ c && c ≤ '\r') || c == ' '

/-- A text up to the end of a block comment, and what follows it. -/
def blockComment : List Char → Option (List Char × List Char)
  | [] => none
  | '*' :: '/' :: rest => some (['*', '/'], rest)
  | c :: rest => (blockComment rest).map fun (inside, after) => (c :: inside, after)

/-- The end of a quoted literal, its closing mark included.  A backslash escapes one character, and
the literal must close on its line. -/
def quoted (mark : Char) : List Char → Option (List Char × List Char)
  | [] => none
  | c :: rest =>
    if c = mark then some ([c], rest)
    else if c = '\n' then none
    else if c = '\\' then
      match rest with
      | [] => none
      | d :: rest => (quoted mark rest).map fun (inside, after) => (c :: d :: inside, after)
    else (quoted mark rest).map fun (inside, after) => (c :: inside, after)

/-- The end of a raw string, its closing mark included. -/
def rawString : List Char → Option (List Char × List Char)
  | [] => none
  | c :: rest =>
    if c = '\x60' then some ([c], rest)
    else (rawString rest).map fun (inside, after) => (c :: inside, after)

/-- A run of characters of a class, and what follows it. -/
def run (p : Char → Bool) (text : List Char) : List Char × List Char :=
  (text.takeWhile p, text.dropWhile p)

/-- An exponent that starts with one of the given letters. -/
def exponent (letters : List Char) (text : List Char) : List Char × List Char :=
  match text with
  | e :: rest =>
    if letters.contains e then
      match rest with
      | s :: rest' =>
        if s == '+' || s == '-' then
          let (digits, after) := run (fun c => c.isDigit || c == '_') rest'
          (e :: s :: digits, after)
        else
          let (digits, after) := run (fun c => c.isDigit || c == '_') rest
          (e :: digits, after)
      | [] => ([e], [])
    else ([], text)
  | [] => ([], [])

def isHexDigit (c : Char) : Bool :=
  c.isDigit || ('a' ≤ c && c ≤ 'f') || ('A' ≤ c && c ≤ 'F')

/-- A fraction: a point and digits.  A second point right after the first starts no fraction. -/
def fraction (digit : Char → Bool) (text : List Char) : List Char × List Char :=
  match text with
  | '.' :: '.' :: _ => ([], text)
  | '.' :: rest =>
    let (digits, after) := run (fun c => digit c || c == '_') rest
    ('.' :: digits, after)
  | _ => ([], text)

def number (text : List Char) : Token.Kind × List Char × List Char :=
  let (lead, digit, letters, text) :=
    match text with
    | '0' :: x :: rest =>
      if x == 'x' || x == 'X' then (['0', x], isHexDigit, ['p', 'P'], rest)
      else if x == 'b' || x == 'B' || x == 'o' || x == 'O' then (['0', x], Char.isDigit, [], rest)
      else ([], Char.isDigit, ['e', 'E'], text)
    | _ => ([], Char.isDigit, ['e', 'E'], text)
  let (whole, text) := run (fun c => digit c || c == '_') text
  let (part, text) := fraction digit text
  let (scale, text) := exponent letters text
  let written := lead ++ whole ++ part ++ scale
  match text with
  | 'i' :: text => (.imaginary, written ++ ['i'], text)
  | _ => (if part.isEmpty && scale.isEmpty then .int else .float, written, text)

/-- Operators and punctuation, longer ones before their beginnings. -/
def marks : List String :=
  ["<<=", ">>=", "&^=", "...", "&&", "||", "<-", "++", "--", "==", "!=", "<=", ">=", ":=", "+=", "-=",
    "*=", "/=", "%=", "&=", "|=", "^=", "&^", "<<", ">>", "+", "-", "*", "/", "%", "&", "|", "^", "<",
    ">", "=", "!", "~", "(", ")", "[", "]", "\x7b", "\x7d", ",", ";", ".", ":"]

/-- The token at the front of a text that starts with no gap: its kind, its characters and the
rest. -/
def front (c : Char) (rest : List Char) : Token.Kind × List Char × List Char :=
  let mark :=
    match marks.findSome? fun m => (Text.after? m.toList (c :: rest)).map fun after => (m, after) with
    | some (m, after) => (.mark, m.toList, after)
    | none => (.stray, [c], rest)
  if Text.isIdentifierStart c then
    let (more, after) := run Text.isIdentifierContinue rest
    (.word, c :: more, after)
  else if c.isDigit then number (c :: rest)
  else if c = '"' then
    match quoted '"' rest with
    | some (inside, after) => (.string, c :: inside, after)
    | none => (.stray, [c], rest)
  else if c = '\'' then
    match quoted '\'' rest with
    | some (inside, after) => (.rune, c :: inside, after)
    | none => (.stray, [c], rest)
  else if c = '\x60' then
    match rawString rest with
    | some (inside, after) => (.string, c :: inside, after)
    | none => (.stray, [c], rest)
  else if c = '.' && (rest.head?.any Char.isDigit) then number (c :: rest)
  else mark

/-- How many lines end in a text. -/
def breaks (text : List Char) : Nat := text.count '\n'

/-- The tokens of a text.  `lead` is what was skipped since the last token, `broken` whether a line
ended in it, and `line` the current line; `fuel` bounds the number of steps. -/
def scan (fuel : Nat) (lead : List Char) (broken : Bool) (line : Nat) (text : List Char) :
    List Token :=
  match fuel, text with
  | 0, _ => []
  | _, [] => []
  | fuel + 1, c :: rest =>
    if isGap c then
      scan fuel (lead ++ [c]) (broken || c == '\n') (line + breaks [c]) rest
    else
      let comment :=
        match c, rest with
        | '/', '/' :: rest =>
          let (inside, after) := run (· != '\n') rest
          some ('/' :: '/' :: inside, after)
        | '/', '*' :: rest =>
          (blockComment rest).map fun (inside, after) => ('/' :: '*' :: inside, after)
        | _, _ => none
      match comment with
      | some (skipped, after) =>
        scan fuel (lead ++ skipped) broken (line + breaks skipped) after
      | none =>
        let (kind, text, after) := front c rest
        { kind, text := String.ofList text, lead := String.ofList lead, afterBreak := broken, line }
          :: scan fuel [] false (line + breaks text) after

/-- The tokens of a source.  A byte order mark at its start is skipped. -/
def tokens (source : String) : List Token :=
  let text := match source.toList with
    | '\ufeff' :: rest => rest
    | text => text
  scan (text.length + 1) [] false 1 text

/-- The source text from the first token of a list to its last. -/
def spelling : List Token → String
  | [] => ""
  | first :: rest => rest.foldl (fun text t => text ++ t.lead ++ t.text) first.text

end GoApi.Source
