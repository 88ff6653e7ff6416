import GoApi.Toml.Scalar

/-!
# TOML documents

A document is a list of lines, each empty, a key with its value, or a header.  Values nest in brackets
and braces up to a fixed depth.
-/

namespace GoApi.Toml

open Text Text.Reading

namespace Scan

/-- Arrays and tables in braces nest less than this deep, and a dotted key has fewer parts. -/
def nestingLimit : Nat := 80

/-- One part of a key: a word, or a string. -/
def keyPart : Scan String := do
  spaces
  let key ← basicString <|> literalString <|> (do
    let isWordChar (c : Char) := c.isAlphanum || c == '-' || c == '_'
    let first ← take isWordChar
    return String.ofList (first :: (← many (take isWordChar))))
  spaces
  return key

/-- A key: the path to its table and its last part. -/
def dottedKey : Scan (List String × String) := do
  let parts ← separated (exactly ".") keyPart
  if nestingLimit ≤ parts.length then failure
  match parts.getLast? with
  | some last => return (parts.dropLast, last)
  | none => failure

def keyed (value : Scan Value) : Scan (List String × String × Value) := do
  let (path, key) ← dottedKey
  exactly "="
  spaces
  return (path, key, ← value)

/-- An array.  A comma may follow the last item. -/
def array (value : Scan Value) : Scan Value := do
  exactly "["
  let items ← (do
    let items ← separated (exactly ",") (do gap; let item ← value; gap; return item)
    let _ ← maybe (exactly ",")
    return items) <|> pure []
  gap
  exactly "]"
  return .array items

/-- A table in braces, on one line. -/
def braces (value : Scan Value) : Scan Value := do
  exactly "\x7b"
  let items ← separated (exactly ",") (do let item ← keyed value; spaces; return item) <|> pure []
  spaces
  exactly "\x7d"
  match items.foldlM (fun es (path, key, v) => Entries.addAt path key v .header es) [] with
  | some entries => return .table .braces entries
  | none => failure

/-- A value whose arrays and tables nest at most `depth` deep. -/
def valueWithin : Nat → Scan Value
  | 0 => scalar
  | depth + 1 => array (valueWithin depth) <|> braces (valueWithin depth) <|> scalar

def value : Scan Value := valueWithin (nestingLimit - 1)

end Scan

inductive Line where
  | blank
  | entry (path : List String) (key : String) (value : Value)
  | header (path : List String) (key : String)
  | nextHeader (path : List String) (key : String)

namespace Scan

/-- A line, up to its end. -/
def line : Scan Line := do
  spaces
  let content ←
    (do exactly "[["; let (path, key) ← dottedKey; exactly "]]"; return Line.nextHeader path key) <|>
    (do exactly "["; let (path, key) ← dottedKey; exactly "]"; return Line.header path key) <|>
    (do let (path, key, v) ← keyed value; return Line.entry path key v) <|>
    pure Line.blank
  spaces
  let _ ← maybe comment
  return content

/-- The lines of a document, after a byte order mark or without. -/
def lines : Scan (List Line) := do
  let _ ← maybe (exactly "\ufeff")
  separated newline line

end Scan

/-- A document that is being read: its table, and the path to the table that keys go into. -/
structure Draft where
  entries : Entries := []
  current : List String := []

namespace Draft

/-- Take in one line. -/
def step (d : Draft) : Line → Option Draft
  | .blank => some d
  | .entry path key value => do
    let entries ← Entries.edit .header (Entries.addAt path key value) d.current .header d.entries
    return { d with entries }
  | .header path key => do
    let entries ← Entries.edit .header (fun _ => Entries.openTable key) path .header d.entries
    return { entries, current := path ++ [key] }
  | .nextHeader path key => do
    let entries ← Entries.edit .header (fun _ => Entries.openNext key) path .header d.entries
    return { entries, current := path ++ [key] }

end Draft

/-- The table of a document; `none` if the text is not a document. -/
def parse? (text : String) : Option Entries := do
  let lines ← Scan.lines.all? text.toList
  let draft ← lines.foldlM Draft.step {}
  return draft.entries

end GoApi.Toml
