import GoApi.Source.Token
import GoApi.Text.Reading

/-!
# Reading tokens

A `Reader` takes something off the front of a token list.  A line break ends an item outside brackets
wherever the item may end; inside brackets it is a blank.  `Layout` says which of the two holds.
-/

namespace GoApi.Source

/-- What a line break means. -/
inductive Layout where
  /-- It ends an item that may end there. -/
  | lines
  /-- It is a blank: the item stands in brackets. -/
  | free
  deriving DecidableEq, Repr

/-- Reading off the front of a token list. -/
abbrev Reader (α : Type) := Text.Reading Token α

namespace Reader

export Text.Reading (peek take check maybe took many separated)

def isMark (text : String) (t : Token) : Bool := t.kind == .mark && t.text == text

def isWord (text : String) (t : Token) : Bool := t.kind == .word && t.text == text

def mark (text : String) : Reader Unit := do
  let _ ← take (isMark text)

def keyword (text : String) : Reader Unit := do
  let _ ← take (isWord text)

def word : Reader String := do
  return (← take (·.kind == .word)).text

/-- Fail if the item ends in front of the next token. -/
def joined (l : Layout) : Reader Unit :=
  check fun t => l == .free || !t.afterBreak

/-- Take a mark that does not stand on a new line. -/
def joinedMark (l : Layout) (text : String) : Reader Unit := do
  joined l
  mark text

/-- One or more with commas between them; a line break before a comma ends the list. -/
def commas {α : Type} (l : Layout) (p : Reader α) : Reader (List α) :=
  separated (joinedMark l ",") p

/-- What a reader reads, with its text. -/
def spanned {α : Type} (p : Reader α) : Reader (α × String) := fun ts =>
  match p ts with
  | some (x, rest) => some ((x, spelling (ts.take (ts.length - rest.length))), rest)
  | none => none

/-- The tokens after the mark that closes a bracket; `depth` further brackets are open. -/
def afterClosing (opening closing : String) : Nat → List Token → Option (List Token)
  | _, [] => none
  | depth, t :: rest =>
    if isMark opening t then afterClosing opening closing (depth + 1) rest
    else if isMark closing t then
      match depth with
      | 0 => some rest
      | depth + 1 => afterClosing opening closing depth rest
    else afterClosing opening closing depth rest

/-- Skip a bracket and what is in it. -/
def bracket (opening closing : String) : Reader Unit := do
  mark opening
  fun ts => (afterClosing opening closing 0 ts).map fun rest => ((), rest)

def block : Reader Unit := bracket "\x7b" "\x7d"

/-- Whether an item may end here: before a semicolon, a closing bracket, a new line or the end. -/
def atEnd : Reader Bool := fun ts =>
  match ts with
  | [] => some (true, ts)
  | t :: _ => some (t.afterBreak || isMark ";" t || isMark "\x7d" t || isMark ")" t, ts)

/-- Fail unless the item may end here. -/
def ending : Reader Unit := do
  unless ← atEnd do failure

/-- The end of an item in a braced or parenthesised group: a semicolon, a line break, or the closing
bracket, which stays. -/
def terminator : Reader Unit := do
  unless ← took (mark ";") do ending

end Reader

end GoApi.Source
