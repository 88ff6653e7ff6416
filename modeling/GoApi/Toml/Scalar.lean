import GoApi.Text.Reading
import GoApi.Text.Split
import GoApi.Toml.Value

/-!
# TOML scalars

Strings, numbers, dates and the two truth values, read off the front of a text.
-/

namespace GoApi.Toml

open Text Text.Reading

/-- Reading off the front of a text. -/
abbrev Scan (α : Type) := Reading Char α

namespace Scan

def exactly (text : String) : Scan Unit := fun cs =>
  (after? text.toList cs).map fun rest => ((), rest)

/-- Whether a character is a blank within a line. -/
def isSpace (c : Char) : Bool := c == ' ' || c == '\t'

/-- Skip blanks within a line. -/
def spaces : Scan Unit := fun cs => some ((), cs.dropWhile isSpace)

def newline : Scan Unit := exactly "\n" <|> exactly "\r\n"

/-- Whether a character may stand in text as it is: a tab, or anything that is not a control. -/
def isPlain (c : Char) : Bool := c == '\t' || (0x20 ≤ c.toNat && c.toNat != 0x7f)

def comment : Scan Unit := do
  exactly "#"
  fun cs => some ((), cs.dropWhile isPlain)

/-- Skip blanks, line breaks and comments. -/
def gap : Scan Unit := do
  let _ ← many ((do let _ ← take isSpace) <|> newline <|> comment)

/-! ## Strings -/

def hexDigit? (c : Char) : Option Nat :=
  if '0' ≤ c ∧ c ≤ '9' then some (c.toNat - '0'.toNat)
  else if 'a' ≤ c ∧ c ≤ 'f' then some (c.toNat - 'a'.toNat + 10)
  else if 'A' ≤ c ∧ c ≤ 'F' then some (c.toNat - 'A'.toNat + 10)
  else none

/-- The number of digits in a base. -/
def ofDigits (base : Nat) (digits : List Char) : Nat :=
  digits.foldl (fun n d => base * n + (hexDigit? d).getD 0) 0

/-- Take a given number of characters that pass a test. -/
def times (p : Char → Bool) : Nat → Scan (List Char)
  | 0 => pure []
  | n + 1 => do
    let c ← take p
    return c :: (← times p n)

/-- The character of a code point written in a given number of hexadecimal digits. -/
def codePoint (count : Nat) : Scan Char := do
  let n := ofDigits 16 (← times (hexDigit? · |>.isSome) count)
  if n.isValidChar then return Char.ofNat n else failure

/-- The character that an escape stands for. -/
def escape : Scan Char := do
  exactly "\\"
  match ← take fun _ => true with
  | 'b' => return '\x08'
  | 'f' => return '\x0c'
  | 'n' => return '\n'
  | 'r' => return '\r'
  | 't' => return '\t'
  | '"' => return '"'
  | '\\' => return '\\'
  | 'u' => codePoint 4
  | 'U' => codePoint 8
  | _ => failure

/-- A string in double quotes on one line. -/
def basicString : Scan String := do
  exactly "\""
  let cs ← many (take (fun c => isPlain c && c != '"' && c != '\\') <|> escape)
  exactly "\""
  return String.ofList cs

/-- A string in single quotes on one line. -/
def literalString : Scan String := do
  exactly "'"
  let cs ← many (take fun c => isPlain c && c != '\'')
  exactly "'"
  return String.ofList cs

/-- Fail if a given character comes next. -/
def notNext (c : Char) : Scan Unit := fun cs =>
  if cs.head? == some c then none else some ((), cs)

/-- One or two quotes inside a string of several lines: a third does not follow. -/
def innerQuotes (quote : Char) : Scan (List Char) :=
  (do let cs ← times (· == quote) 2; notNext quote; return cs) <|>
    (do let cs ← times (· == quote) 1; notNext quote; return cs)

/-- The end of a string of several lines: up to two quotes of its own before the last three. -/
def closing (quote : Char) : Scan (List Char) :=
  (do let _ ← times (· == quote) 5; return [quote, quote]) <|>
    (do let _ ← times (· == quote) 4; return [quote]) <|>
    (do let _ ← times (· == quote) 3; return [])

/-- A backslash at the end of a line joins it to the next text. -/
def continuation : Scan (List Char) := do
  exactly "\\"
  spaces
  newline
  let _ ← many ((do let _ ← take isSpace) <|> newline)
  return []

/-- A line break inside a string of several lines. -/
def innerBreak : Scan (List Char) := do
  newline
  return ['\n']

/-- One character as a text. -/
def single (p : Scan Char) : Scan (List Char) := do
  return [← p]

/-- A string of several lines, given its quote and its pieces.  A line break at the start is
dropped. -/
def longString (quote : Char) (piece : Scan (List Char)) : Scan String := do
  let _ ← times (· == quote) 3
  let _ ← maybe newline
  let body ← many (piece <|> innerBreak <|> innerQuotes quote)
  let tail ← closing quote
  return String.ofList (body.flatten ++ tail)

/-- A string in three double quotes. -/
def longBasicString : Scan String :=
  longString '"' <|
    single (take fun c => isPlain c && c != '"' && c != '\\') <|> continuation <|> single escape

/-- A string in three single quotes. -/
def longLiteralString : Scan String :=
  longString '\'' (single (take fun c => isPlain c && c != '\''))

def string : Scan String :=
  longBasicString <|> basicString <|> longLiteralString <|> literalString

/-! ## Numbers -/

/-- One or more digits, with single underscores between them. -/
def digitRun (p : Char → Bool) : Scan (List Char) := do
  let first ← take p
  let rest ← many (take p <|> (do exactly "_"; take p))
  return first :: rest

/-- Whether a minus sign comes first; a sign is taken. -/
def sign : Scan Bool :=
  (do exactly "-"; return true) <|> (do exactly "+"; return false) <|> pure false

/-- The digits of a whole number, without zeros in front. -/
def wholeDigits : Scan (List Char) :=
  (do check (· != '0'); digitRun Char.isDigit) <|> times Char.isDigit 1

/-- A whole number in base ten. -/
def decimal : Scan Int := do
  let negative ← sign
  let n := (ofDigits 10 (← wholeDigits) : Int)
  return if negative then -n else n

/-- A whole number in base two, eight or sixteen. -/
def inBase (mark : String) (base : Nat) : Scan Int := do
  exactly mark
  let digits ← digitRun fun c => (hexDigit? c).any (· < base)
  return ofDigits base digits

/-- A whole number of 64 bits. -/
def integer : Scan Value := do
  let n ← inBase "0x" 16 <|> inBase "0o" 8 <|> inBase "0b" 2 <|> decimal
  if Int64.minValue.toInt ≤ n ∧ n ≤ Int64.maxValue.toInt then return .integer n else failure

def exponent : Scan Int := do
  exactly "e" <|> exactly "E"
  let negative ← sign
  let n := (ofDigits 10 (← digitRun Char.isDigit) : Int)
  return if negative then -n else n

def fraction : Scan (List Char) := do
  exactly "."
  digitRun Char.isDigit

/-- Whether `digits · 10 ^ scale` is too large for a double: it rounds to 2 ^ 1024 or more. -/
def isHuge (digits : List Char) (scale : Int) : Bool :=
  let digits := digits.dropWhile (· == '0')
  let size := digits.length + scale
  if digits.isEmpty || size < 300 then false
  else if 320 < size then true
  else
    (Nat.pow 2 1024 - Nat.pow 2 970) * Nat.pow 10 (-scale).toNat ≤ ofDigits 10 digits * Nat.pow 10 scale.toNat

/-- A floating-point number.  A positive one must not be too large. -/
def float : Scan Value := do
  let negative ← sign
  let whole ← wholeDigits
  let (part, scale) ←
    (do return ([], ← exponent)) <|> (do return (← fraction, (← maybe exponent).getD 0))
  if !negative && isHuge (whole ++ part) (scale - part.length) then failure
  return .float

/-- Infinity, or not a number. -/
def specialFloat : Scan Value := do
  let _ ← sign
  exactly "inf" <|> exactly "nan"
  return .float

/-! ## Dates -/

/-- Two digits for a number in a range. -/
def twoDigits (low high : Nat) : Scan Nat := do
  let n := ofDigits 10 (← times Char.isDigit 2)
  if low ≤ n ∧ n ≤ high then return n else failure

def daysIn (year month : Nat) : Nat :=
  if month = 2 then
    if year % 4 = 0 ∧ (year % 100 ≠ 0 ∨ year % 400 = 0) then 29 else 28
  else if month ∈ [4, 6, 9, 11] then 30 else 31

def date : Scan Unit := do
  let year := ofDigits 10 (← times Char.isDigit 4)
  exactly "-"
  let month ← twoDigits 1 12
  exactly "-"
  let _ ← twoDigits 1 (daysIn year month)

def clock : Scan Unit := do
  let _ ← twoDigits 0 23
  exactly ":"
  let _ ← twoDigits 0 59
  exactly ":"
  let _ ← twoDigits 0 60
  let _ ← maybe (do exactly "."; let _ ← take Char.isDigit; many (take Char.isDigit))

def offset : Scan Unit :=
  exactly "Z" <|> exactly "z" <|> do
    exactly "+" <|> exactly "-"
    let _ ← twoDigits 0 23
    exactly ":"
    let _ ← twoDigits 0 59

/-- A date, a time of day, or both. -/
def moment : Scan Value := do
  (do date
      let _ ← maybe do
        exactly "T" <|> exactly "t" <|> exactly " "
        clock
        let _ ← maybe offset) <|> clock
  return .moment

def boolean : Scan Value :=
  (do exactly "true"; return .boolean true) <|> (do exactly "false"; return .boolean false)

/-- A value without parts. -/
def scalar : Scan Value :=
  (do return .text (← string)) <|> boolean <|> moment <|> float <|> specialFloat <|> integer

end Scan

end GoApi.Toml
