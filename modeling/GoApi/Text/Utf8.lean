/-!
# UTF-8

`encode` writes text as bytes.  `decode?` reads bytes that are text and nothing else, and `decodeAny`
reads any bytes: each longest piece that starts a character but does not finish it, and each byte
that starts none, is read as one replacement character.
-/

namespace GoApi.Text.Utf8

def encode (s : String) : List UInt8 :=
  s.toList.flatMap String.utf8EncodeChar

/-- What may follow the first byte of a character of several bytes: the number of bytes, and the
range of the second one.  The other bytes are between `80` and `BF`. -/
def follow? (b : UInt8) : Option (Nat × UInt8 × UInt8) :=
  if 0xc2 ≤ b ∧ b ≤ 0xdf then some (1, 0x80, 0xbf)
  else if b = 0xe0 then some (2, 0xa0, 0xbf)
  else if b = 0xed then some (2, 0x80, 0x9f)
  else if 0xe1 ≤ b ∧ b ≤ 0xef then some (2, 0x80, 0xbf)
  else if b = 0xf0 then some (3, 0x90, 0xbf)
  else if 0xf1 ≤ b ∧ b ≤ 0xf3 then some (3, 0x80, 0xbf)
  else if b = 0xf4 then some (3, 0x80, 0x8f)
  else none

/-- Where reading stands. -/
inductive Pending where
  /-- Between characters. -/
  | between
  /-- In a character: the number of its bytes that are left, its code point so far, and the range of
  the next byte. -/
  | within (left code : Nat) (low high : UInt8)

/-- What the first byte of a character gives. -/
def start (b : UInt8) : List (Option Char) × Pending :=
  if b < 0x80 then ([some (Char.ofNat b.toNat)], .between)
  else
    match follow? b with
    | none => ([none], .between)
    | some (count, low, high) => ([], .within count (b.toNat % Nat.pow 2 (6 - count)) low high)

/-- The characters that bytes stand for, with `none` for each piece that stands for none. -/
def read : Pending → List UInt8 → List (Option Char)
  | .between, [] => []
  | .within .., [] => [none]
  | .between, b :: rest =>
    let (found, next) := start b
    found ++ read next rest
  | .within left code low high, b :: rest =>
    if low ≤ b ∧ b ≤ high then
      let code := code * 64 + b.toNat % 64
      if left ≤ 1 then some (Char.ofNat code) :: read .between rest
      else read (.within (left - 1) code 0x80 0xbf) rest
    else
      let (found, next) := start b
      none :: found ++ read next rest

/-- The text that bytes stand for, if they stand for text. -/
def decode? (bytes : List UInt8) : Option String :=
  ((read .between bytes).mapM id).map String.ofList

/-- The text that bytes stand for, with replacement characters for what is no text. -/
def decodeAny (bytes : List UInt8) : String :=
  String.ofList ((read .between bytes).map (·.getD '\ufffd'))

end GoApi.Text.Utf8
