import GoApi.Text.Utf8

/-!
# Globs

A glob describes paths byte by byte: `?` stands for a byte and `*` for bytes other than a slash,
`[a-z]` and `[!a-z]` for one byte of a class, which may be a slash, and `{a,b}` for one of several
globs.  `**` between slashes stands for any number of directories.

    **/x    x at any depth            a/**/x   x below a
    a/**    everything below a        **       everything

`Glob.ofText?` reads a glob and `Glob.admits` decides whether it describes a path.
-/

namespace GoApi.Discovery

inductive GlobPart where
  | literal (c : Char)
  /-- One byte that is no slash. -/
  | any
  /-- Bytes that are no slashes. -/
  | star
  /-- Directories at the start of a path, or none. -/
  | leading
  /-- A slash, or a slash, directories and a slash. -/
  | between
  /-- A slash and anything after it. -/
  | beneath
  /-- One byte of a class. -/
  | oneOf (negated : Bool) (ranges : List (Char × Char))
  /-- One of several globs. -/
  | choice (branches : List (List GlobPart))
  deriving Inhabited

structure Glob where
  parts : List GlobPart
  deriving Inhabited

namespace Glob

/-! ## Matching -/

def slash : UInt8 := 0x2f

/-- What may be left of a path after bytes that are no slashes. -/
def withinName : List UInt8 → List (List UInt8)
  | [] => [[]]
  | b :: rest => (b :: rest) :: (if b = slash then [] else withinName rest)

/-- What may be left of a path after one of its slashes. -/
def afterSlash : List UInt8 → List (List UInt8)
  | [] => []
  | b :: rest => (if b = slash then [rest] else []) ++ afterSlash rest

/-- What may be left of a path after any bytes. -/
def suffixes : List UInt8 → List (List UInt8)
  | [] => [[]]
  | b :: rest => (b :: rest) :: suffixes rest

/-- What is left of a path after given bytes. -/
def afterBytes? : List UInt8 → List UInt8 → Option (List UInt8)
  | [], path => some path
  | _ :: _, [] => none
  | b :: lead, c :: path => if b = c then afterBytes? lead path else none

/-- Whether a byte is in a range of a class.  A character of several bytes counts as its bytes, so a
range goes from the last byte of its first character to the first byte of its last one. -/
def inRange (range : Char × Char) (b : UInt8) : Bool :=
  let low := String.utf8EncodeChar range.1
  let high := String.utf8EncodeChar range.2
  if range.1 = range.2 then low.contains b
  else
    low.dropLast.contains b || high.tail.contains b ||
      (low.getLast?.any (· ≤ b) && high.head?.any (b ≤ ·))

mutual

/-- Whether a part describes nothing but the empty text for want of anything in it. -/
def isVoid : GlobPart → Bool
  | .choice branches => allVoid branches
  | _ => false

def areVoid : List GlobPart → Bool
  | [] => true
  | part :: parts => isVoid part && areVoid parts

def allVoid : List (List GlobPart) → Bool
  | [] => true
  | branch :: branches => areVoid branch && allVoid branches

end

mutual

/-- Whether a part describes the start of a path whose rest passes a test. -/
def admitsPart : GlobPart → (List UInt8 → Bool) → List UInt8 → Bool
  | .literal c, test, path => (afterBytes? (String.utf8EncodeChar c) path).any test
  | .any, test, path =>
    match path with
    | [] => false
    | b :: rest => b != slash && test rest
  | .star, test, path => (withinName path).any test
  | .leading, test, path => test path || (afterSlash path).any test
  | .between, test, path =>
    match path with
    | [] => false
    | b :: rest => b == slash && (test rest || (afterSlash rest).any test)
  | .beneath, test, path =>
    match path with
    | [] => false
    | b :: rest => b == slash && (suffixes rest).any test
  | .oneOf negated ranges, test, path =>
    match path with
    | [] => false
    | b :: rest => ranges.any (inRange · b) != negated && test rest
  | .choice branches, test, path =>
    if allVoid branches then test path else admitsBranch branches test path

/-- Whether parts describe the start of a path whose rest passes a test. -/
def admitsParts : List GlobPart → (List UInt8 → Bool) → List UInt8 → Bool
  | [], test, path => test path
  | part :: parts, test, path => admitsPart part (admitsParts parts test) path

/-- Whether a branch that is not void describes the start of a path whose rest passes a test. -/
def admitsBranch : List (List GlobPart) → (List UInt8 → Bool) → List UInt8 → Bool
  | [], _, _ => false
  | branch :: branches, test, path =>
    (!areVoid branch && admitsParts branch test path) || admitsBranch branches test path

end

/-- Whether a glob describes a path. -/
def admits (g : Glob) (path : List UInt8) : Bool :=
  match g.parts with
  | [.leading] => true
  | parts => admitsParts parts List.isEmpty path

/-! ## Reading -/

/-- A piece of the text of a glob. -/
inductive Lexeme where
  | plain (c : Char)
  /-- A character after a backslash. -/
  | escaped (c : Char)
  | question
  | star
  | opening
  | closing
  | comma
  | oneOf (negated : Bool) (ranges : List (Char × Char))

/-- Where reading the text of a glob stands. -/
inductive Lexing where
  | outside
  /-- After a backslash. -/
  | escape
  /-- After the bracket that opens a class. -/
  | classStart
  /-- In a class: its ranges so far, last one first, whether nothing has been read of it, and whether
  a dash waits for the end of a range. -/
  | inClass (negated : Bool) (ranges : List (Char × Char)) (isFirst pending : Bool)

/-- The pieces of the text of a glob; `none` if a class or an escape is not finished or a range goes
down. -/
def lexemes : Lexing → List Char → Option (List Lexeme)
  | .outside, [] => some []
  | _, [] => none
  | .outside, c :: cs =>
    match c with
    | '?' => (lexemes .outside cs).map (.question :: ·)
    | '*' => (lexemes .outside cs).map (.star :: ·)
    | '[' => lexemes .classStart cs
    | '\x7b' => (lexemes .outside cs).map (.opening :: ·)
    | '\x7d' => (lexemes .outside cs).map (.closing :: ·)
    | ',' => (lexemes .outside cs).map (.comma :: ·)
    | '\\' => lexemes .escape cs
    | c => (lexemes .outside cs).map (.plain c :: ·)
  | .escape, c :: cs => (lexemes .outside cs).map (.escaped c :: ·)
  | .classStart, c :: cs =>
    if c = '!' ∨ c = '^' then lexemes (.inClass true [] true false) cs
    else lexemes (.inClass false [(c, c)] false false) cs
  | .inClass negated ranges true _, c :: cs =>
    lexemes (.inClass negated ((c, c) :: ranges) false false) cs
  | .inClass negated ranges false pending, c :: cs =>
    if c = ']' then
      let ranges := if pending then ('-', '-') :: ranges else ranges
      (lexemes .outside cs).map (.oneOf negated ranges.reverse :: ·)
    else if pending then
      match ranges with
      | (low, _) :: before =>
        if c < low then none else lexemes (.inClass negated ((low, c) :: before) false false) cs
      | [] => none
    else if c = '-' then lexemes (.inClass negated ranges false true) cs
    else lexemes (.inClass negated ((c, c) :: ranges) false false) cs

/-- A glob that is being read: its parts, last one first, after the branches of the innermost
alternative that are finished. -/
structure Draft where
  branches : List (List GlobPart) := []
  parts : List GlobPart := []

namespace Draft

def push (d : Draft) (part : GlobPart) : Draft := { d with parts := part :: d.parts }

def split (d : Draft) : Draft := { branches := d.parts.reverse :: d.branches, parts := [] }

/-- The alternative whose branches are finished. -/
def close (d : Draft) : GlobPart := .choice d.split.branches.reverse

/-- Replace the slash in front of `**`; two of them in a row are one. -/
def widen (d : Draft) (part : GlobPart) : Draft :=
  match d.parts with
  | .leading :: _ => d
  | .beneath :: _ => d
  | _ :: parts => { d with parts := part :: parts }
  | [] => d.push part

end Draft

/-- Whether `**` may stand for directories after a character; a comma or a brace counts inside an
alternative. -/
def opensDirs (nested : Bool) (last : Option Char) : Bool :=
  last == some '/' || (nested && (last == some ',' || last == some '\x7b'))

/-- The parts that pieces of text stand for; `none` if an alternative is not opened or not closed.
`outer` holds what surrounds the innermost alternative, and `last` is the character before. -/
def assemble (outer : List Draft) (draft : Draft) (last : Option Char) :
    List Lexeme → Option (List GlobPart)
  | [] => if outer.isEmpty then some draft.parts.reverse else none
  | .star :: .star :: rest =>
    let stars := (draft.push .star).push .star
    if draft.parts.isEmpty then
      match rest with
      | [] => assemble outer (draft.push .leading) (some '*') []
      | .plain '/' :: rest => assemble outer (draft.push .leading) (some '/') rest
      | piece :: rest => assemble outer stars (some '*') (piece :: rest)
    else if !opensDirs (!outer.isEmpty) last then assemble outer stars (some '*') rest
    else
      match rest with
      | [] => assemble outer (draft.widen .beneath) (some '*') []
      | .plain '/' :: rest => assemble outer (draft.widen .between) (some '/') rest
      | .comma :: rest =>
        assemble outer (if outer.isEmpty then stars else draft.widen .beneath) (some '*')
          (.comma :: rest)
      | .closing :: rest =>
        assemble outer (if outer.isEmpty then stars else draft.widen .beneath) (some '*')
          (.closing :: rest)
      | piece :: rest => assemble outer stars (some '*') (piece :: rest)
  | .star :: rest => assemble outer (draft.push .star) (some '*') rest
  | .plain c :: rest => assemble outer (draft.push (.literal c)) (some c) rest
  | .escaped c :: rest => assemble outer (draft.push (.literal c)) (some c) rest
  | .question :: rest => assemble outer (draft.push .any) (some '?') rest
  | .oneOf negated ranges :: rest =>
    assemble outer (draft.push (.oneOf negated ranges)) (some ']') rest
  | .opening :: rest => assemble (draft :: outer) {} (some '\x7b') rest
  | .closing :: rest =>
    match outer with
    | [] => none
    | around :: outer => assemble outer (around.push draft.close) (some '\x7d') rest
  | .comma :: rest =>
    if outer.isEmpty then assemble outer (draft.push (.literal ',')) (some ',') rest
    else assemble outer draft.split (some ',') rest

def ofText? (text : List Char) : Option Glob := do
  let pieces ← lexemes .outside text
  let parts ← assemble [] {} none pieces
  return ⟨parts⟩

end Glob

end GoApi.Discovery
