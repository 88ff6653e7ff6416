import GoApi.Source.ExprReader

/-!
# Reading files

`File.ofSource` reads the top-level declarations of a source.  A declaration that cannot be read is
left out and noted as a syntax error; reading goes on at the next line that starts one.
-/

namespace GoApi.Source

open Reader

/-- Readers for types and expressions nested at most `depth` deep. -/
def innerReaders : Nat → Inner
  | 0 => ⟨fun _ => failure, fun _ => failure, fun _ => failure⟩
  | depth + 1 =>
    let inner := innerReaders depth
    ⟨readType inner, readExpr inner, readOperand inner⟩

/-- One line of a group: what it declares, and whether it has an end of its own. -/
def readLine {α : Type} (p : Reader α) : Reader (α × Bool) := do
  let x ← p
  match ← peek with
  | some t =>
    let closed := isMark ")" t && !t.afterBreak
    terminator
    return (x, !closed)
  | none => return (x, true)

/-- One item, or a group of items in parentheses; and whether each item has an end of its own. -/
def readGroup {α : Type} (p : Reader α) : Reader (List α × Bool) :=
  group <|> (do return ([← p], true))
where
  group := do
    mark "("
    let lines ← many (readLine p)
    mark ")"
    return (lines.map (·.1), lines.all (·.2))

/-- A text without the quotes around it. -/
def unquote (text : String) : String :=
  String.ofList (strip '\x60' (strip '"' text.toList))
where
  strip (c : Char) (s : List Char) : List Char :=
    ((s.dropWhile (· == c)).reverse.dropWhile (· == c)).reverse

def readImport : Reader Import := do
  let name ← maybe (word <|> do mark "."; return ".")
  let path ← take (·.kind == .string)
  return ⟨name, unquote path.text⟩

/-- A type declaration.  A bracket after the name is an array's if it can be. -/
def readTypeDecl (inner : Inner) : Reader TypeDecl := do
  let name ← word
  array name <|> plain name
where
  array (name : String) := do
    check (isMark "[")
    let body ← inner.type .lines
    ending
    return { name, body }
  plain (name : String) := do
    let binders ← maybe (readBinders inner)
    let isAlias ← took (mark "=")
    let body ← inner.type .lines
    return { name, binders := binders.getD [], isAlias, body }

def readValueSpec (inner : Inner) : Reader ValueSpec := do
  let names ← commas .lines word
  let type? ← maybe (do joined .lines; inner.type .lines)
  let values ← maybe do
    joinedMark .lines "="
    commas .lines (inner.expr .lines)
  return { names, type?, values := values.getD [] }

/-- The type of a receiver, and the names that it binds. -/
def receiverOf : TypeExpr → Option Receiver
  | .name n => some ⟨n, []⟩
  | .pointer inner => (receiverOf inner).map fun r => { r with type := "*" ++ r.type }
  | .paren inner => receiverOf inner
  | .generic base args =>
    let binders := args.map fun a => String.ofList (Text.trim a.text.toList)
    match base with
    | .name n => some ⟨n, binders⟩
    | .qualified p n => some ⟨p ++ "." ++ n, binders⟩
    | _ => none
  | _ => none

/-- What follows `func` in a declaration. -/
def readFunc (inner : Inner) : Reader Decl := do
  let decl ← method <|> function
  let _ ← maybe (do joined .lines; block)
  return decl
where
  function := do
    let name ← word
    let binders ← maybe (readBinders inner)
    let sig ← readSignature inner .lines
    return .func name { sig with binders := binders.getD [] }
  method := do
    let entries ← readEntries inner
    let name ← word
    let sig ← readSignature inner .lines
    let plain := (entries.filter (!·.2)).flatMap (·.1)
    return .method (plain.head?.bind fun p => receiverOf p.type) name sig

/-- What one top-level item adds to a file. -/
inductive Item where
  | package (name : String)
  | decl (decl : Decl)
  /-- A statement; it declares nothing. -/
  | statement

/-- A declaration, and whether it is well formed. -/
def readDecl (inner : Inner) : Reader (Item × Bool) := do
  match (← take (·.kind == .word)).text with
  | "package" => return (.package (← word), true)
  | "import" => return (.decl (.imports (← readGroup readImport).1), true)
  | "func" => return (.decl (← readFunc inner), true)
  | "type" =>
    let (list, ok) ← readGroup (readTypeDecl inner)
    return (.decl (.types list), ok)
  | "const" =>
    let (specs, ok) ← readGroup (readValueSpec inner)
    return (.decl (.consts specs), ok)
  | "var" =>
    let (specs, ok) ← readGroup (readValueSpec inner)
    return (.decl (.vars specs), ok)
  | _ => failure

/-- Words that start a declaration other than a function. -/
def declWords : List String := ["package", "import", "type", "const", "var"]

/-- Words that start a statement with parts in braces or on its line. -/
def statementWords : List String :=
  ["if", "for", "switch", "select", "go", "defer", "return", "goto", "break", "continue",
    "fallthrough"]

/-- Operators between the two sides of an assignment. -/
def assignments : List String :=
  ["=", ":=", "+=", "-=", "*=", "/=", "%=", "&=", "|=", "^=", "<<=", ">>=", "&^=", "<-"]

/-- The rest of a line, blocks included, at most `fuel` tokens or blocks. -/
def skipLine : Nat → Reader Unit
  | 0 => pure ()
  | fuel + 1 => do
    if ← atEnd then return
    block <|> (do let _ ← take fun _ => true)
    skipLine fuel

def readStatement (inner : Inner) : Reader (Item × Bool) := do
  skipped <|> simple
  return (.statement, true)
where
  skipped := do
    block <|> (do let _ ← take fun t => t.kind == .word && statementWords.contains t.text)
    fun ts => skipLine ts.length ts
  simple := do
    check fun t => !(t.kind == .word && declWords.contains t.text)
    let _ ← commas .lines (inner.expr .lines)
    let _ ← maybe do
      joined .lines
      let t ← take (·.kind == .mark)
      if t.text == "++" || t.text == "--" then return
      unless assignments.contains t.text do failure
      let _ ← commas .lines (inner.expr .lines)

/-- Whether an item has its end before the given tokens. -/
def ended : List Token → Bool
  | [] => true
  | t :: _ => t.afterBreak || isMark ";" t

/-- Whether a token starts a declaration on a line of its own. -/
def startsDecl (t : Token) : Bool :=
  t.afterBreak && t.kind == .word && (t.text == "func" || declWords.contains t.text)

/-- The items of a file, each with the line of a syntax error in it; `fuel` bounds their number. -/
def readItems (inner : Inner) : Nat → List Token → List (Option Item × Option Nat)
  | 0, _ => []
  | _, [] => []
  | fuel + 1, t :: rest =>
    if isMark ";" t then readItems inner fuel rest
    else
      match (readDecl inner <|> readStatement inner) (t :: rest) with
      | some ((item, wellFormed), after) =>
        (some item, if wellFormed && ended after then none else some t.line)
          :: readItems inner fuel after
      | none =>
        (none, some t.line) :: readItems inner fuel (rest.dropWhile fun t => !startsDecl t)

/-- The tokens without stray characters; a line break before one counts for the token after it. -/
def withoutStrays : Bool → List Token → List Token
  | _, [] => []
  | broken, t :: rest =>
    if t.kind == .stray then withoutStrays (broken || t.afterBreak) rest
    else { t with afterBreak := broken || t.afterBreak } :: withoutStrays false rest

def Item.package? : Item → Option String
  | .package name => some name
  | _ => none

def Item.decl? : Item → Option Decl
  | .decl d => some d
  | _ => none

/-- The file of a source.  What is kept of a source with syntax errors is a rule of this reader: stray
characters count for nothing, and a declaration that cannot be read is left out as a whole.  A parser
that repairs errors may keep other parts of it. -/
def File.ofSource (source : String) : File :=
  let all := tokens source
  let kept := withoutStrays false all
  let items := readItems (innerReaders (kept.length + 1)) (kept.length + 1) kept
  let stray? := (all.find? (·.kind == .stray)).map (·.line)
  let broken? := items.findSome? (·.2)
  { package? := items.findSome? fun i => i.1.bind Item.package?
    decls := items.filterMap fun i => i.1.bind Item.decl?
    errorLine? :=
      match stray?, broken? with
      | some a, some b => some (min a b)
      | some a, none => some a
      | none, b => b }

end GoApi.Source
