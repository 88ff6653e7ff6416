import GoApi.Source.Reader
import GoApi.Source.Syntax
import GoApi.Text.Blank

/-!
# Reading types

Types and expressions contain each other: an array has a length expression, a conversion a type.
`Inner` holds readers for what stands deeper inside, so each reader here is a plain definition; the
knot is tied in the module on files, by a bound on the depth of nesting.

Two readings are not what the words suggest.  In a parameter list, identifiers with a word after
their last comma are names whenever a type follows that word, so `(int, chan T)` declares `int` and
`chan`, both of type `T`.  And `chan <- chan T` is a channel of `<-chan T`.
-/

namespace GoApi.Source

open Reader

/-- Readers for nested types, expressions and operands. -/
structure Inner where
  type : Layout → Reader TypeExpr
  expr : Layout → Reader Expr
  operand : Layout → Reader Expr

/-- Words that start a type of their own. -/
def typeWords : List String := ["chan", "map", "func", "struct", "interface"]

/-- Take a word that starts no type of its own. -/
def plainWord : Reader String := do
  return (← take fun t => t.kind == .word && !typeWords.contains t.text).text

/-- A text without its white space. -/
def compact (text : String) : String :=
  String.ofList (text.toList.filter fun c => !Text.isBlank c)

/-- Alternatives separated by `|`. -/
def readTerms (inner : Inner) (l : Layout) : Reader (List TypeExpr) :=
  separated (joinedMark l "|") (inner.type l)

def readTypeArgs (inner : Inner) : Reader (List (TypeArg TypeExpr)) := do
  mark "["
  let args ← commas .free do
    let (terms, text) ← spanned (readTerms inner .free)
    return TypeArg.mk text terms
  let _ ← maybe (mark ",")
  mark "]"
  return args

/-- A name, with a package before it or type arguments after it. -/
def readNamed (inner : Inner) (l : Layout) : Reader TypeExpr := do
  let first ← plainWord
  let base ← match ← maybe (do joinedMark l "."; word) with
    | some name => pure (TypeExpr.qualified first name)
    | none => pure (TypeExpr.name first)
  match ← maybe (do joined l; readTypeArgs inner) with
  | some args => return .generic base args
  | none => return base

/-- One entry of a parameter list: its parameters, and whether it is variadic. -/
def readParam (inner : Inner) : Reader (List (Param TypeExpr) × Bool) :=
  variadic <|> grouped <|> unnamed
where
  variadic := do
    let name ← maybe plainWord
    mark "..."
    return ([⟨name.getD "", .slice (← inner.type .free)⟩], true)
  grouped := do
    let first ← plainWord
    let more ← many (do mark ","; word)
    let type ← inner.type .free
    check fun t => isMark "," t || isMark ")" t
    return ((first :: more).map (⟨·, type⟩), false)
  unnamed := do
    return ([⟨"", ← inner.type .free⟩], false)

def readEntries (inner : Inner) : Reader (List (List (Param TypeExpr) × Bool)) := do
  mark "("
  let entries ← maybe (commas .free (readParam inner))
  if entries.isSome then let _ ← maybe (mark ",")
  mark ")"
  return entries.getD []

/-- A parameter list, and whether one of its entries is variadic. -/
def readParams (inner : Inner) : Reader (List (Param TypeExpr) × Bool) := do
  let entries ← readEntries inner
  return (entries.flatMap (·.1), entries.any (·.2))

def readSignature (inner : Inner) (l : Layout) : Reader (Signature TypeExpr) := do
  let (params, variadic) ← readParams inner
  let results ← maybe do
    joined l
    (do return (← readParams inner).1) <|> (do return [⟨"", ← inner.type l⟩])
  return { params, variadic, results := results.getD [] }

/-- Whether a run of arrows and `chan`s that starts with an arrow ends in one. -/
def endsInArrow : List Token → Bool
  | a :: b :: c :: rest =>
    if isMark "<-" a && isWord "chan" b then isMark "<-" c && endsInArrow (c :: rest)
    else isMark "<-" a
  | [a, b] => isMark "<-" a && !isWord "chan" b
  | [a] => isMark "<-" a
  | [] => false

/-- What follows `chan`.  An arrow belongs to the element if that makes it a receiving channel; it
still makes the outer channel a sending one, unless a comment stands before it. -/
def readChan (inner : Inner) (l : Layout) : Reader TypeExpr := do
  match ← peek with
  | some t =>
    if isMark "<-" t then
      let dir := if t.lead.toList.all Text.isBlank then .send else .both
      if ← (fun ts => some (endsInArrow ts, ts)) then mark "<-"
      return .chan dir (← inner.type l)
    else return .chan .both (← inner.type l)
  | none => failure

def readTag : Reader Unit := do
  joined .lines
  let _ ← take (·.kind == .string)

/-- One line of a struct body. -/
def readField (inner : Inner) : Reader (List (FieldDecl TypeExpr)) := do
  let fields ← pointer <|> embedded <|> named
  terminator
  return fields
where
  pointer := do
    mark "*"
    let type ← readNamed inner .lines
    let _ ← maybe readTag
    return [⟨none, .pointer type⟩]
  embedded := do
    let type ← readNamed inner .lines
    let _ ← maybe readTag
    ending
    return [⟨none, type⟩]
  named := do
    let names ← commas .free word
    let type ← inner.type .lines
    let _ ← maybe readTag
    return names.map (⟨some ·, type⟩)

def readStruct (inner : Inner) : Reader TypeExpr := do
  mark "\x7b"
  let fields ← many (readField inner)
  mark "\x7d"
  return .struct fields.flatten

/-- One line of an interface body. -/
def readElement (inner : Inner) : Reader (Element TypeExpr) := do
  let element ← method <|> terms
  terminator
  return element
where
  method := do
    let name ← word
    joined .lines
    return .method name (← readSignature inner .lines)
  terms := do
    return .terms (← readTerms inner .lines)

def readInterface (inner : Inner) : Reader TypeExpr := do
  mark "\x7b"
  let elements ← many (readElement inner)
  mark "\x7d"
  return .interface elements

/-- What follows the opening bracket of a slice or array. -/
def readSequence (inner : Inner) (l : Layout) : Reader TypeExpr :=
  slice <|> array
where
  slice := do
    mark "]"
    return .slice (← inner.type l)
  array := do
    let (_, len) ← spanned (inner.expr .free)
    mark "]"
    return .array (compact len) (← inner.type l)

def readMap (inner : Inner) (l : Layout) : Reader TypeExpr := do
  mark "["
  let key ← inner.type .free
  mark "]"
  return .map key (← inner.type l)

def readType (inner : Inner) (l : Layout) : Reader TypeExpr := do
  match ← peek with
  | none => failure
  | some t =>
    match t.kind, t.text with
    | .word, "chan" => do keyword "chan"; readChan inner l
    | .word, "map" => do keyword "map"; readMap inner l
    | .word, "func" => do keyword "func"; return .func (← readSignature inner l)
    | .word, "struct" => do keyword "struct"; readStruct inner
    | .word, "interface" => do keyword "interface"; readInterface inner
    | .word, _ => readNamed inner l
    | .mark, "*" => do mark "*"; return .pointer (← inner.type l)
    | .mark, "~" => do mark "~"; return .tilde (← inner.type l)
    | .mark, "[" => do mark "["; readSequence inner l
    | .mark, "<-" => do mark "<-"; keyword "chan"; return .chan .recv (← inner.type l)
    | .mark, "(" => do
      mark "("
      let type ← inner.type .free
      mark ")"
      return .paren type
    | _, _ => failure

def readBinders (inner : Inner) : Reader (List (Binder TypeExpr)) := do
  mark "["
  let groups ← commas .free do
    let names ← commas .free word
    let constraint ← readTerms inner .free
    return names.map (Binder.mk · (.terms constraint))
  let _ ← maybe (mark ",")
  mark "]"
  return groups.flatten

end GoApi.Source
