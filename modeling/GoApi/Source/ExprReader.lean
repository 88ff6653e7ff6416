import GoApi.Source.TypeReader

/-!
# Reading expressions

An initializer is read to its end, but only what its type depends on is kept.

A name with type arguments before one operand is a conversion, also if the name is a function's.  A
parenthesised operand before an argument list is a type only if it cannot be an expression or has
type arguments.
-/

namespace GoApi.Source

open Reader

/-- A primary expression on its way from left to right. -/
inductive Primary where
  /-- A plain name. -/
  | name (name : String)
  /-- A plain name and a member of it. -/
  | member (operand member : String)
  /-- Complete; whatever follows makes it something whose type is not told. -/
  | done (expr : Expr)

/-- The expression that a primary expression is if nothing follows. -/
def Primary.expr : Primary → Expr
  | .name n => .name n
  | .member .. => .other
  | .done e => e

/-- The type that a primary expression names. -/
def Primary.type? : Primary → Option TypeExpr
  | .name n => some (.name n)
  | .member a b => some (.qualified a b)
  | .done _ => none

def Primary.call : Primary → Expr
  | .name n => .call n none
  | .member a b => .callMember a b
  | .done _ => .other

/-- One operand in parentheses. -/
def readArgument (inner : Inner) : Reader Unit := do
  mark "("
  let _ ← inner.expr .free
  let _ ← maybe (mark ",")
  mark ")"

/-- A conversion's operand or the body of a composite literal, after a type. -/
def readUse (inner : Inner) (type : TypeExpr) : Reader Expr := do
  readArgument inner <|> block
  return .ofType type

/-- The arguments of `make` and `new`: the first is a type, or stands for one by its text. -/
def readTypeFirst (inner : Inner) : Reader (Option TypeExpr) :=
  none <|> typed <|> verbatim
where
  none := do
    mark "("
    mark ")"
    return Option.none
  rest := do
    let _ ← many (do mark ","; inner.expr .free)
    let _ ← maybe (mark ",")
    mark ")"
  typed := do
    mark "("
    let type ← inner.type .free
    rest
    return some type
  verbatim := do
    mark "("
    let (_, text) ← spanned (inner.expr .free)
    rest
    return some (.verbatim text)

/-- What may follow a primary expression. -/
def readSuffix (inner : Inner) (l : Layout) (p : Primary) : Reader Primary := do
  joined l
  selector <|> assertion <|> instantiated <|> index <|> call <|> composite
where
  selector := do
    mark "."
    let member ← word
    match p with
    | .name n => return .member n member
    | _ => return .done .other
  assertion := do
    mark "."
    bracket "(" ")"
    return .done .other
  instantiated := do
    let some base := p.type? | failure
    let args ← readTypeArgs inner
    (do joined l; return .done (← readUse inner (.generic base args)))
      <|> (do joined l; bracket "(" ")"; return .done p.call)
      <|> (do return .done .other)
  index := do
    bracket "[" "]"
    return .done .other
  call := do
    match p with
    | .name n =>
      if n == "make" || n == "new" then return .done (.call n (← readTypeFirst inner))
      else bracket "(" ")"; return .done p.call
    | _ => bracket "(" ")"; return .done p.call
  composite := do
    let some type := p.type? | failure
    block
    return .done (.ofType type)

/-- All that follows a primary expression, at most `fuel` suffixes. -/
def readSuffixes (inner : Inner) (l : Layout) : Nat → Primary → Reader Primary
  | 0, p => pure p
  | fuel + 1, p => do
    match ← maybe (readSuffix inner l p) with
    | some q => readSuffixes inner l fuel q
    | none => return p

/-- Whether a type that could also be an expression has type arguments. -/
def TypeExpr.hasArgs : TypeExpr → Bool
  | .generic .. => true
  | .pointer type | .paren type => type.hasArgs
  | _ => false

/-- An operand that starts with a parenthesis. -/
def readParen (inner : Inner) (l : Layout) : Reader Primary :=
  conversion <|> group
where
  parens {α : Type} (p : Reader α) : Reader α := do
    mark "("
    let x ← p
    mark ")"
    return x
  conversion := do
    let start ← get
    let type ← parens (inner.type .free)
    joined l
    readArgument inner
    if (parens (inner.expr .free) start).isSome && !type.hasArgs then failure
    return .done (.ofType (.paren type))
  group := do
    return .done (.paren (← parens (inner.expr .free)))

/-- A conversion or composite literal that starts with a type. -/
def readTypeUse (inner : Inner) (l : Layout) : Reader Expr := do
  readUse inner (← readType inner l)

/-- The first part of a primary expression. -/
def readBase (inner : Inner) (l : Layout) : Reader Primary := do
  match ← peek with
  | none => failure
  | some t =>
    match t.kind, t.text with
    | .int, _ => literal .int
    | .float, _ => literal .float
    | .imaginary, _ => literal .complex
    | .rune, _ => literal .rune
    | .string, _ => literal .string
    | .word, "iota" => literal .int
    | .word, "true" | .word, "false" => literal .bool
    | .word, "nil" => do keyword "nil"; return .done .other
    | .word, "func" => function <|> typed
    | .word, text => if typeWords.contains text then typed else return .name (← word)
    | .mark, "[" => openArray <|> typed
    | .mark, "(" => readParen inner l
    | _, _ => failure
where
  literal (kind : Literal) := do
    let _ ← take fun _ => true
    return .done (.literal kind)
  typed := do
    return .done (← readTypeUse inner l)
  function := do
    keyword "func"
    let sig ← readSignature inner l
    block
    return .done (.function sig)
  openArray := do
    mark "["
    mark "..."
    mark "]"
    let elem ← inner.type l
    block
    return .done (.ofType (.array "..." elem))

/-- The meaning of an operator in front of an operand. -/
def unaryOp? (text : String) : Option UnaryOp :=
  match text with
  | "&" => some .address
  | "*" | "<-" => some .fetch
  | "+" | "-" | "!" | "^" | "~" => some .same
  | _ => none

/-- An operand: a primary expression after any number of operators. -/
def readOperand (inner : Inner) (l : Layout) : Reader Expr :=
  received <|> unary <|> primary
where
  received := do
    check (isMark "<-")
    readTypeUse inner l
  unary := do
    let t ← take (·.kind == .mark)
    let some op := unaryOp? t.text | failure
    return .unary op (← inner.operand l)
  primary := do
    let base ← readBase inner l
    let p ← fun ts => readSuffixes inner l ts.length base ts
    return p.expr

/-- The meaning of an operator between operands, and how tightly it binds. -/
def binaryOp? (text : String) : Option (Nat × BinaryOp) :=
  match text with
  | "<<" | ">>" => some (5, .shift)
  | "*" | "/" | "%" | "&" | "&^" => some (5, .combine)
  | "+" | "-" | "|" | "^" => some (4, .combine)
  | "==" | "!=" | "<" | "<=" | ">" | ">=" => some (3, .compare)
  | "&&" => some (2, .combine)
  | "||" => some (1, .combine)
  | _ => none

/-- Join the operands around every operator of one level, from left to right. -/
def joinLevel (level : Nat) : Expr → List (Nat × BinaryOp × Expr) →
    Expr × List (Nat × BinaryOp × Expr)
  | left, [] => (left, [])
  | left, (n, op, right) :: rest =>
    if n = level then joinLevel level (.binary op left right) rest
    else
      let (right, rest) := joinLevel level right rest
      (left, (n, op, right) :: rest)

/-- The tree of a chain of operands: tighter operators first, each level from left to right. -/
def joinOperands (first : Expr) (rest : List (Nat × BinaryOp × Expr)) : Expr :=
  ([5, 4, 3, 2, 1].foldl (fun (e, rest) level => joinLevel level e rest) (first, rest)).1

def readExpr (inner : Inner) (l : Layout) : Reader Expr := do
  let first ← readOperand inner l
  let rest ← many do
    joined l
    let t ← take (·.kind == .mark)
    let some (level, op) := binaryOp? t.text | failure
    return (level, op, ← readOperand inner l)
  return joinOperands first rest

end GoApi.Source
