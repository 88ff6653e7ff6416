import GoApi.Build.Token

/-!
# Constraint expressions

    or  = and { "||" and }
    and = not { "&&" not }
    not = "!" not | "(" or ")" | tag

Both binary operators associate to the left.  `Expr.parse` reads a text, `Expr.eval` decides it
under a set of tags.
-/

namespace GoApi.Build

/-- A constraint on build tags. -/
inductive Expr where
  | tag (name : String)
  | not (inner : Expr)
  | and (left right : Expr)
  | or (left right : Expr)
  deriving DecidableEq, Repr

namespace Expr

/-- Why a text is no constraint. -/
inductive Cause where
  /-- A character that starts no token. -/
  | strayCharacter (c : Char)
  /-- A token that starts no operand. -/
  | strayToken (token : Token)
  /-- The text ends where an operand is due. -/
  | endOfText
  /-- A parenthesis that is not closed. -/
  | unclosed
  /-- Tokens after a complete expression. -/
  | trailing
  deriving DecidableEq, Repr

def Cause.message : Cause → String
  | .strayCharacter c => "unexpected character Some(" ++ Text.quoteChar c ++ ")"
  | .strayToken token => "unexpected " ++ token.word
  | .endOfText => "unexpected end of expression"
  | .unclosed => "missing )"
  | .trailing => "unexpected trailing tokens"

/-- An expression read from the front of a token list, and the strictly shorter rest. -/
structure Read (tokens : List Token) where
  expr : Expr
  rest : List Token
  shorter : rest.length < tokens.length

/-- What a longer list has in front of a shorter one, its reading may take too. -/
def Read.widen {tokens wider : List Token} (h : tokens.length ≤ wider.length) (r : Read tokens) :
    Read wider :=
  ⟨r.expr, r.rest, Nat.lt_of_lt_of_le r.shorter h⟩

mutual

/-- An operand of `&&`. -/
def readNot (tokens : List Token) : Except Cause (Read tokens) :=
  match tokens with
  | [] => .error .endOfText
  | .tag name :: rest => .ok ⟨.tag (String.ofList name), rest, by simp⟩
  | .not :: rest =>
    match readNot rest with
    | .error cause => .error cause
    | .ok r => .ok ⟨.not r.expr, r.rest, by have := r.shorter; simp; omega⟩
  | .opening :: rest =>
    match readOr rest with
    | .error cause => .error cause
    | .ok ⟨expr, .closing :: after, h⟩ => .ok ⟨expr, after, by simp at h ⊢; omega⟩
    | .ok _ => .error .unclosed
  | token :: _ => .error (.strayToken token)
termination_by (tokens.length, 0)

def readAnd (tokens : List Token) : Except Cause (Read tokens) :=
  match readNot tokens with
  | .error cause => .error cause
  | .ok first =>
    have := first.shorter
    moreAnd first
termination_by (tokens.length, 2)

/-- The operands that follow by `&&`. -/
def moreAnd {tokens : List Token} (left : Read tokens) : Except Cause (Read tokens) :=
  match left with
  | ⟨expr, .and :: rest, h⟩ =>
    match readNot rest with
    | .error cause => .error cause
    | .ok right =>
      have := right.shorter
      moreAnd ⟨.and expr right.expr, right.rest, by simp at h; omega⟩
  | done => .ok done
termination_by (left.rest.length, 1)

def readOr (tokens : List Token) : Except Cause (Read tokens) :=
  match readAnd tokens with
  | .error cause => .error cause
  | .ok first =>
    have := first.shorter
    moreOr first
termination_by (tokens.length, 4)

/-- The conjunctions that follow by `||`. -/
def moreOr {tokens : List Token} (left : Read tokens) : Except Cause (Read tokens) :=
  match left with
  | ⟨expr, .or :: rest, h⟩ =>
    match readAnd rest with
    | .error cause => .error cause
    | .ok right =>
      have := right.shorter
      moreOr ⟨.or expr right.expr, right.rest, by simp at h; omega⟩
  | done => .ok done
termination_by (left.rest.length, 3)

end

def ofTokens (tokens : List Token) : Except Cause Expr :=
  match readOr tokens with
  | .error cause => .error cause
  | .ok r => if r.rest.isEmpty then .ok r.expr else .error .trailing

/-- The expression that a text spells. -/
def parse (text : String) : Except Cause Expr :=
  match tokenize text.toList with
  | .error c => .error (.strayCharacter c)
  | .ok tokens => ofTokens tokens

/-- Whether an expression holds when exactly the tags of `holds` do. -/
def eval (holds : String → Bool) : Expr → Bool
  | .tag name => holds name
  | .not inner => !inner.eval holds
  | .and left right => left.eval holds && right.eval holds
  | .or left right => left.eval holds || right.eval holds

end Expr

end GoApi.Build
