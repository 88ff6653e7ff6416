import GoApi.Ty.Basic

/-!
# Syntax of Go declarations

The part of Go that a package's exported surface depends on: type expressions, initializers as far
as their types can be told, and top-level declarations.  Function bodies and the contents of literals
are not kept.
-/

namespace GoApi.Source

/-- A type argument: its alternatives, and its text, which a receiver binds as a name. -/
structure TypeArg (α : Type) where
  text : String
  terms : List α

/-- A struct field; an embedded one has no name of its own. -/
structure FieldDecl (α : Type) where
  name? : Option String
  type : α

inductive Element (α : Type) where
  | method (name : String) (sig : Signature α)
  /-- Alternatives separated by `|`. -/
  | terms (alternatives : List α)

/-- A type as it is written. -/
inductive TypeExpr where
  | name (name : String)
  | qualified (package name : String)
  | generic (base : TypeExpr) (args : List (TypeArg TypeExpr))
  | pointer (elem : TypeExpr)
  | slice (elem : TypeExpr)
  /-- An array; the length is the text of its expression without white space. -/
  | array (len : String) (elem : TypeExpr)
  | map (key value : TypeExpr)
  | chan (dir : ChanDir) (elem : TypeExpr)
  | func (sig : Signature TypeExpr)
  | struct (fields : List (FieldDecl TypeExpr))
  | interface (elements : List (Element TypeExpr))
  | paren (inner : TypeExpr)
  /-- Any type whose underlying type is the given one. -/
  | tilde (inner : TypeExpr)
  /-- Alternatives separated by `|`, as a constraint. -/
  | terms (alternatives : List TypeExpr)
  /-- An expression where a type is due. -/
  | verbatim (text : String)

instance : Inhabited TypeExpr := ⟨.name ""⟩

/-- Kinds of literal; a literal's type is the untyped kind of that name. -/
inductive Literal where
  | int
  | float
  | complex
  | rune
  | string
  | bool
  deriving DecidableEq, Repr

inductive UnaryOp where
  /-- `&`: the address of the operand. -/
  | address
  /-- `*` and `<-`: what a pointer points to, what a channel gives. -/
  | fetch
  /-- An operator that keeps the type of its operand. -/
  | same
  deriving DecidableEq, Repr

inductive BinaryOp where
  | compare
  | shift
  | combine
  deriving DecidableEq, Repr

/-- An initializer, as far as its type can be told from it. -/
inductive Expr where
  | literal (kind : Literal)
  | name (name : String)
  | paren (inner : Expr)
  | unary (op : UnaryOp) (operand : Expr)
  | binary (op : BinaryOp) (left right : Expr)
  /-- A call of a plain name; the first argument is kept where it is a type. -/
  | call (function : String) (firstType? : Option TypeExpr)
  /-- A call of `operand.member` with a plain name as operand. -/
  | callMember (operand member : String)
  /-- A conversion to a type, or a composite literal of it. -/
  | ofType (type : TypeExpr)
  /-- A function literal. -/
  | function (sig : Signature TypeExpr)
  /-- Anything else. -/
  | other

structure Import where
  rename? : Option String
  path : String
  deriving DecidableEq, Repr

structure TypeDecl where
  name : String
  binders : List (Binder TypeExpr) := []
  isAlias : Bool := false
  body : TypeExpr

/-- One line of a constant or variable declaration. -/
structure ValueSpec where
  names : List String
  type? : Option TypeExpr := none
  values : List Expr := []

/-- A receiver: its type as it is written, and the type parameters that it binds. -/
structure Receiver where
  type : String
  binders : List String := []
  deriving DecidableEq, Repr

inductive Decl where
  | imports (list : List Import)
  | func (name : String) (sig : Signature TypeExpr)
  /-- A method; the receiver is missing when it names no type. -/
  | method (receiver? : Option Receiver) (name : String) (sig : Signature TypeExpr)
  | types (list : List TypeDecl)
  | consts (specs : List ValueSpec)
  | vars (specs : List ValueSpec)

/-- A source file as far as it could be read. -/
structure File where
  /-- The name in the package clause. -/
  package? : Option String := none
  decls : List Decl := []
  /-- The line of the first syntax error. -/
  errorLine? : Option Nat := none

end GoApi.Source
