/-!
# Type descriptors

A `Ty` is a closed, structural description of one Go type as it stands in the exported surface of
a package.  The member records (`Field`, `Param`, `Method`, …) are generic in the type they hold, so
the same shapes serve the nested descriptor.
-/

namespace GoApi

inductive ChanDir where
  | both
  | send
  | recv
  deriving DecidableEq, Repr, Inhabited

structure Field (α : Type) where
  name : String
  type : α
  embedded : Bool
  exported : Bool

/-- A parameter or result; the name is empty when the source gives none. -/
structure Param (α : Type) where
  name : String
  type : α

/-- A declared type parameter with its constraint. -/
structure Binder (α : Type) where
  name : String
  constraint : α

/-- One term of a union; `tilde` admits every type with that underlying type. -/
structure Term (α : Type) where
  tilde : Bool
  type : α

/-- A function signature.  Receivers are not part of it: a generic receiver leaves only the names of
the type parameters it binds. -/
structure Signature (α : Type) where
  binders : List (Binder α) := []
  receiverBinders : List String := []
  params : List (Param α) := []
  results : List (Param α) := []
  variadic : Bool := false

structure Method (α : Type) where
  name : String
  sig : Signature α

/-- An interface body: its methods, and the embedded elements that are not flattened into them. -/
structure Interface (α : Type) where
  methods : List (Method α) := []
  embedded : List α := []

/-- A structural type descriptor. -/
inductive Ty where
  /-- A predeclared type such as `int`, or an untyped kind such as `untyped int`. -/
  | basic (name : String)
  /-- A reference to a named type.  The package is `none` for a type of the package itself. -/
  | named (package : Option String) (name : String) (args : List Ty)
  /-- A type parameter of an enclosing declaration. -/
  | typeParam (name : String)
  | pointer (elem : Ty)
  | slice (elem : Ty)
  /-- An array; its length is kept as the text of the length expression. -/
  | array (len : String) (elem : Ty)
  | map (key value : Ty)
  | chan (dir : ChanDir) (elem : Ty)
  | struct (fields : List (Field Ty))
  | interface (body : Interface Ty)
  | func (sig : Signature Ty)
  /-- A constraint such as `~int | ~string`. -/
  | union (terms : List (Term Ty))
  /-- The declaration side of a type symbol. -/
  | defined (name : String) (binders : List (Binder Ty)) (isAlias : Bool) (underlying : Ty)

namespace Ty

instance : Inhabited Ty := ⟨.basic ""⟩

/-- A reference to a type of the package itself. -/
def localRef (name : String) : Ty := .named none name []

/-- The interface that every type implements; `any` is another name of it. -/
def emptyInterface : Ty := .interface {}

/-- The constructors of `Ty`, as change messages name them. -/
inductive Kind where
  | basic | named | typeParam | pointer | slice | array | map | chan | struct | interface | func
  | union | defined
  deriving DecidableEq, Repr

def Kind.word : Kind → String
  | .basic => "basic"
  | .named => "named"
  | .typeParam => "type parameter"
  | .pointer => "pointer"
  | .slice => "slice"
  | .array => "array"
  | .map => "map"
  | .chan => "channel"
  | .struct => "struct"
  | .interface => "interface"
  | .func => "func"
  | .union => "union"
  | .defined => "defined type"

def kind : Ty → Kind
  | .basic _ => .basic
  | .named .. => .named
  | .typeParam _ => .typeParam
  | .pointer _ => .pointer
  | .slice _ => .slice
  | .array .. => .array
  | .map .. => .map
  | .chan .. => .chan
  | .struct _ => .struct
  | .interface _ => .interface
  | .func _ => .func
  | .union _ => .union
  | .defined .. => .defined

end Ty

/-- The fields that callers outside the package can name, in declaration order. -/
def exportedFields (fields : List (Field Ty)) : List (Field Ty) :=
  fields.filter (·.exported)

def fieldNamed (fields : List (Field Ty)) (name : String) : Option (Field Ty) :=
  fields.find? (·.name == name)

def Interface.method? (body : Interface Ty) (name : String) : Option (Method Ty) :=
  body.methods.find? (·.name == name)

/-- A signature with unnamed parameters and results. -/
def Signature.plain (params results : List Ty) : Signature Ty :=
  { params := params.map (⟨"", ·⟩), results := results.map (⟨"", ·⟩) }

/-- What the predeclared `error` demands. -/
def errorInterface : Interface Ty :=
  { methods := [⟨"Error", .plain [] [.basic "string"]⟩] }

end GoApi
