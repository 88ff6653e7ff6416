import GoApi.Text.Split
import GoApi.Text.Uppercase
import GoApi.Ty.Basic

/-!
# Symbols

A `Symbol` is one declaration of a package: a type, function, method, constant or variable.  Its name
is the key under which a table holds it; a method's key carries its receiver, `(*T).M` or `T.M`.
-/

namespace GoApi

/-- What a symbol declares. -/
inductive DeclKind where
  | type
  | func
  | method
  | const
  | var
  deriving DecidableEq, Repr

def DeclKind.word : DeclKind → String
  | .type => "type"
  | .func => "func"
  | .method => "method"
  | .const => "const"
  | .var => "var"

/-- One declaration.  The receiver is given for methods only, as it is written: `*T` or `T`. -/
structure Symbol where
  name : String
  kind : DeclKind
  receiver : Option String := none
  type : Ty

/-- A name is exported if it starts with an upper-case letter. -/
def isExported (name : String) : Bool :=
  match name.toList with
  | [] => false
  | c :: _ => Text.isUppercase c

/-- The key of a method: a receiver that starts with a star stands in parentheses. -/
def methodKey (receiver name : String) : String :=
  match receiver.toList with
  | '*' :: _ => "(" ++ receiver ++ ")." ++ name
  | _ => receiver ++ "." ++ name

def Symbol.method (receiver name : String) (type : Ty) : Symbol :=
  { name := methodKey receiver name, kind := .method, receiver := some receiver, type }

def afterLastDot (s : String) : String :=
  String.ofList (s.toList.reverse.takeWhile (· ≠ '.')).reverse

/-- The identifier that decides visibility: the method name for a method. -/
def Symbol.identifier (s : Symbol) : String :=
  match s.kind with
  | .method => afterLastDot s.name
  | _ => s.name

def withoutStars (receiver : String) : String :=
  String.ofList (receiver.toList.dropWhile (· = '*'))

/-- A symbol is visible if its identifier is exported and its receiver, if it has one, is too. -/
def Symbol.visible (s : Symbol) : Bool :=
  isExported s.identifier && s.receiver.all (fun r => isExported (withoutStars r))

end GoApi
