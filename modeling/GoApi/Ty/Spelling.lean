import GoApi.Order
import GoApi.Text.Quoted
import GoApi.Text.Split
import GoApi.Ty.Scope

/-!
# Spelling of descriptors

A descriptor is written in Go syntax without parameter names.  The one free choice is how a reference
to another package is qualified: `Ty.display` uses the package's name and is meant for people,
`Ty.canonical` uses the quoted import path and positional type parameters and decides identity.
The members of an interface are written in sorted order, so their order in the source is invisible.
-/

namespace GoApi

open Text (join quote pieces)

/-- Whether a path segment is a major version such as `v2`. -/
def isMajorVersion (segment : String) : Bool :=
  match segment.toList with
  | 'v' :: digits => !digits.isEmpty && digits.all Char.isDigit
  | _ => false

/-- The name of a package by its import path: the last segment, or the one before it when the last
one is a major version. -/
def packageName (path : String) : String :=
  match (pieces '/' path).reverse with
  | last :: before :: _ => if isMajorVersion last then before else last
  | [last] => last
  | [] => path

/-- The words before the element of a channel type. -/
def ChanDir.word : ChanDir → String
  | .both => "chan "
  | .send => "chan<- "
  | .recv => "<-chan "

def Ty.isReceiveOnly : Ty → Bool
  | .chan .recv _ => true
  | _ => false

/-- A list of texts in square brackets, or nothing. -/
def bracketed : List String → String
  | [] => ""
  | ts => "[" ++ join ", " ts ++ "]"

/-- The results of a signature: nothing, one bare type, or several in parentheses. -/
def resultText : List String → String
  | [] => ""
  | [t] => " " ++ t
  | ts => " (" ++ join ", " ts ++ ")"

mutual

/-- A descriptor in Go syntax; `q` writes the qualifier for an import path. -/
def Ty.write (q : String → String) : Ty → String
  | .basic n => n
  | .named none n args => n ++ bracketed (Ty.writeList q args)
  | .named (some p) n args => q p ++ "." ++ n ++ bracketed (Ty.writeList q args)
  | .typeParam n => n
  | .pointer e => "*" ++ e.write q
  | .slice e => "[]" ++ e.write q
  | .array l e => "[" ++ l ++ "]" ++ e.write q
  | .map k v => "map[" ++ k.write q ++ "]" ++ v.write q
  | .chan d e =>
    if d = .both ∧ e.isReceiveOnly then d.word ++ "(" ++ e.write q ++ ")" else d.word ++ e.write q
  | .struct fs => "struct\x7b" ++ join "; " (Ty.writeFields q fs) ++ "\x7d"
  | .interface ⟨ms, es⟩ =>
    let methods := (sortBy (·.1) (Ty.writeMethods q ms)).map (·.2)
    "interface\x7b" ++ join "; " (methods ++ sortBy id (Ty.writeList q es)) ++ "\x7d"
  | .func g => "func" ++ Ty.writeSignature q g
  | .union ts => join " | " (Ty.writeTerms q ts)
  | .defined n bs a u =>
    "type " ++ n ++ bracketed (Ty.writeBinders q bs) ++ (if a then " = " else " ") ++ u.write q

def Ty.writeList (q : String → String) : List Ty → List String
  | [] => []
  | t :: ts => t.write q :: Ty.writeList q ts

/-- The texts of struct fields; an embedded field shows only its type. -/
def Ty.writeFields (q : String → String) : List (Field Ty) → List String
  | [] => []
  | ⟨n, t, embedded, _⟩ :: fs =>
    (if embedded then t.write q else n ++ " " ++ t.write q) :: Ty.writeFields q fs

/-- The texts of methods, each with its name as the key to sort by. -/
def Ty.writeMethods (q : String → String) : List (Method Ty) → List (String × String)
  | [] => []
  | ⟨n, g⟩ :: ms => (n, n ++ Ty.writeSignature q g) :: Ty.writeMethods q ms

def Ty.writeTerms (q : String → String) : List (Term Ty) → List String
  | [] => []
  | ⟨tilde, t⟩ :: ts => ((if tilde then "~" else "") ++ t.write q) :: Ty.writeTerms q ts

def Ty.writeBinders (q : String → String) : List (Binder Ty) → List String
  | [] => []
  | ⟨n, c⟩ :: bs => (n ++ " " ++ c.write q) :: Ty.writeBinders q bs

/-- The texts of parameters.  The last one of a variadic list is written `...T` if it is a slice. -/
def Ty.writeParams (q : String → String) (variadic : Bool) : List (Param Ty) → List String
  | [] => []
  | [⟨_, .slice e⟩] => [(if variadic then "..." else "[]") ++ e.write q]
  | ⟨_, t⟩ :: ps => t.write q :: Ty.writeParams q variadic ps

/-- A signature from its type parameters on, without the word `func`. -/
def Ty.writeSignature (q : String → String) : Signature Ty → String
  | ⟨bs, _, ps, rs, v⟩ =>
    bracketed (Ty.writeBinders q bs) ++ "(" ++ join ", " (Ty.writeParams q v ps) ++ ")"
      ++ resultText (Ty.writeParams q false rs)

end

/-- A descriptor as people read it. -/
def Ty.display (t : Ty) : String :=
  t.write packageName

/-- The encoding that decides identity. -/
def Ty.canonical (t : Ty) : String :=
  (t.respell .positional).write quote

/-- Whether two descriptors are the same type. -/
def Ty.identical (a b : Ty) : Bool :=
  a.canonical == b.canonical

def Signature.display (g : Signature Ty) : String :=
  "func" ++ Ty.writeSignature packageName g

def Signature.canonical (g : Signature Ty) : String :=
  "func" ++ Ty.writeSignature quote (g.respell .positional)

end GoApi
