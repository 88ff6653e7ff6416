import GoApi.Surface.Package
import GoApi.Symbol

/-!
# Types of type expressions

`resolve` turns a type expression into a descriptor.  An interface that embeds an interface of the
package takes over its methods and elements: `Expansion` gives the body of such an interface, and
`Package.expand` computes it by resolving the declaration in its own file.  An expansion may nest at
most `maxDepth` deep, but an interface literal starts counting anew, so a declaration that embeds
itself inside a literal has no finite expansion.  That is the one way in which resolving fails.
-/

namespace GoApi.Surface

open Source

/-- How deep expansions of embedded interfaces nest. -/
def maxDepth : Nat := 16

/-- The body of a declared interface, embedded at a given depth; `none` if it has no end. -/
abbrev Expansion := String → Nat → Option (Interface Ty)

/-- Add the methods and elements that are not there yet.  Methods are the same if their names are,
elements if they are identical. -/
def mergeInterface (into more : Interface Ty) : Interface Ty where
  methods := more.methods.foldl
    (fun ms m => if ms.any (·.name == m.name) then ms else ms ++ [m]) into.methods
  embedded := more.embedded.foldl
    (fun es e => if es.any (Ty.identical e) then es else es ++ [e]) into.embedded

/-- The elements of an interface type that is written as a literal. -/
def TypeDecl.literal? (d : TypeDecl) : Option (List (Element TypeExpr)) :=
  match d.binders, d.body with
  | [], .interface elements => some elements
  | _, _ => none

/-- The interface that an embedded element is replaced by: that of the predeclared `error`, or of a
declaration without type parameters whose type is an interface literal. -/
def flattened? (p : Package) (expand : Expansion) (site : Site) (depth : Nat) :
    List TypeExpr → Option (Option (Interface Ty))
  | [.name name] =>
    if site.params.contains name then none
    else
      match p.type? name with
      | none => if name == "error" then some (some errorInterface) else none
      | some t =>
        if (TypeDecl.literal? t.decl).isSome && depth < maxDepth then some (expand name (depth + 1))
        else none
  | _ => none

/-- The field name of an embedded type: its name without package and arguments. -/
def embeddedName : TypeExpr → String
  | .name name => name
  | .qualified _ name => name
  | .generic base _ => embeddedName base
  | .pointer elem => embeddedName elem
  | _ => ""

def fieldOf (d : FieldDecl TypeExpr) (type : Ty) : Field Ty :=
  let name := d.name?.getD (embeddedName d.type)
  { name, type, embedded := d.name?.isNone, exported := isExported name }

/-- Whether a type expression admits every type of an underlying type. -/
def isTilde : TypeExpr → Bool
  | .tilde _ => true
  | _ => false

/-- The type inside a leading `~`, if there is one. -/
def withoutTilde : Ty → Ty
  | .union [⟨true, type⟩] => type
  | type => type

/-- The type of alternatives; a single one without `~` is just that type. -/
def unionOf : List (Term Ty) → Ty
  | [⟨false, type⟩] => type
  | terms => .union terms

/-- Give a reference its type arguments; what is no reference takes none. -/
def applyArgs (args : List Ty) : Ty → Ty
  | .named package name _ => .named package name args
  | other => other

section

variable (p : Package) (expand : Expansion)

mutual

/-- The descriptor of a type expression. -/
def resolve (site : Site) : TypeExpr → Option Ty
  | .name name => some (p.nameTy site name)
  | .qualified package name => some (.named (some (site.path package)) name [])
  | .generic base args => do
    let base ← resolve site base
    return applyArgs (← resolveArgs site args) base
  | .pointer elem => return .pointer (← resolve site elem)
  | .slice elem => return .slice (← resolve site elem)
  | .array len elem => return .array len (← resolve site elem)
  | .map key value => do
    let key ← resolve site key
    return .map key (← resolve site value)
  | .chan dir elem => return .chan dir (← resolve site elem)
  | .func sig => return .func (← resolveSignature site sig)
  | .struct fields => return .struct (← resolveFields site fields)
  | .interface elements => return .interface (← resolveElements site 0 {} elements)
  | .paren inner => resolve site inner
  | .tilde inner => return .union [⟨true, ← resolve site inner⟩]
  | .terms alternatives => return unionOf (← resolveTerms site alternatives)
  | .verbatim text => some (.basic text)

def resolveArgs (site : Site) : List (TypeArg TypeExpr) → Option (List Ty)
  | [] => some []
  | ⟨_, terms⟩ :: rest => do
    let type := unionOf (← resolveTerms site terms)
    return type :: (← resolveArgs site rest)

def resolveTerms (site : Site) : List TypeExpr → Option (List (Term Ty))
  | [] => some []
  | term :: rest => do
    let type ← resolve site term
    let term := if isTilde term then ⟨true, withoutTilde type⟩ else ⟨false, type⟩
    return term :: (← resolveTerms site rest)

def resolveParams (site : Site) : List (Param TypeExpr) → Option (List (Param Ty))
  | [] => some []
  | ⟨name, type⟩ :: rest => do
    let type ← resolve site type
    return ⟨name, type⟩ :: (← resolveParams site rest)

/-- The parameters and results of a signature; the names it binds are left to its declaration. -/
def resolveSignature (site : Site) : Signature TypeExpr → Option (Signature Ty)
  | ⟨_, _, params, results, variadic⟩ => do
    let params ← resolveParams site params
    return { params, results := ← resolveParams site results, variadic }

def resolveFields (site : Site) : List (FieldDecl TypeExpr) → Option (List (Field Ty))
  | [] => some []
  | ⟨name?, type⟩ :: rest => do
    let field := fieldOf ⟨name?, type⟩ (← resolve site type)
    return field :: (← resolveFields site rest)

/-- An interface body, given what comes before its remaining elements. -/
def resolveElements (site : Site) (depth : Nat) (before : Interface Ty) :
    List (Element TypeExpr) → Option (Interface Ty)
  | [] => some before
  | .method name sig :: rest => do
    let sig ← resolveSignature site sig
    resolveElements site depth (mergeInterface before { methods := [⟨name, sig⟩] }) rest
  | .terms alternatives :: rest => do
    match flattened? p expand site depth alternatives with
    | some body => resolveElements site depth (mergeInterface before (← body)) rest
    | none =>
      match ← resolveTerms site alternatives with
      | [⟨false, type⟩] =>
        resolveElements site depth (mergeInterface before { embedded := [type] }) rest
      | terms =>
        let before := { before with embedded := before.embedded ++ [.union terms] }
        resolveElements site depth before rest

end

end

/-- The body of a declared interface, with at most `fuel` expansions inside one another. -/
def expandWithin (p : Package) : Nat → Expansion
  | 0, _, _ => none
  | fuel + 1, name, depth =>
    match p.type? name with
    | none => some {}
    | some t =>
      match TypeDecl.literal? t.decl with
      | none => some {}
      | some elements => resolveElements p (expandWithin p fuel) t.site depth {} elements

/-- The body of a declared interface.  Expansions that nest deeper than there are declarations and
depths repeat one of themselves, and so never end. -/
def Package.expand (p : Package) : Expansion :=
  expandWithin p (maxDepth * p.types.length + 1)

def Package.resolve (p : Package) (site : Site) (type : TypeExpr) : Option Ty :=
  Surface.resolve p p.expand site type

/-- The signature of a declared function, without the names it binds. -/
def Package.signature (p : Package) (site : Site) (sig : Signature TypeExpr) :
    Option (Signature Ty) :=
  resolveSignature p p.expand site sig

/-- Type parameters with their constraints, which may mention all of them. -/
def Package.binders (p : Package) (site : Site) (binders : List (Binder TypeExpr)) :
    Option (List (Binder Ty)) :=
  binders.mapM fun b => return ⟨b.name, ← p.resolve site b.constraint⟩

/-- A place with further type parameters in scope. -/
def Site.within (site : Site) (names : List String) : Site :=
  { site with params := site.params ++ names }

end GoApi.Surface
