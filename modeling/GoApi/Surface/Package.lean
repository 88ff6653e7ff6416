import GoApi.Source.Syntax
import GoApi.Ty.Spelling

/-!
# Names of a package

What the names in a package's sources refer to: each file has its imports, all files share their
declared types and functions.  Of several declarations of one type or function the first counts; of
several imports under one name the last.
-/

namespace GoApi.Surface

open Source

/-- What names mean at one place: the imports of its file, latest first, and the type parameters in
scope. -/
structure Site where
  imports : List (String × String) := []
  params : List String := []

/-- The import path of a qualifier.  One that is not imported stands for itself. -/
def Site.path (site : Site) (qualifier : String) : String :=
  (site.imports.lookup qualifier).getD qualifier

/-- A type declared in the package, with the place of its declaration. -/
structure LocalType where
  site : Site
  decl : TypeDecl

/-- A function declared in the package, with the place of its declaration. -/
structure LocalFunc where
  site : Site
  name : String
  sig : Signature TypeExpr

/-- The declarations of one file, with the place that they share. -/
structure FileUnit where
  site : Site
  decls : List Decl

/-- The name that an import introduces, and its path.  Blank and dot imports introduce none. -/
def importName (i : Import) : Option (String × String) :=
  let name := i.rename?.getD (packageName i.path)
  if name == "_" || name == "." then none else some (name, i.path)

/-- The imports of a file, latest first. -/
def importsOf (decls : List Decl) : List (String × String) :=
  (decls.flatMap fun
    | .imports list => list.filterMap importName
    | _ => []).reverse

def FileUnit.ofFile (file : File) : FileUnit :=
  ⟨{ imports := importsOf file.decls }, file.decls⟩

/-- A package: its files in order. -/
structure Package where
  units : List FileUnit := []

namespace Package

def ofFiles (files : List File) : Package := ⟨files.map FileUnit.ofFile⟩

def types (p : Package) : List LocalType :=
  p.units.flatMap fun u => u.decls.flatMap fun
    | .types list => list.map (⟨u.site, ·⟩)
    | _ => []

def funcs (p : Package) : List LocalFunc :=
  p.units.flatMap fun u => u.decls.flatMap fun
    | .func name sig => [⟨u.site, name, sig⟩]
    | _ => []

def type? (p : Package) (name : String) : Option LocalType :=
  p.types.find? (·.decl.name == name)

def func? (p : Package) (name : String) : Option LocalFunc :=
  p.funcs.find? (·.name == name)

end Package

/-- Predeclared type names other than `any`. -/
def predeclared : List String :=
  ["bool", "byte", "comparable", "complex64", "complex128", "error", "float32", "float64", "int",
    "int8", "int16", "int32", "int64", "rune", "string", "uint", "uint8", "uint16", "uint32", "uint64",
    "uintptr"]

/-- What a plain name stands for: a type parameter, a type of the package, a predeclared type, and
otherwise a type of the package that is declared elsewhere. -/
def Package.nameTy (p : Package) (site : Site) (name : String) : Ty :=
  if site.params.contains name then .typeParam name
  else if (p.type? name).isSome then .localRef name
  else if name == "any" then .emptyInterface
  else if predeclared.contains name then .basic name
  else .localRef name

end GoApi.Surface
