import GoApi.Build.Target
import GoApi.Source.FileReader
import GoApi.Surface.Values
import GoApi.SymbolTable

/-!
# Loading a package

`load` reads the files of a package that take part in a build and gives the table of its exported
symbols.  A package of which no file takes part has no table.
-/

namespace GoApi.Surface

open Source

/-- A file with its name inside its directory. -/
structure SourceFile where
  name : String
  source : String
  deriving DecidableEq, Repr

/-- Why the sources of a package could not be used. -/
inductive LoadError where
  /-- The sources cannot be read. -/
  | io (reason : String)
  /-- A file without a package clause has a syntax error. -/
  | malformed (file : String) (line : Nat)
  /-- The package or its revision is not there. -/
  | unavailable (reason : String)
  /-- An interface embeds itself without end. -/
  | endless
  deriving DecidableEq, Repr

def LoadError.message : LoadError → String
  | .io reason => "IO error: " ++ reason
  | .malformed file line => "Failed to parse " ++ file ++ ": syntax error at line " ++ toString line
  | .unavailable reason => "Package unavailable: " ++ reason
  | .endless => "Package unavailable: an interface embeds itself without end"

/-- Why a package has no table: its sources could not be used, or a symbol is declared twice. -/
inductive PackageError where
  | load (cause : LoadError)
  | table (cause : SymbolTable.Duplicate)
  deriving DecidableEq, Repr

def PackageError.message : PackageError → String
  | .load cause => cause.message
  | .table cause => cause.message

/-- Whether a file name is that of a Go source other than a test. -/
def isGoSource (name : String) : Bool :=
  ".go".toList.isSuffixOf name.toList && !"_test.go".toList.isSuffixOf name.toList

def Package.funcSymbol (p : Package) (site : Site) (name : String) (sig : Signature TypeExpr) :
    Option Symbol := do
  let inner := site.within (sig.binders.map (·.name))
  let binders ← p.binders inner sig.binders
  let resolved ← p.signature inner sig
  return { name, kind := .func, type := .func { resolved with binders } }

def Package.methodSymbol (p : Package) (site : Site) (receiver : Receiver) (name : String)
    (sig : Signature TypeExpr) : Option Symbol := do
  let resolved ← p.signature (site.within receiver.binders) sig
  return .method receiver.type name (.func { resolved with receiverBinders := receiver.binders })

def Package.typeSymbol (p : Package) (site : Site) (d : TypeDecl) : Option Symbol := do
  let inner := site.within (d.binders.map (·.name))
  let binders ← p.binders inner d.binders
  let underlying ← p.resolve inner d.body
  return { name := d.name, kind := .type, type := .defined d.name binders d.isAlias underlying }

/-- The symbols of a declaration; `none` stands for what has no end. -/
def Package.declSymbols (p : Package) (values : Values) (site : Site) : Decl → List (Option Symbol)
  | .imports _ => []
  | .func name sig => [p.funcSymbol site name sig]
  | .method (some receiver) name sig => [p.methodSymbol site receiver name sig]
  | .method none _ _ => []
  | .types list => list.map (p.typeSymbol site)
  | d =>
    match declValues p site values d with
    | none => [none]
    | some (kind, declared) =>
      declared.map fun (name, type?) => some { name, kind, type := type?.getD unknown }

/-- All symbols of a package, exported or not, in order. -/
def Package.symbols (p : Package) (values : Values) : List (Option Symbol) :=
  p.units.flatMap fun u => u.decls.flatMap (p.declSymbols values u.site)

/-- Whether a file calls C. -/
def importsC (file : File) : Bool :=
  let imports := importsOf file.decls
  imports.any fun (name, _) => imports.lookup name == some "C"

/-- The file of a source that belongs to the package proper, on the given target. -/
def fileOf (target : Build.Target) (f : SourceFile) : Except LoadError (Option File) :=
  if !isGoSource f.name || !target.admits f.name f.source then .ok none
  else
    let file := File.ofSource f.source
    match file.package?, file.errorLine? with
    | none, some line => .error (.malformed f.name line)
    | package?, _ =>
      if package?.any fun name => "_test".toList.isSuffixOf name.toList then .ok none
      else if !target.cgo && importsC file then .ok none
      else .ok (some file)

/-- The table of a package's files.  The symbols are offered to it one after the other, so a duplicate
before the first one without end is what stops. -/
def tableOf (package : String) (files : List File) : Except PackageError SymbolTable :=
  let p := Package.ofFiles files
  match p.values with
  | none => .error (.load .endless)
  | some values =>
    let symbols := p.symbols values
    match SymbolTable.ofSymbols package (symbols.takeWhile (·.isSome)).reduceOption with
    | .error duplicate => .error (.table duplicate)
    | .ok table => if symbols.all (·.isSome) then .ok table else .error (.load .endless)

/-- The exported surface of a package. -/
def load (target : Build.Target) (package : String) (sources : List SourceFile) :
    Except PackageError (Option SymbolTable) :=
  match sources.mapM (fileOf target) with
  | .error cause => .error (.load cause)
  | .ok files =>
    match files.filterMap id with
    | [] => .ok none
    | files =>
      match tableOf package files with
      | .ok table => .ok (some table)
      | .error cause => .error cause

end GoApi.Surface
