import GoApi.Change
import GoApi.Delta
import GoApi.SymbolTable

/-!
# Classifying two tables

`classify` goes through the names of both tables in ascending order and reports each symbol that was
added, removed or changed.
-/

namespace GoApi

/-- The verdict on two declarations of one kind.  The type of a value flows into every use of it, so
a constant or variable has no compatible change. -/
def valueDelta (old new : Ty) : Delta :=
  if old.identical new then .identical
  else .incompatible (changedText old.display new.display)

/-- The change from one declaration of a symbol to another. -/
def changeOf (policy : Policy) (name : String) (old new : Symbol) : Option Change :=
  if old.kind = new.kind then
    let delta :=
      match old.kind with
      | .type | .func | .method => old.type.delta policy new.type
      | .const | .var => valueDelta old.type new.type
    match delta with
    | .identical => none
    | .compatible reason => some (.changed name true reason)
    | .incompatible reason => some (.changed name false reason)
  else some (.changed name false (changedText old.kind.word new.kind.word))

/-- The change of one symbol, given what each side has of it. -/
def classifySymbol (policy : Policy) (name : String) : Option Symbol → Option Symbol → Option Change
  | none, none => none
  | none, some _ => some (.added name)
  | some _, none => some (.removed name)
  | some old, some new => changeOf policy name old new

/-- The changes between two tables, in ascending order of names. -/
def classify (policy : Policy) (old new : SymbolTable) : List Change :=
  (ascending (old.names ++ new.names)).filterMap fun name =>
    classifySymbol policy name (old.get? name) (new.get? name)

/-- The changes of one package.  A package that is absent on one side is reported as a whole. -/
def classifyPackage (policy : Policy) (package : String) :
    Option SymbolTable → Option SymbolTable → Option PackageChanges
  | none, none => none
  | none, some _ => some ⟨package, [.packageAdded package]⟩
  | some _, none => some ⟨package, [.packageRemoved package]⟩
  | some old, some new => some ⟨package, classify policy old new⟩

end GoApi
