import GoApi.Classify
import GoApi.Report
import GoApi.Snapshot

/-!
# Comparing snapshots

Packages are compared one by one, in ascending order of their paths.  A side whose sources cannot be
used counts as absent, with a warning; a symbol that is declared twice makes the package fail.  A package
that has no end leaves the whole comparison without an answer: `compare?` and `compareAll?` say so.
-/

namespace GoApi

open Surface

/-- What comparing one package gives. -/
structure PackageOutcome where
  changes? : Option PackageChanges := none
  warnings : List Warning := []
  failure? : Option Failure := none
  deriving DecidableEq, Repr

/-- One side of a package: its table and the warning that stands for it, or the duplicate that stops
the comparison. -/
def loadSide (s : Snapshot) (side : Side) (package : String) :
    Except SymbolTable.Duplicate (Option SymbolTable × List Warning) :=
  match s.table package with
  | .ok table? => .ok (table?, [])
  | .error (.load cause) => .ok (none, [⟨package, side, cause.message⟩])
  | .error (.table duplicate) => .error duplicate

def comparePackage (policy : Policy) (old new : Snapshot) (package : String) : PackageOutcome :=
  match loadSide old .old package with
  | .error duplicate => { failure? := some ⟨package, duplicate.message⟩ }
  | .ok (oldTable, oldWarnings) =>
    match loadSide new .new package with
    | .error duplicate =>
      { warnings := oldWarnings, failure? := some ⟨package, duplicate.message⟩ }
    | .ok (newTable, newWarnings) =>
      { changes? := (classifyPackage policy package oldTable newTable).filter
          (!·.changes.isEmpty)
        warnings := oldWarnings ++ newWarnings }

/-- The outcomes of the given packages put together.  This is a report only if comparing each of them comes
to an end: `compare?` asks for that. -/
def compare (policy : Policy) (old new : Snapshot) (packages : List String) : Report :=
  let outcomes := (ascending packages).map (comparePackage policy old new)
  { oldLabel := old.label
    newLabel := new.label
    packages := outcomes.filterMap (·.changes?)
    warnings := outcomes.flatMap (·.warnings)
    failures := outcomes.filterMap (·.failure?) }

/-- Whether comparing a package comes to an end.  After a duplicate on the old side the new one is not
loaded. -/
def comparisonEnds (old new : Snapshot) (package : String) : Bool :=
  match loadSide old .old package with
  | .error _ => true
  | .ok _ => !old.isEndless package && !new.isEndless package

/-- The report on the given packages; none if comparing one of them has no end. -/
def compare? (policy : Policy) (old new : Snapshot) (packages : List String) : Option Report :=
  if packages.all (comparisonEnds old new) then some (compare policy old new packages) else none

/-- The report on every package of either snapshot; none if comparing one of them has no end. -/
def compareAll? (policy : Policy) (old new : Snapshot) : Except LoadError (Option Report) := do
  let oldPackages ← old.packages
  let newPackages ← new.packages
  return compare? policy old new (oldPackages ++ newPackages)

end GoApi
