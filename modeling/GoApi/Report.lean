import GoApi.Change

/-!
# Reports

A `Report` is the result of comparing two revisions: the changed packages, a warning for each side of
a package that could not be loaded, and the packages whose comparison failed.  Counts are functions of
the report.
-/

namespace GoApi

/-- One of the two revisions. -/
inductive Side where
  | old
  | new
  deriving DecidableEq, Repr

def Side.word : Side → String
  | .old => "old"
  | .new => "new"

/-- One side of a package could not be loaded and was compared as absent. -/
structure Warning where
  package : String
  side : Side
  message : String
  deriving DecidableEq, Repr

def Warning.line (w : Warning) : String :=
  w.package ++ " (" ++ w.side.word ++ " side) compared as absent: " ++ w.message

/-- A package whose comparison failed. -/
structure Failure where
  package : String
  message : String
  deriving DecidableEq, Repr

/-- What comparing two revisions gives. -/
structure Report where
  oldLabel : String
  newLabel : String
  packages : List PackageChanges := []
  warnings : List Warning := []
  failures : List Failure := []
  deriving DecidableEq, Repr

structure Summary where
  packages : Nat
  breaking : Nat
  compatible : Nat
  warnings : Nat
  failures : Nat
  deriving DecidableEq, Repr

def Summary.line (s : Summary) : String :=
  if s.breaking = 0 ∧ s.compatible = 0 then "No API changes"
  else
    toString s.breaking ++ " breaking, " ++ toString s.compatible ++ " compatible in "
      ++ toString s.packages ++ (if s.packages = 1 then " package" else " packages")
      ++ (if s.warnings > 0 then ", " ++ toString s.warnings ++ " warnings" else "")
      ++ (if s.failures > 0 then ", " ++ toString s.failures ++ " failed" else "")

namespace Report

/-- All changes of all packages. -/
def changes (r : Report) : List Change := r.packages.flatMap (·.changes)

def hasBreaking (r : Report) : Bool := r.changes.any (!·.compatible)

def breakingCount (r : Report) : Nat := r.changes.countP (!·.compatible)

def compatibleCount (r : Report) : Nat := r.changes.countP (·.compatible)

def hasFailures (r : Report) : Bool := !r.failures.isEmpty

/-- Whether no package has a change. -/
def isEmpty (r : Report) : Bool := r.packages.all (·.changes.isEmpty)

def package? (r : Report) (path : String) : Option PackageChanges :=
  r.packages.find? (·.package == path)

def summary (r : Report) : Summary where
  packages := r.packages.length
  breaking := r.breakingCount
  compatible := r.compatibleCount
  warnings := r.warnings.length
  failures := r.failures.length

/-- Whether there is nothing to list. -/
def listsNothing (r : Report) : Bool := r.packages.isEmpty

/-- The code that a comparison ends with: 1 if something breaks, else 2 if a package failed, else 0. -/
def exitCode (r : Report) : Nat :=
  if r.hasBreaking then 1 else if r.hasFailures then 2 else 0

/-- A row for each package: its path and how many changes break and do not. -/
def packageRows (r : Report) : List (List String) :=
  r.packages.map fun p =>
    let breaking := p.changes.countP (!·.compatible)
    [p.package, toString breaking, toString (p.changes.length - breaking)]

end Report

end GoApi
