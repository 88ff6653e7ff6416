import GoApi.Order
import GoApi.Surface.Load

/-!
# Snapshots

A `Snapshot` is a code base at one revision: which packages it has, and the sources of each.  Comparing
two revisions is a function of their snapshots.
-/

namespace GoApi

open Surface

/-- A code base at one revision. -/
structure Snapshot where
  /-- The name of the revision in reports. -/
  label : String
  /-- The paths of all packages, strictly ascending. -/
  packages : Except LoadError (List String)
  /-- The Go sources of a package, ascending by name; none if there is no such package. -/
  files : String → Except LoadError (List SourceFile)
  /-- The platform that packages are loaded for. -/
  target : Build.Target := {}

namespace Snapshot

/-- The table of a package; `none` if the snapshot has no such package. -/
def table (s : Snapshot) (package : String) : Except PackageError (Option SymbolTable) :=
  match s.files package with
  | .error cause => .error (.load cause)
  | .ok [] => .ok none
  | .ok files => load s.target package files

/-- Whether loading a package has no end: then there is no answer at all. -/
def isEndless (s : Snapshot) (package : String) : Bool :=
  match s.table package with
  | .error (.load .endless) => true
  | _ => false

def ofFiles (label : String) (target : Build.Target) (files : List (String × SourceFile)) :
    Snapshot where
  label
  target
  packages := .ok (ascending (files.map (·.1)))
  files := fun package =>
    .ok (sortBy (·.name) ((files.filter (·.1 == package)).map (·.2)))

end Snapshot

end GoApi
