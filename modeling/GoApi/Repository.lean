import GoApi.Discovery.Package
import GoApi.Discovery.Tree
import GoApi.Snapshot
import GoApi.Text.Utf8

/-!
# Revisions

A repository is a line of commits, each a finite map from paths to contents.  A revision is a snapshot,
and only packages with a file that differs between two revisions need to be compared.
-/

namespace GoApi

open Discovery Surface

/-- A commit: the files of the repository with their contents, ascending by path. -/
structure Revision where
  files : List (String × ByteArray)

namespace Revision

def ofTree (t : Tree) : Revision :=
  ⟨sortBy (·.1) ((t.leaves []).map fun (place, content) => (Text.join "/" place, content))⟩

def paths (r : Revision) : List String := r.files.map (·.1)

def content? (r : Revision) (path : String) : Option ByteArray := r.files.lookup path

/-- The paths whose files differ between two revisions, or are in only one of them. -/
def changedPaths (old new : Revision) : List String :=
  (old.paths ++ new.paths).filter fun path =>
    (old.content? path).map (·.data) != (new.content? path).map (·.data)

/-- The packages with a file that differs between two revisions. -/
def changedPackages (s : Selection) (old new : Revision) : List String :=
  s.packagesOfPaths (old.changedPaths new)

/-- The package of a Go source, whether or not the source makes its directory a package. -/
def sourcePackage? (path : String) : Option String :=
  if (Path.name? path).any isGoSource then some (packagePath ((Path.parent? path).getD "")) else none

/-- The snapshot of a revision.  All Go sources of a package belong to it, also those that patterns
leave out. -/
def snapshot (s : Selection) (label : String) (r : Revision) : Snapshot :=
  let packages := s.packagesOfPaths r.paths
  { label
    target := s.target
    packages := .ok packages
    files := fun package =>
      if packages.contains package then
        .ok ((r.files.filter fun f => sourcePackage? f.1 == some package).map fun (path, content) =>
          { name := (Path.name? path).getD path
            source := Text.Utf8.decodeAny content.data.toList })
      else .ok [] }

end Revision

/-- The commits of a repository, oldest first, each with its tag. -/
structure Repository where
  commits : List (String × Revision)

namespace Repository

/-- The number of commits that a suffix `~n` goes back; without a number it goes back one. -/
def stepBack? (digits : String) : Option Nat :=
  if digits.isEmpty then some 1
  else if digits.all Char.isDigit then
    some (digits.toList.foldl (fun n d => 10 * n + (d.toNat - '0'.toNat)) 0)
  else none

/-- The index of the commit that a tag or `HEAD` names. -/
def index? (r : Repository) (name : String) : Option Nat :=
  if name == "HEAD" then
    if r.commits.isEmpty then none else some (r.commits.length - 1)
  else r.commits.findIdx? (·.1 == name)

/-- The revision of a name: a tag or `HEAD`, with suffixes `~n` for the n-th commit before. -/
def revision? (r : Repository) (name : String) : Option Revision := do
  match Text.pieces '~' name with
  | [] => none
  | base :: suffixes =>
    let back := (← suffixes.mapM stepBack?).foldl (· + ·) 0
    let index ← r.index? base
    if back ≤ index then (r.commits[index - back]?).map (·.2) else none

end Repository

end GoApi
