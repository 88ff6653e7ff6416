import GoApi.Discovery.Walk
import GoApi.Snapshot

/-!
# Directories as snapshots

A directory of a file tree is a snapshot: its packages are those that a walk finds, and the files of a
package are the regular files of its directory.
-/

namespace GoApi.Discovery

open Surface

/-- The path from the root to the directory of a package; empty for the root. -/
def packageDir (package : String) : String :=
  String.ofList ((package.toList.dropWhile (· == '.')).dropWhile (· == '/'))

def sourceOf (name : String) (content : ByteArray) : Except LoadError SourceFile :=
  match Text.Utf8.decode? content.data.toList with
  | some source => .ok { name, source }
  | none => .error (.io "stream did not contain valid UTF-8")

/-- The Go sources among the entries of a directory.  Links are no sources. -/
def sourcesOf (entries : List (String × Tree)) : Except LoadError (List SourceFile) :=
  (sortBy (·.1) entries).filterMapM fun (name, t) =>
    match t with
    | .file content => if isGoSource name then some <$> sourceOf name content else .ok none
    | _ => .ok none

/-- The snapshot of a directory of a tree, given by the path to it. -/
def checkout (s : Selection) (top : Tree) (root : String) : Snapshot where
  label := root
  target := s.target
  packages := s.packagesOfTree top root
  files := fun package =>
    sourcesOf (((top.find? [] (below root (packageDir package))).map Tree.entries).getD [])

end GoApi.Discovery
