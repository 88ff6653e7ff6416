/-!
# Change records
-/

namespace GoApi

/-- What happened to a symbol or a package. -/
inductive ChangeKind where
  | added
  | removed
  | changed
  deriving DecidableEq, Repr

def ChangeKind.word : ChangeKind → String
  | .added => "added"
  | .removed => "removed"
  | .changed => "changed"

/-- One change to a symbol, or to a package as a whole. -/
structure Change where
  /-- The symbol's name, or the package path. -/
  symbol : String
  kind : ChangeKind
  /-- Whether existing callers keep compiling. -/
  compatible : Bool
  /-- The line that reports it. -/
  message : String
  deriving DecidableEq, Repr

namespace Change

def added (symbol : String) : Change :=
  ⟨symbol, .added, true, symbol ++ ": added"⟩

def removed (symbol : String) : Change :=
  ⟨symbol, .removed, false, symbol ++ ": removed"⟩

def changed (symbol : String) (compatible : Bool) (reason : String) : Change :=
  ⟨symbol, .changed, compatible, symbol ++ ": " ++ reason⟩

def packageAdded (package : String) : Change :=
  ⟨package, .added, true, "package " ++ package ++ " added"⟩

def packageRemoved (package : String) : Change :=
  ⟨package, .removed, false, "package " ++ package ++ " removed"⟩

def isBreaking (c : Change) : Bool := !c.compatible

end Change

/-- The changes of one package, in order. -/
structure PackageChanges where
  package : String
  changes : List Change
  deriving DecidableEq, Repr

def PackageChanges.breaking (p : PackageChanges) : List Change :=
  p.changes.filter (!·.compatible)

def PackageChanges.compatible (p : PackageChanges) : List Change :=
  p.changes.filter (·.compatible)

end GoApi
