import GoApi.Discovery.Pattern
import GoApi.Discovery.Selection
import GoApi.Order
import GoApi.Surface.Load

/-!
# Package paths

A package is a directory with a Go source that is no test.  Its path is that of the directory from the
root, written `./dir/sub`; the root itself is `.`.  Packages below a directory `internal` and
directories named `testdata` or with a name that starts with `.` or `_` are left out.
-/

namespace GoApi.Discovery

open Surface

/-- A text without repeated copies of a text in front. -/
def dropDotSlashes : List Char → List Char
  | '.' :: '/' :: rest => dropDotSlashes rest
  | text => text

/-- A text without slashes at its ends. -/
def trimSlashes (text : List Char) : List Char :=
  ((text.dropWhile (· == '/')).reverse.dropWhile (· == '/')).reverse

/-- The package path of a directory. -/
def packagePath (dir : String) : String :=
  let text := trimSlashes (dir.toList.map fun c => if c = '\\' then '/' else c)
  if text.isEmpty || text == ['.'] then "."
  else "./" ++ String.ofList (dropDotSlashes text)

/-- Whether a package lies below an `internal` directory. -/
def isInternal (package : String) : Bool :=
  (Text.pieces '/' package).contains "internal"

/-- Whether packages below a directory of this name are left out. -/
def skipsDir (name : String) : Bool :=
  name == "testdata" || name.toList.head? == some '.' || name.toList.head? == some '_'

namespace Selection

/-- The packages of a set that take part, strictly ascending. -/
def filter (s : Selection) (packages : List String) : List String :=
  (ascending packages).filter fun p => s.includeInternal || !isInternal p

/-- The patterns of a selection, for the paths of a listing. -/
def patterns (s : Selection) : List Pattern :=
  s.ignore.filterMap fun line => Pattern.ofLine? line.toList

/-- The package of a file in a listing, if the file makes its directory a package. -/
def packageOf? (s : Selection) (path : String) : Option String :=
  if !(Path.name? path).any isGoSource then none
  else
    let dir := (Path.parent? path).getD ""
    if (Path.names dir).any skipsDir then none
    else
      -- a leading `./` or `/` is no part of what patterns are for
      let trimmed := match path.toList with
        | '.' :: '/' :: rest => rest
        | text => text
      let trimmed := match trimmed with
        | '/' :: rest => rest
        | text => text
      if Pattern.decideUpwards s.patterns (String.ofList trimmed) == some .leaveOut then none
      else some (packagePath dir)

/-- The packages of a listing of files, given by their paths from the root. -/
def packagesOfPaths (s : Selection) (paths : List String) : List String :=
  s.filter (paths.filterMap s.packageOf?)

end Selection

end GoApi.Discovery
