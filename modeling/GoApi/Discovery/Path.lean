import GoApi.Text.Split

/-!
# Slash-separated paths

A path is a text cut into parts at its slashes.  An empty part and a part `.` add nothing to a path,
except in front: an empty part in front is the top of the file system, and `.` there is a part like
any other.
-/

namespace GoApi.Discovery.Path

def parts (path : String) : List String := Text.pieces '/' path

/-- Whether a part adds nothing to a path. -/
def isIdle (part : String) : Bool := part.isEmpty || part == "."

/-- Parts without the idle ones at the end; the first part stays. -/
def trimIdle : List String → List String
  | [] => []
  | first :: rest => first :: (rest.reverse.dropWhile isIdle).reverse

def ofParts : List String → String
  | [""] => "/"
  | parts => Text.join "/" parts

/-- The name of the file or directory that a path leads to, if its last part is a name. -/
def name? (path : String) : Option String :=
  match (trimIdle (parts path)).getLast? with
  | none => none
  | some last => if isIdle last || last == ".." then none else some last

/-- The paths of the directories that hold what the parts lead to, nearest first; the parts are
given last one first. -/
def above : List String → List String
  | [] => []
  | [only] => if only.isEmpty then [] else [""]
  | last :: next :: before =>
    if isIdle last then above (next :: before)
    else ofParts (trimIdle (next :: before).reverse) :: above (next :: before)

/-- The paths of the directories that hold what a path leads to, nearest first.  The last one of a
path that does not start at the top of the file system is the empty path. -/
def parents (path : String) : List String := above (parts path).reverse

def parent? (path : String) : Option String := (parents path).head?

/-- The names along a path.  A part `.` in front counts. -/
def names (path : String) : List String :=
  match parts path with
  | [] => []
  | first :: rest => (if first.isEmpty then [] else [first]) ++ rest.filter (!isIdle ·)

end GoApi.Discovery.Path
