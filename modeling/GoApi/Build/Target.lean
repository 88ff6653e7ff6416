import GoApi.Build.Expr
import GoApi.Build.Header

/-!
# Build targets

A package is loaded for one platform.  A file belongs to the build when its name and its header
allow the platform: a name may end in `_os`, `_arch` or `_os_arch`, and a header may state
constraints.
-/

namespace GoApi.Build

/-- Operating systems that a file name can ask for. -/
def knownSystems : List String :=
  ["aix", "android", "darwin", "dragonfly", "freebsd", "hurd", "illumos", "ios", "js", "linux",
    "nacl", "netbsd", "openbsd", "plan9", "solaris", "wasip1", "windows", "zos"]

/-- Operating systems on which the tag `unix` holds. -/
def unixSystems : List String :=
  ["aix", "android", "darwin", "dragonfly", "freebsd", "hurd", "illumos", "ios", "linux", "netbsd",
    "openbsd", "solaris"]

/-- Architectures that a file name can ask for. -/
def knownArchitectures : List String :=
  ["386", "amd64", "amd64p32", "arm", "armbe", "arm64", "arm64be", "loong64", "mips", "mipsle",
    "mips64", "mips64le", "mips64p32", "mips64p32le", "ppc", "ppc64", "ppc64le", "riscv", "riscv64",
    "s390", "s390x", "sparc", "sparc64", "wasm"]

/-- The newest release `go1.N` whose tag holds. -/
def latestMinor : Nat := 24

/-- The platform and tags that a package is loaded for. -/
structure Target where
  os : String := "linux"
  arch : String := "amd64"
  /-- Whether files that call C take part. -/
  cgo : Bool := false
  /-- Tags that hold besides the platform's own. -/
  tags : List String := []
  deriving DecidableEq, Repr, Inhabited

/-- The value of decimal digits, after a plus sign or without. -/
def minor? (digits : List Char) : Option Nat :=
  let digits := match digits with
    | '+' :: rest => rest
    | _ => digits
  if digits.isEmpty || !digits.all Char.isDigit then none
  else some (digits.foldl (fun n d => 10 * n + (d.toNat - '0'.toNat)) 0)

namespace Target

/-- Whether a tag holds on a target. -/
def satisfies (t : Target) (tag : String) : Bool :=
  if tag == t.os || tag == t.arch || tag == "gc" then true
  else if tag == "unix" then unixSystems.contains t.os
  else if tag == "cgo" then t.cgo
  else if tag == "linux" && t.os == "android" then true
  else if tag == "solaris" && t.os == "illumos" then true
  else if tag == "darwin" && t.os == "ios" then true
  else
    match Text.after? "go1.".toList tag.toList with
    | some release => (minor? release).any (· ≤ latestMinor)
    | none => t.tags.contains tag

/-- The parts of a file name that may name a platform, last first: what follows each underscore of
the name up to its first dot, without a last `test`. -/
def nameSuffixes (name : String) : List String :=
  let stem := name.toList.takeWhile (· != '.')
  match ((Text.splitOn '_' stem).tail.map String.ofList).reverse with
  | "test" :: rest => rest
  | parts => parts

def admitsName (t : Target) (name : String) : Bool :=
  match nameSuffixes name with
  | last :: before :: _ =>
    if knownSystems.contains before && knownArchitectures.contains last then
      t.satisfies before && t.satisfies last
    else if knownSystems.contains last || knownArchitectures.contains last then t.satisfies last
    else true
  | [last] =>
    if knownSystems.contains last || knownArchitectures.contains last then t.satisfies last
    else true
  | [] => true

/-- Whether one comma-separated term holds: a tag, or a tag that must not hold. -/
def satisfiesTerm (t : Target) (term : List Char) : Bool :=
  match term with
  | '!' :: tag => !t.satisfies (String.ofList tag)
  | tag => t.satisfies (String.ofList tag)

/-- Whether an option list holds: `a,b c` means `(a && b) || c`. -/
def satisfiesOptions (t : Target) (text : String) : Bool :=
  (Text.words text.toList).any fun option => (Text.splitOn ',' option).all t.satisfiesTerm

/-- Whether a list of directives allows the target.  The first expression decides alone, and allows
every target when it is no constraint; otherwise every option list has to hold. -/
def admitsDirectives (t : Target) (ds : List Directive) : Bool :=
  match ds.findSome? fun d => match d with | .expression text => some text | .options _ => none with
  | some text =>
    match Expr.parse text with
    | .ok expr => expr.eval t.satisfies
    | .error _ => true
  | none =>
    ds.all fun d => match d with
      | .expression _ => true
      | .options text => t.satisfiesOptions text

def admitsSource (t : Target) (source : String) : Bool :=
  t.admitsDirectives (directives source)

/-- Whether a file takes part in the build. -/
def admits (t : Target) (name source : String) : Bool :=
  t.admitsName name && t.admitsSource source

end Target

end GoApi.Build
