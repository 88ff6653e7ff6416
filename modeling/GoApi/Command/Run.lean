import GoApi.Command.Invocation
import GoApi.Compare
import GoApi.Discovery.Checkout
import GoApi.Output.Symbols
import GoApi.Repository
import GoApi.Settings

/-!
# Running the program

`run` answers a command line, given what the program can see: the files below the working directory and
the repositories among them.
-/

namespace GoApi.Command

open Discovery Output Surface

/-- What the program can see. -/
structure World where
  /-- The working directory. -/
  tree : Tree
  /-- The repositories, each with the place of its top. -/
  repositories : List (List String × Repository) := []
  /-- Whether output goes to a terminal. -/
  terminal : Bool := false

def World.repository? (w : World) (path : String) : Option Repository := do
  let place ← w.tree.locate? [] path
  let (_, repository) ← w.repositories.find? fun r => r.1.isPrefixOf place
  return repository

/-- What the program gives back. -/
structure Response where
  /-- The exit code. -/
  code : Nat
  output : String := ""
  /-- The message of an error. -/
  error? : Option String := none
  deriving DecidableEq, Repr

/-- Why a command failed. -/
inductive Fault where
  /-- Only one of the two versions is a directory. -/
  | mixed (old new : String)
  /-- A directory is in no repository. -/
  | noRepository (path : String)
  /-- A repository has no revision of that name. -/
  | unknownRevision (name : String)
  /-- The packages of directories cannot be listed. -/
  | unlisted (roots : List String) (cause : LoadError)
  /-- Loading a package has no end. -/
  | endless
  deriving DecidableEq, Repr

/-- A message with its cause. -/
def withCause (message cause : String) : String :=
  message ++ "\n\nCaused by:\n    " ++ cause

def Fault.message : Fault → String
  | .mixed old new =>
    "'" ++ old ++ "' and '" ++ new ++ "' must both be directories or both be git revisions"
  | .noRepository path => path ++ " is not inside a git repository"
  | .unknownRevision name =>
    withCause ("Failed to read revision " ++ name) ("Unknown revision '" ++ name ++ "'")
  | .unlisted roots cause =>
    withCause ("Failed to list packages of " ++ Text.join " and " roots) cause.message
  | .endless => LoadError.endless.message

def World.settings (w : World) (root : String) : Settings :=
  match w.tree.read? [] (below root Settings.fileName) with
  | none => {}
  | some content => ((Text.Utf8.decode? content.data.toList).map Settings.ofText).getD {}

/-- The directory whose settings a request goes by. -/
def Request.settingsRoot : Request → String
  | .diff _ _ (some path) _ _ _ _ => path
  | _ => "."

/-- A target with what the command line says of it. -/
def TargetChoice.apply (c : TargetChoice) (t : Build.Target) : Build.Target :=
  { t with
    os := c.os?.getD t.os
    arch := c.arch?.getD t.arch
    tags := if c.tags.isEmpty then t.tags else c.tags }

/-- A selection with what the command line says of it. -/
def selectionWith (s : Selection) (includeInternal : Bool) (target : TargetChoice) : Selection :=
  { s with
    includeInternal := s.includeInternal || includeInternal
    target := target.apply s.target }

/-- How results are written: as the command line says, or the settings, or as text. -/
def rendering (w : World) (settings : Settings) (format? : Option Format) : Rendering :=
  { format := (format?.or (settings.format.bind Format.ofWord?)).getD .text
    colors := settings.color.getD w.terminal }

/-- The report of a comparison, if it came to an end. -/
def finished : Option Report → Except Fault Report
  | some report => .ok report
  | none => .error .endless

def compareDirectories (w : World) (policy : Policy) (s : Selection) (old new : String) :
    Except Fault Report := do
  let report? ← (compareAll? policy (checkout s w.tree old) (checkout s w.tree new)).mapError
    (.unlisted [old, new])
  finished report?

/-- The comparison of two revisions of the repository that a directory is in.  Only packages with a
changed file are compared. -/
def compareRevisions (w : World) (policy : Policy) (s : Selection) (path old new : String) :
    Except Fault Report := do
  let repository ← (w.repository? path).elim (.error (.noRepository path)) .ok
  let revision (name : String) : Except Fault Revision :=
    (repository.revision? name).elim (.error (.unknownRevision name)) .ok
  let oldRevision ← revision old
  let newRevision ← revision new
  finished (compare? policy (oldRevision.snapshot s old) (newRevision.snapshot s new)
    (oldRevision.changedPackages s newRevision))

/-- The comparison of two versions: revisions if a repository is given or neither is a directory. -/
def compareVersions (w : World) (policy : Policy) (s : Selection) (old new : String)
    (repository? : Option String) : Except Fault Report :=
  match repository? with
  | some path => compareRevisions w policy s path old new
  | none =>
    match w.tree.hasDir old, w.tree.hasDir new with
    | true, true => compareDirectories w policy s old new
    | false, false => compareRevisions w policy s "." old new
    | _, _ => .error (.mixed old new)

/-- The symbols of the packages of a directory, or of one of them. -/
def listSymbols (w : World) (s : Selection) (root : String) (package? : Option String) :
    Except Fault Listing := do
  let snapshot := checkout s w.tree root
  let packages ← match package? with
    | some package => pure [package]
    | none => snapshot.packages.mapError (.unlisted [root])
  if packages.any snapshot.isEndless then throw .endless
  let loaded := packages.map fun package => (package, snapshot.table package)
  return {
    root
    tables := loaded.filterMap fun
      | (_, .ok (some table)) => some table
      | _ => none
    failures := loaded.filterMap fun
      | (_, .ok (some _)) => none
      | (package, .ok none) => some (package, "no Go sources")
      | (package, .error e) => some (package, e.message) }

/-- Carry out a request: the exit code and the output. -/
def Request.run (w : World) (settings : Settings) (style : Rendering) :
    Request → Except Fault (Nat × String)
  | .diff old new repository? fieldOrder? interfaceAdditions? includeInternal target => do
    let policy : Policy :=
      { fieldOrder := fieldOrder?.getD settings.policy.fieldOrder
        interfaceAdditions := interfaceAdditions?.getD settings.policy.interfaceAdditions }
    let s := selectionWith settings.selection includeInternal target
    let report ← compareVersions w policy s old new repository?
    return (report.exitCode, renderReport style report ++ "\n")
  | .symbols root package? includeInternal target => do
    let s := selectionWith settings.selection includeInternal target
    return (0, renderListing style (← listSymbols w s root package?) ++ "\n")
  | .completions _ => return (0, "")

def version : String := "0.1.0"

/-- The answer to a command line that is not carried out. -/
def Refusal.response (r : Refusal) : Response :=
  match r.stop with
  | .usage => { code := 2 }
  | .version => { code := 0, output := r.program ++ " " ++ version ++ "\n" }
  | .help => { code := 0 }

/-- The answer to a command that failed.  One that has no end is stopped from outside, without a word. -/
def Fault.response : Fault → Response
  | .endless => { code := 134 }
  | fault => { code := 1, error? := some fault.message }

/-- The answer to a command line. -/
def run (w : World) (arguments : List String) : Response :=
  match Invocation.ofArguments arguments with
  | .error refusal => refusal.response
  | .ok invocation =>
    let settings := w.settings invocation.request.settingsRoot
    match invocation.request.run w settings (rendering w settings invocation.format?) with
    | .ok (code, output) => { code, output }
    | .error fault => fault.response

end GoApi.Command
