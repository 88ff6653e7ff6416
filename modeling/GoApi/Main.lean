import GoApi.Command.Run

/-!
# The program

Reads the files below the working directory, answers the command line and writes the answer.  Revisions
are those of the repositories that `World` names; this program names none.
-/

namespace GoApi.Program

open Discovery

/-- Whether the content of a file is ever looked at. -/
def isConsulted (name : String) : Bool :=
  Surface.isGoSource name ||
    [Settings.fileName, ".apidiffignore", ".ignore", ".gitignore", "exclude"].contains name

/-- A link to a place `target` of the file system, seen from `depth` directories below `top`. -/
def linkTo (top target : String) (depth : Nat) : Tree :=
  match Text.after? (top ++ "/").toList target.toList with
  | some rest => .link (String.join (List.replicate depth "../") ++ String.ofList rest)
  | none => .link (if target == top then String.join (List.replicate depth "../") ++ "." else "/")

/-- What an entry of a directory holds, `depth` directories below `top`. -/
partial def readEntry (top : String) (depth : Nat) (entry : IO.FS.DirEntry) : IO Tree := do
  match (← entry.path.symlinkMetadata).type with
  | .dir =>
    let entries ← (← entry.path.readDir).mapM fun inner => do
      return (inner.fileName, ← readEntry top (depth + 1) inner)
    return .dir entries.toList
  | .symlink =>
    try
      return linkTo top (← IO.FS.realPath entry.path).toString depth
    catch _ =>
      return .link "/"
  | _ =>
    if isConsulted entry.fileName then return .file (← IO.FS.readBinFile entry.path)
    else return .file .empty

end GoApi.Program

open GoApi in
/-- Answer a command line. -/
def main (arguments : List String) : IO UInt32 := do
  let top ← IO.FS.realPath (← IO.currentDir)
  let entries ← (← top.readDir).mapM fun entry => do
    return (entry.fileName, ← Program.readEntry top.toString 0 entry)
  let output ← IO.getStdout
  let world : Command.World :=
    { tree := .dir entries.toList, terminal := ← output.isTty }
  let response := Command.run world arguments
  output.putStr response.output
  output.flush
  if let some message := response.error? then
    IO.eprintln ("Error: " ++ message)
  return UInt32.ofNat response.code
