import GoApi.Command.Grammar
import GoApi.Discovery.Selection
import GoApi.Output.Format
import GoApi.Policy
import GoApi.Text.Split

/-!
# Invocations

`Invocation.ofArguments` reads the arguments of the program: `diff` compares two versions, `symbols`
lists the exported symbols of a directory, and `completions` is for shells.
-/

namespace GoApi.Command

open Output

/-- The platform chosen on the command line. -/
structure TargetChoice where
  os? : Option String := none
  arch? : Option String := none
  tags : List String := []
  deriving DecidableEq, Repr

/-- A command with its operands and switches. -/
inductive Request where
  /-- Compare two versions: directories, or revisions of a repository. -/
  | diff (old new : String) (repository? : Option String) (fieldOrder? : Option FieldOrder)
      (interfaceAdditions? : Option InterfaceAdditions) (includeInternal : Bool)
      (target : TargetChoice)
  /-- List the symbols of the packages of a directory, or of one of them. -/
  | symbols (root : String) (package? : Option String) (includeInternal : Bool)
      (target : TargetChoice)
  /-- Write completions for a shell. -/
  | completions (shell : String)
  deriving DecidableEq, Repr

/-- A command, and the output format asked for. -/
structure Invocation where
  request : Request
  format? : Option Format := none
  deriving DecidableEq, Repr

/-- Why a command is not run, and the name under which it was called. -/
structure Refusal where
  program : String
  stop : Stop
  deriving DecidableEq, Repr

def programName : String := "apidiff"

/-- Whether a text is a number of 64 bits; a plus sign may stand in front. -/
def isCount (text : String) : Bool :=
  let digits := match text.toList with
    | '+' :: rest => rest
    | digits => digits
  !digits.isEmpty && digits.all Char.isDigit &&
    digits.foldl (fun n d => 10 * n + (d.toNat - '0'.toNat)) 0 < UInt64.size

def formatOf? (word : String) : Option Format :=
  [Format.text, .json, .markdown].find? (·.word == word)

/-- The switches of every command. -/
def commonSwitches : List Switch :=
  [{ name := "verbose", letter? := some 'v' },
    { name := "quiet", letter? := some 'q' },
    { name := "format", accepts? := some fun word => (formatOf? word).isSome },
    { name := "version", letter? := some 'V' },
    { name := "help", letter? := some 'h' }]

/-- The switches that choose packages and platform. -/
def selectionSwitches : List Switch :=
  [{ name := "include-internal" },
    { name := "goos", accepts? := some fun _ => true },
    { name := "goarch", accepts? := some fun _ => true },
    { name := "tags", accepts? := some fun _ => true, repeats := true }]

def mainGrammar : Grammar := { switches := commonSwitches }

def diffGrammar : Grammar where
  switches := commonSwitches ++ selectionSwitches ++
    [{ name := "repo", accepts? := some fun path => !path.isEmpty },
      { name := "field-order", accepts? := some fun word => (FieldOrder.ofWord? word).isSome },
      { name := "interface-additions"
        accepts? := some fun word => (InterfaceAdditions.ofWord? word).isSome },
      { name := "threads", letter? := some 'j', accepts? := some isCount }]
  operands := [fun _ => true, fun _ => true]
  required := 2

def symbolsGrammar : Grammar where
  switches := commonSwitches ++ selectionSwitches ++
    [{ name := "package", letter? := some 'p', accepts? := some fun _ => true }]
  operands := [fun _ => true]

def shells : List String := ["bash", "elvish", "fish", "powershell", "zsh"]

def completionsGrammar : Grammar where
  switches := commonSwitches
  operands := [shells.contains]
  required := 1

namespace Item

/-- The platform that items choose.  Tags are separated by commas. -/
def target (items : List Item) : TargetChoice :=
  { os? := value? items "goos"
    arch? := value? items "goarch"
    tags := (values items "tags").flatMap (Text.pieces ',') }

end Item

def diffRequest (items : List Item) : Request :=
  .diff ((Item.operands items)[0]?.getD "") ((Item.operands items)[1]?.getD "")
    (Item.value? items "repo")
    ((Item.value? items "field-order").bind FieldOrder.ofWord?)
    ((Item.value? items "interface-additions").bind InterfaceAdditions.ofWord?)
    (Item.has items "include-internal") (Item.target items)

def symbolsRequest (items : List Item) : Request :=
  .symbols ((Item.operands items)[0]?.getD ".") (Item.value? items "package")
    (Item.has items "include-internal") (Item.target items)

def completionsRequest (items : List Item) : Request :=
  .completions ((Item.operands items)[0]?.getD "")

/-- A command of the program: its full name, what it takes, and how it is read. -/
def command? (word : String) : Option (String × Grammar × (List Item → Request)) :=
  match word with
  | "diff" | "d" => some ("diff", diffGrammar, diffRequest)
  | "symbols" => some ("symbols", symbolsGrammar, symbolsRequest)
  | "completions" => some ("completions", completionsGrammar, completionsRequest)
  | _ => none

namespace Invocation

/-- Check items and say under which name they were refused. -/
def checked (program : String) (g : Grammar) (items : List Item) : Except Refusal Unit :=
  (g.check [] g.operands items).mapError (⟨program, ·⟩)

/-- The invocation of a list of arguments.  A format after the command goes before one in front of
it. -/
def ofArguments (arguments : List String) : Except Refusal Invocation := do
  let (items, command) := mainGrammar.readUpToOperand arguments
  checked programName mainGrammar items
  match command with
  | none => .error ⟨programName, .help⟩
  | some ("help", _) => .error ⟨programName, .help⟩
  | some (word, rest) =>
    match command? word with
    | none => .error ⟨programName, .usage⟩
    | some (name, grammar, request) =>
      let inner := grammar.read rest
      checked (programName ++ "-" ++ name) grammar inner
      return {
        request := request inner
        format? := ((Item.value? inner "format").or (Item.value? items "format")).bind formatOf? }

end Invocation

end GoApi.Command
