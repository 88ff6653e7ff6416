/-!
# Command-line grammar

A switch has a long name, `--name`, and perhaps a letter, `-n`.  It is a flag or takes a value: the next
argument, or what follows `=`; after a letter the value may follow at once.  Flags can be written
together after one dash.  An argument that is no switch is an operand, and so is everything after `--`.

Arguments are checked in their order: the first one that is wrong, or asks for help or the version,
decides.
-/

namespace GoApi.Command

structure Switch where
  name : String
  letter? : Option Char := none
  /-- The values that it takes; a flag takes none. -/
  accepts? : Option (String → Bool) := none
  /-- Whether it may be given more than once. -/
  repeats : Bool := false

/-- What a command takes. -/
structure Grammar where
  switches : List Switch
  /-- The operands that it takes, in order. -/
  operands : List (String → Bool) := []
  /-- The number of operands that it needs. -/
  required : Nat := 0

/-- A piece of a command line. -/
inductive Item where
  | flag (name : String)
  | setting (name value : String)
  | operand (text : String)
  /-- An unknown switch, a value too many or a value that is missing. -/
  | fault
  deriving DecidableEq, Repr

/-- Why a command is not run. -/
inductive Stop where
  | usage
  | version
  | help
  deriving DecidableEq, Repr

namespace Grammar

def find? (g : Grammar) (name : String) : Option Switch :=
  g.switches.find? (·.name == name)

/-- The items of letters after one dash, and the switch whose value is the next argument. -/
def readLetters (g : Grammar) : List Char → List Item × Option String
  | [] => ([], none)
  | letter :: rest =>
    match g.switches.find? (·.letter? == some letter) with
    | none => ([.fault], none)
    | some s =>
      if s.accepts?.isNone then
        let (items, awaiting) := readLetters g rest
        (.flag s.name :: items, awaiting)
      else
        match rest with
        | [] => ([], some s.name)
        | '=' :: value => ([.setting s.name (String.ofList value)], none)
        | value => ([.setting s.name (String.ofList value)], none)

/-- The items of a long name, with the value after `=` if there is one. -/
def readLong (g : Grammar) (text : List Char) : List Item × Option String :=
  let name := String.ofList (text.takeWhile (· != '='))
  match g.find? name, text.dropWhile (· != '=') with
  | none, _ => ([.fault], none)
  | some s, [] => if s.accepts?.isNone then ([.flag name], none) else ([], some name)
  | some s, _ :: value =>
    if s.accepts?.isNone then ([.fault], none) else ([.setting name (String.ofList value)], none)

/-- The items of an argument, and the switch whose value is the next argument; `none` for an
operand. -/
def readSwitch? (g : Grammar) (argument : String) : Option (List Item × Option String) :=
  match argument.toList with
  | '-' :: '-' :: name => some (g.readLong name)
  | '-' :: letter :: letters => some (g.readLetters (letter :: letters))
  | _ => none

/-- The item of a switch with the argument after it.  An argument that looks like a switch is no
value. -/
def pair (g : Grammar) (name value : String) : Item :=
  if (g.readSwitch? value).isSome then .fault else .setting name value

/-- The items of a list of arguments. -/
def read (g : Grammar) : List String → List Item
  | [] => []
  | argument :: rest =>
    if argument == "--" then rest.map .operand
    else
      match g.readSwitch? argument with
      | none => .operand argument :: read g rest
      | some (items, none) => items ++ read g rest
      | some (items, some name) =>
        match rest with
        | [] => items ++ [.fault]
        | value :: rest => items ++ g.pair name value :: read g rest

/-- The items before the first operand, and that operand with the arguments after it. -/
def readUpToOperand (g : Grammar) : List String → List Item × Option (String × List String)
  | [] => ([], none)
  | argument :: rest =>
    if argument == "--" then (rest.map fun _ => .fault, none)
    else
      match g.readSwitch? argument with
      | none => ([], some (argument, rest))
      | some (items, none) =>
        let (more, command) := readUpToOperand g rest
        (items ++ more, command)
      | some (items, some name) =>
        match rest with
        | [] => (items ++ [.fault], none)
        | value :: rest =>
          let (more, command) := readUpToOperand g rest
          (items ++ g.pair name value :: more, command)

/-- Check a switch that is given, after others. -/
def checkSwitch (g : Grammar) (seen : List String) (name : String) (value? : Option String) :
    Except Stop Unit :=
  match g.find? name with
  | none => .error .usage
  | some s =>
    if seen.contains name && !s.repeats then .error .usage
    else
      match s.accepts?, value? with
      | some accepts, some value => if accepts value then .ok () else .error .usage
      | _, _ => .ok ()

/-- Check items in their order.  `seen` are the names of the switches before, and `missing` the
operands that are not given yet. -/
def check (g : Grammar) (seen : List String) (missing : List (String → Bool)) :
    List Item → Except Stop Unit
  | [] => if g.required + missing.length ≤ g.operands.length then .ok () else .error .usage
  | .fault :: _ => .error .usage
  | .flag "version" :: _ => .error .version
  | .flag "help" :: _ => .error .help
  | .flag name :: rest => do
    g.checkSwitch seen name none
    check g (name :: seen) missing rest
  | .setting name value :: rest => do
    g.checkSwitch seen name (some value)
    check g (name :: seen) missing rest
  | .operand text :: rest =>
    match missing with
    | [] => .error .usage
    | accepts :: missing => if accepts text then check g seen missing rest else .error .usage

end Grammar

namespace Item

def has (items : List Item) (name : String) : Bool := items.contains (.flag name)

def values (items : List Item) (name : String) : List String :=
  items.filterMap fun
    | .setting n value => if n == name then some value else none
    | _ => none

def value? (items : List Item) (name : String) : Option String := (values items name).head?

def operands (items : List Item) : List String :=
  items.filterMap fun
    | .operand text => some text
    | _ => none

end Item

end GoApi.Command
