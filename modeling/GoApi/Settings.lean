import GoApi.Discovery.Selection
import GoApi.Policy
import GoApi.Toml.Document

/-!
# Settings files

A settings file is a TOML document with the tables `policy`, `scanner`, `output` and `engine`, all of
them optional.  Unknown keys are skipped.  A file with any fault counts as empty.
-/

namespace GoApi

open Discovery Toml

/-- What a settings file says. -/
structure Settings where
  policy : Policy := {}
  selection : Selection := {}
  /-- The name of the output format. -/
  format : Option String := none
  /-- Whether to write colours; decided by the terminal if not given. -/
  color : Option Bool := none
  /-- How many packages to compare at a time; decided by the machine if not given. -/
  threads : Option Nat := none
  deriving DecidableEq, Repr, Inhabited

def Settings.fileName : String := ".apidiff.toml"

namespace Toml.Value

def text? : Value → Option String
  | .text s => some s
  | _ => none

def boolean? : Value → Option Bool
  | .boolean b => some b
  | _ => none

def natural? : Value → Option Nat
  | .integer (.ofNat n) => some n
  | _ => none

def items? : Value → Option (List Value)
  | .array items => some items
  | .tables items => some (items.map (.table .header))
  | _ => none

def texts? (v : Value) : Option (List String) := do
  (← v.items?).mapM text?

/-- A choice among words: the word as a string, or a table whose one key is the word and has an empty
array or table. -/
def choice? {α : Type} (ofWord? : String → Option α) : Value → Option α
  | .text word => ofWord? word
  | .table _ [(word, .array [])] => ofWord? word
  | .table _ [(word, .table _ [])] => ofWord? word
  | _ => none

/-- A field of a record, which is a table, or an array of the fields in order.  The outer option fails
if the value is no record; a date counts as a record without fields. -/
def field? (v : Value) (index : Nat) (key : String) : Option (Option Value) :=
  match v with
  | .table _ entries => some (entries.lookup key)
  | .moment => some none
  | _ => v.items?.map (·[index]?)

end Toml.Value

namespace Settings

/-- A field read by `read`, or a default if it is not given. -/
def orDefault {α : Type} (default : α) (read : Value → Option α) (field : Option Value) :
    Option α :=
  match field with
  | none => some default
  | some v => read v

def policyOf (v : Value) : Option Policy := do
  let fieldOrder ← orDefault .keyed (Value.choice? FieldOrder.ofWord?) (← v.field? 0 "field_order")
  let interfaceAdditions ← orDefault .consumed (Value.choice? InterfaceAdditions.ofWord?)
    (← v.field? 1 "interface_additions")
  return { fieldOrder, interfaceAdditions }

/-- The `scanner` table.  It cannot be written as an array. -/
def selectionOf : Value → Option Selection
  | .moment => some {}
  | .table _ entries => do
    let includeInternal ← orDefault false Value.boolean? (entries.lookup "include_internal")
    let ignore ← orDefault [] Value.texts? (entries.lookup "ignore")
    let followLinks ← orDefault false Value.boolean? (entries.lookup "follow_symlinks")
    let os ← orDefault "linux" Value.text? (entries.lookup "goos")
    let arch ← orDefault "amd64" Value.text? (entries.lookup "goarch")
    let cgo ← orDefault false Value.boolean? (entries.lookup "cgo")
    let tags ← orDefault [] Value.texts? (entries.lookup "tags")
    return { includeInternal, ignore, followLinks, target := { os, arch, cgo, tags } }
  | _ => none

def ofEntries? (entries : Entries) : Option Settings := do
  let policy ← orDefault {} policyOf (entries.lookup "policy")
  let selection ← orDefault {} selectionOf (entries.lookup "scanner")
  let output := (entries.lookup "output").getD (.table .braces [])
  let format ← orDefault none (Value.text? · |>.map some) (← output.field? 0 "format")
  let color ← orDefault none (Value.boolean? · |>.map some) (← output.field? 1 "color")
  let engine := (entries.lookup "engine").getD (.table .braces [])
  let threads ← orDefault none (Value.natural? · |>.map some) (← engine.field? 0 "threads")
  return { policy, selection, format, color, threads }

/-- The settings of a file's text; the defaults if the text has a fault. -/
def ofText (text : String) : Settings :=
  ((Toml.parse? text).bind ofEntries?).getD {}

end Settings

end GoApi
