/-!
# TOML values

A document is a table.  Headers and dotted keys may add to a table in several places, and `Origin`
says which additions a table still takes:

* a table on the way to a header may get a header of its own, and further keys;
* a table made by dotted keys takes further dotted keys, and headers below it;
* a table with a header takes headers below it, and a table in braces takes nothing.
-/

namespace GoApi.Toml

/-- How a table came about. -/
inductive Origin where
  /-- It has a header, or it is the document. -/
  | header
  /-- A header names it on the way to another table. -/
  | implied
  /-- A dotted key names it on the way to a value. -/
  | dotted
  /-- It is written in braces. -/
  | braces
  deriving DecidableEq, Repr, Inhabited

/-- A value.  Floating-point numbers and dates are kept without their value. -/
inductive Value where
  | text (s : String)
  | integer (n : Int)
  | float
  | moment
  | boolean (b : Bool)
  | array (items : List Value)
  | table (origin : Origin) (entries : List (String × Value))
  /-- The tables of repeated double-bracket headers. -/
  | tables (items : List (List (String × Value)))
  deriving Inhabited

/-- The keys of a table with their values. -/
abbrev Entries := List (String × Value)

namespace Entries

/-- Give a key a value, in its old place if it has one. -/
def set (key : String) (value : Value) : Entries → Entries
  | [] => [(key, value)]
  | entry :: rest =>
    if entry.1 == key then (key, value) :: rest else entry :: set key value rest

/-- The way to a table. -/
inductive Way where
  /-- By the parts of a header. -/
  | header
  /-- By the parts of a dotted key. -/
  | dotted
  deriving DecidableEq, Repr

/-- What a table on the way is when it is made there. -/
def Way.origin : Way → Origin
  | .header => .implied
  | .dotted => .dotted

/-- Whether a way leads through a table.  A dotted key does not reach into a table with a header of
its own, and nothing reaches into braces. -/
def Way.admits : Way → Origin → Bool
  | _, .braces => false
  | .header, _ => true
  | .dotted, origin => origin != .header

/-- Change the table at the end of a path; tables that are not there yet are made.  Among tables of
one double-bracket header the way leads through the last one. -/
def edit (way : Way) (change : Origin → Entries → Option Entries) :
    List String → Origin → Entries → Option Entries
  | [], origin, entries => change origin entries
  | key :: path, _, entries =>
    match entries.lookup key with
    | none => do
      let inner ← edit way change path way.origin []
      return entries.set key (.table way.origin inner)
    | some (.table origin inner) =>
      if way.admits origin then do
        let inner ← edit way change path origin inner
        return entries.set key (.table origin inner)
      else none
    | some (.tables items) =>
      match items.getLast? with
      | none => none
      | some last => do
        let last ← edit way change path .header last
        return entries.set key (.tables (items.dropLast ++ [last]))
    | some _ => none

/-- Add a value under a key that is not there yet. -/
def add (key : String) (value : Value) (entries : Entries) : Option Entries :=
  if (entries.lookup key).isSome then none else some (entries.set key value)

/-- Add a value under a dotted key.  The table that it goes into must itself be made by dotted keys,
unless the key has one part. -/
def addAt (path : List String) (key : String) (value : Value) (origin : Origin)
    (entries : Entries) : Option Entries :=
  edit .dotted
    (fun o es => if path.isEmpty || o == .dotted then add key value es else none)
    path origin entries

def openTable (key : String) (entries : Entries) : Option Entries :=
  match entries.lookup key with
  | none => some (entries.set key (.table .header []))
  | some (.table .implied inner) => some (entries.set key (.table .header inner))
  | some _ => none

/-- Open one more table of a double-bracket header. -/
def openNext (key : String) (entries : Entries) : Option Entries :=
  match entries.lookup key with
  | none => some (entries.set key (.tables [[]]))
  | some (.tables items) => some (entries.set key (.tables (items ++ [[]])))
  | some _ => none

end Entries

end GoApi.Toml
