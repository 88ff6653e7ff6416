import GoApi.Output.Report
import GoApi.SymbolTable
import GoApi.Ty.Spelling

/-!
# Written symbol listings

The exported symbols of packages as text for a terminal, as Markdown and as JSON.
-/

namespace GoApi.Output

/-- The tables of the packages of a directory. -/
structure Listing where
  /-- The path of the directory. -/
  root : String
  tables : List SymbolTable := []
  /-- The packages without a table, each with the reason. -/
  failures : List (String × String) := []

/-- A listing as text for a terminal. -/
def listingText (style : Rendering) (l : Listing) : String :=
  concat <|
    [paint style.colors [.bold, .cyan] "SYMBOLS:" ++ " " ++ l.root ++ " (" ++
      toString l.tables.length ++ " packages)\n"]
    ++ l.tables.flatMap (fun t =>
      ["\n" ++ paint style.colors [.bold] t.package ++ "\n",
        grid style.compact ["Name", "Kind", "Type"]
          (t.symbols.map fun s => [s.name, s.kind.word, s.type.display]),
        "\n"])
    ++ l.failures.map fun (package, reason) =>
      "\n" ++ paint style.colors [.yellow] "!" ++ " " ++ package ++ ": " ++
        paint style.colors [.dimmed] reason ++ "\n"

/-- A text inside a cell of a Markdown table. -/
def escapeBars (text : String) : String :=
  String.ofList (text.toList.flatMap fun c => if c = '|' then ['\\', '|'] else [c])

def listingMarkdown (l : Listing) : String :=
  concat <|
    ["# Exported symbols of `" ++ l.root ++ "`\n"]
    ++ l.tables.flatMap fun t =>
      ["\n## `" ++ t.package ++ "`\n\n",
        "| Name | Kind | Type |\n",
        "|------|------|------|\n"]
      ++ t.symbols.map fun s =>
        "| `" ++ s.name ++ "` | " ++ s.kind.word ++ " | `" ++ escapeBars s.type.display ++ "` |\n"

def listingValue (l : Listing) : Value :=
  .record [("root", .str l.root),
    ("packages", .list (l.tables.map fun t =>
      .record [("package", .str t.package),
        ("symbols", .list (t.symbols.map fun s =>
          .record [("name", .str s.name), ("kind", .str s.kind.word),
            ("type", .str s.type.display)]))])),
    ("errors", .list (l.failures.map fun (package, reason) =>
      .list [.str package, .str reason]))]

def renderListing (style : Rendering) (l : Listing) : String :=
  match style.format with
  | .text => listingText style l
  | .json => (listingValue l).text style.compact
  | .markdown => listingMarkdown l

end GoApi.Output
