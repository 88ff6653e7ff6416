import GoApi.Output.Format
import GoApi.Output.Grid
import GoApi.Output.Style
import GoApi.Output.Value
import GoApi.Report

/-!
# Written reports

A report as text for a terminal, as Markdown and as JSON.
-/

namespace GoApi.Output

/-- The sum of texts. -/
def concat (parts : List String) : String := String.join parts

/-- Parts that are written only under a condition. -/
def partsIf (wanted : Bool) (parts : List String) : List String := if wanted then parts else []

/-- The lines of a section in the text form: a heading after an empty line, then the lines; nothing
without lines. -/
def textSection (heading : String) (lines : List String) : List String :=
  partsIf (!lines.isEmpty) (("\n" ++ heading ++ "\n") :: lines)

def packageText (colors : Bool) (p : PackageChanges) : List String :=
  let title := "Package: " ++ p.package
  ["\n" ++ paint colors [.bold, .cyan] title ++ "\n",
    String.ofList (List.replicate title.length '-') ++ "\n"]
  ++ textSection (paint colors [.bold, .red] "Breaking changes:")
    (p.breaking.map fun c => "  " ++ paint colors [.red] "✗" ++ " " ++ c.message ++ "\n")
  ++ textSection (paint colors [.bold, .green] "Compatible changes:")
    (p.compatible.map fun c => "  " ++ paint colors [.green] "✓" ++ " " ++ c.message ++ "\n")

def changesText (style : Rendering) (r : Report) : List String :=
  if r.listsNothing then [paint style.colors [.dimmed] "No API changes detected." ++ "\n"]
  else
    ["Summary:\n",
      "  Breaking changes:   " ++ paint style.colors [.red] (toString r.breakingCount) ++ "\n",
      "  Compatible changes: " ++ paint style.colors [.green] (toString r.compatibleCount) ++ "\n\n",
      grid style.compact ["Package", "Breaking", "Compatible"] r.packageRows,
      "\n"]
    ++ r.packages.flatMap (packageText style.colors)

/-- A report as text for a terminal. -/
def reportText (style : Rendering) (r : Report) : String :=
  concat <|
    [paint style.colors [.bold] "API Changes Report" ++ "\n",
      "==================\n",
      "Old: " ++ paint style.colors [.yellow] r.oldLabel ++ "\n",
      "New: " ++ paint style.colors [.green] r.newLabel ++ "\n\n"]
    ++ changesText style r
    ++ textSection (paint style.colors [.bold, .yellow] "Warnings:")
      (r.warnings.map fun w => "  ! " ++ w.line ++ "\n")
    ++ textSection (paint style.colors [.bold, .red] "Failed packages:")
      (r.failures.map fun f => "  ✗ " ++ f.package ++ ": " ++ f.message ++ "\n")
    ++ partsIf r.hasBreaking
      ["\n" ++ paint style.colors [.bold, .red] "⚠️  This change contains breaking API changes!" ++ "\n"]

/-- A section in the Markdown form: a heading, an empty line, the lines and an empty line; nothing
without lines. -/
def markdownSection (heading : String) (lines : List String) : List String :=
  partsIf (!lines.isEmpty) ([heading ++ "\n\n"] ++ lines ++ ["\n"])

def packageMarkdown (p : PackageChanges) : List String :=
  ["### `" ++ p.package ++ "`\n\n"]
  ++ markdownSection "#### ❌ Breaking changes" (p.breaking.map fun c => "- " ++ c.message ++ "\n")
  ++ markdownSection "#### ✅ Compatible changes"
    (p.compatible.map fun c => "- " ++ c.message ++ "\n")

def changesMarkdown (r : Report) : List String :=
  if r.listsNothing then ["*No API changes detected.*\n"]
  else
    ["## Summary\n\n",
      "| Type | Count |\n",
      "|------|-------|\n",
      "| Breaking changes | " ++ toString r.breakingCount ++ " |\n",
      "| Compatible changes | " ++ toString r.compatibleCount ++ " |\n\n",
      "## Changes by Package\n\n"]
    ++ r.packages.flatMap packageMarkdown

/-- A report as Markdown. -/
def reportMarkdown (r : Report) : String :=
  concat <|
    ["# API Changes Report\n\n",
      "**Old:** `" ++ r.oldLabel ++ "`  \n",
      "**New:** `" ++ r.newLabel ++ "`  \n\n"]
    ++ changesMarkdown r
    ++ markdownSection "## Warnings" (r.warnings.map fun w => "- " ++ w.line ++ "\n")
    ++ markdownSection "## Failed packages"
      (r.failures.map fun f => "- `" ++ f.package ++ "`: " ++ f.message ++ "\n")
    ++ partsIf r.hasBreaking
      ["---\n\n", "⚠️ **This change contains breaking API changes!**\n"]

def changeValue (c : Change) : Value :=
  .record [("symbol", .str c.symbol), ("kind", .str c.kind.word), ("message", .str c.message),
    ("compatible", .bool c.compatible)]

def reportValue (r : Report) : Value :=
  .record [("old_ref", .str r.oldLabel), ("new_ref", .str r.newLabel),
    ("has_breaking_changes", .bool r.hasBreaking), ("breaking_count", .num r.breakingCount),
    ("compatible_count", .num r.compatibleCount),
    ("packages", .list (r.packages.map fun p =>
      .record [("package", .str p.package), ("changes", .list (p.changes.map changeValue))])),
    ("warnings", .list (r.warnings.map fun w =>
      .record [("package", .str w.package), ("side", .str w.side.word),
        ("message", .str w.message)])),
    ("failures", .list (r.failures.map fun f =>
      .record [("package", .str f.package), ("message", .str f.message)]))]

def renderReport (style : Rendering) (r : Report) : String :=
  match style.format with
  | .text => reportText style r
  | .json => (reportValue r).text style.compact
  | .markdown => reportMarkdown r

end GoApi.Output
