import GoApi.Text.Split
import GoApi.Text.Width

/-!
# Grids

A grid is a header row and further rows, padded to columns.  A cell may have several lines.  A grid
that is wider than `maxWidth` has its columns narrowed, one column by one after the other, and the
cells that no longer fit are cut into pieces.
-/

namespace GoApi.Output

open Text (width charWidth splitOn)

/-- The widest grid, borders included. -/
def maxWidth : Nat := 120

/-- The blanks of a cell: one on each side. -/
def padding : Nat := 2

/-- A cell: its characters, line feeds included. -/
abbrev Cell := List Char

def Cell.lines (cell : Cell) : List (List Char) := splitOn '\n' cell

/-- The width of the widest line. -/
def Cell.width (cell : Cell) : Nat := (cell.lines.map Text.width).foldl max 0

/-- Fill every row up to the length of the longest. -/
def fillRows (rows : List (List Cell)) : List (List Cell) :=
  let columns := (rows.map List.length).foldl max 0
  rows.map fun row => row ++ List.replicate (columns - row.length) []

def columnWidths : List (List Cell) → List Nat
  | [] => []
  | [row] => row.map (·.width + padding)
  | row :: rest => List.zipWith max (row.map (·.width + padding)) (columnWidths rest)

/-- One pass over the columns that takes one off each while there is an excess; a column is never
narrower than its padding. -/
def narrowOnce : Nat → List Nat → Nat × List Nat
  | excess, [] => (excess, [])
  | excess, w :: ws =>
    if 0 < excess && padding < w then
      let (left, ws) := narrowOnce (excess - 1) ws
      (left, (w - 1) :: ws)
    else
      let (left, ws) := narrowOnce excess ws
      (left, w :: ws)

/-- Narrow the columns until the excess is gone, in at most `fuel` passes. -/
def narrow : Nat → Nat → List Nat → List Nat
  | 0, _, ws => ws
  | fuel + 1, excess, ws =>
    if excess = 0 then ws
    else
      let (left, ws) := narrowOnce excess ws
      narrow fuel left ws

/-- The pieces of a text, each as wide as a limit allows; `column` is where the current piece has
got to.  A character that does not fit is replaced up to the limit. -/
def chunks (limit : Nat) (column : Nat) : List Char → List (List Char)
  | [] => [[]]
  | c :: rest =>
    let w := charWidth c
    let (shown, next) :=
      if limit < column + w then (List.replicate (limit - column) '�', limit)
      else ([c], column + w)
    if next = limit then shown :: chunks limit 0 rest
    else
      match chunks limit next rest with
      | [] => [shown]
      | piece :: pieces => (shown ++ piece) :: pieces

/-- A cell cut to a content width. -/
def wrap (limit : Nat) (cell : Cell) : Cell :=
  if cell.width ≤ limit then cell
  else if limit = 0 then []
  else
    let pieces := chunks limit 0 cell
    let pieces := if pieces.getLast? = some [] then pieces.dropLast else pieces
    ['\n'].intercalate pieces

/-- How the parts of a grid are drawn. -/
structure Borders where
  /-- Left end, line, crossing and right end of the lines above, below the header and below; none if
  the grid has no lines. -/
  lines? : Option ((Char × Char × Char × Char) × (Char × Char × Char × Char) × (Char × Char × Char × Char))
  /-- What stands at the sides of a row, if anything. -/
  side? : Option Char
  /-- What stands between two columns. -/
  between : Char

/-- Rounded corners, a line below the header. -/
def rounded : Borders where
  lines? := some (('╭', '─', '┬', '╮'), ('├', '─', '┼', '┤'), ('╰', '─', '┴', '╯'))
  side? := some '│'
  between := '│'

/-- No lines, a blank between columns. -/
def blank : Borders where
  lines? := none
  side? := none
  between := ' '

def totalWidth (b : Borders) (ws : List Nat) : Nat :=
  ws.foldl (· + ·) 0 + (ws.length - 1) + (if b.side?.isSome then 2 else 0)

/-- Texts with a character between them. -/
def joinWith (between : Char) (texts : List (List Char)) : List Char :=
  [between].intercalate texts

/-- A text between the sides of a row. -/
def withSides (b : Borders) (text : List Char) : List Char :=
  b.side?.toList ++ text ++ b.side?.toList

/-- A line of a cell, padded to the width of its column. -/
def padLine (w : Nat) (line : List Char) : List Char :=
  ' ' :: line ++ List.replicate (w - padding - width line) ' ' ++ [' ']

def rowLines (b : Borders) (ws : List Nat) (row : List Cell) : List (List Char) :=
  let height := (row.map fun c => c.lines.length).foldl max 1
  (List.range height).map fun i =>
    withSides b (joinWith b.between (List.zipWith (fun w (c : Cell) =>
      padLine w ((c.lines[i]?).getD [])) ws row))

def ruleLine (ws : List Nat) : Char × Char × Char × Char → List Char
  | (left, line, crossing, right) =>
    left :: joinWith crossing (ws.map fun w => List.replicate w line) ++ [right]

/-- The lines of a grid whose first row is a header. -/
def gridLines (b : Borders) (ws : List Nat) : List (List Cell) → List (List Char)
  | [] => []
  | header :: rows =>
    let top := rowLines b ws header
    let body := rows.flatMap (rowLines b ws)
    match b.lines? with
    | none => top ++ body
    | some (above, below, bottom) =>
      [ruleLine ws above] ++ top ++ [ruleLine ws below] ++ body ++ [ruleLine ws bottom]

/-- A grid of texts, in the rounded style or, if compact, without lines. -/
def grid (compact : Bool) (headers : List String) (rows : List (List String)) : String :=
  if rows.isEmpty then "(no results)"
  else
    let b := if compact then blank else rounded
    let cells := fillRows ((headers :: rows).map fun row => row.map String.toList)
    let ws := columnWidths cells
    if ws.isEmpty then "" else
    let total := totalWidth b ws
    let ws := if total ≤ maxWidth then ws else narrow total (total - maxWidth) ws
    let cells :=
      if total ≤ maxWidth then cells
      else cells.map fun row => List.zipWith (fun w c => wrap (w - padding) c) ws row
    String.ofList (joinWith '\n' (gridLines b ws cells))

end GoApi.Output
