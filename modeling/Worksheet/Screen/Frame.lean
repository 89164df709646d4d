import Worksheet.Editor
import Worksheet.Screen.Help

/-!
One picture of the editor.

The first line is the header with the letters of the visible columns, then comes one line per visible
row, and the last line is the status or the prompt, unless there is but one. Cells are evaluated when
they are drawn, from left to right and from top to bottom. The help lies over everything.
-/

namespace Worksheet

/-- A line as it is drawn: the ink of its columns from the left. -/
abbrev InkLine := List Ink

/-- Draws characters in one style. -/
def inked (style : Style) (cs : List Char) : InkLine :=
  cs.map (.draw · style)

namespace Frame

/-! ## The grid -/

/-- Labels of the cursor's row and column stand out. -/
def labelStyle (current : Bool) : Style :=
  if current then .heading else .dim

/-- The letter of a column, in the middle of its column. -/
def columnHeading (column : Fin columnCount) : List Char :=
  List.replicate 4 ' ' ++ Address.columnLetter column :: List.replicate 5 ' '

/-- The number of a row, right-aligned, with a blank after it. -/
def rowHeading (row : Fin rowCount) : List Char :=
  (Nat.toDigits 10 (row.val + 1)).leftpad 3 ' ' ++ [' ']

/-- The header line. -/
def header (e : Editor) : InkLine :=
  .draw ' ' .plain :: List.replicate 3 .none ++
    (e.columns.visible columnCount).flatMap fun column =>
      inked (labelStyle (column = e.cursor.column)) (columnHeading column)

/-- The style of a cell: the cursor's cell stands out, and a text behind a number sign is taken for
an error. -/
def cellStyle (current : Bool) (shown : String) : Style :=
  if current then .cursor
  else if shown.toList.head? = some '#' then .error
  else .plain

/-- Draws a cell, evaluating it first. -/
def cell (cursor : Address) (a : Address) (s : Sheet) : InkLine × Sheet :=
  let (shown, s) := s.display a
  (inked (cellStyle (a = cursor) shown) (columnContent shown), s)

/-- Draws cells from left to right. -/
def cells (cursor : Address) (row : Fin rowCount) :
    List (Fin columnCount) → Sheet → InkLine × Sheet
  | [], s => ([], s)
  | column :: columns, s =>
    let (here, s) := cell cursor ⟨row, column⟩ s
    let (rest, s) := cells cursor row columns s
    (here ++ rest, s)

/-- Draws rows from top to bottom. -/
def rows (cursor : Address) (columns : List (Fin columnCount)) :
    List (Fin rowCount) → Sheet → List InkLine × Sheet
  | [], s => ([], s)
  | row :: rest, s =>
    let label := inked (labelStyle (row = cursor.row)) (rowHeading row)
    let (line, s) := cells cursor row columns s
    let (lines, s) := rows cursor columns rest s
    ((label ++ line) :: lines, s)

/-! ## The last line -/

/-- Characters of a text that take a place in a line; a line feed takes none. -/
def inLine (s : String) : List Char :=
  s.toList.filter (· ≠ '\n')

/-- The prompt if one is open, and the status otherwise. -/
def lastLine (e : Editor) : InkLine × Editor :=
  match e.mode with
  | .prompt kind =>
    (inked .promptLabel (kind.label ++ ": ").toList ++ inked .plain (inLine e.prompt) ++
      inked .caret ['_'], e)
  | .normal | .help =>
    let style := if e.status.isSome then .notice else .dim
    let (line, e) := e.statusLine
    (inked style (inLine line), e)

end Frame

/-! ## The picture -/

/-- A drawn frame: the lines of the grid from the top, the last line, and whether the help is
open. -/
structure Frame where
  grid : List InkLine
  last : InkLine
  help : Bool

namespace Frame

/-- Draws the editor, evaluating what it shows. -/
def draw (e : Editor) : Frame × Editor :=
  let header := header e
  let (lines, sheet) :=
    rows e.cursor (e.columns.visible columnCount) (e.rows.visible rowCount) e.sheet
  let (last, e) := lastLine { e with sheet := sheet }
  (⟨header :: lines, last, e.mode = .help⟩, e)

/-- What is drawn at a column and a line of a screen: the last line there, the lines of the grid from
the top, and over them the help. A screen of one line has the header and no last line. -/
def ink (grid : Array (Array Ink)) (last : Array Ink) (help : Bool) (width height x y : Nat) : Ink :=
  let line := if 0 < y ∧ y + 1 = height then last else grid.getD y #[]
  let base := line.getD x .none
  if help then
    match Help.ink width height x y with
    | .none => base
    | drawn => drawn
  else base

/-- Draws a frame on a canvas. -/
def paint (f : Frame) (c : Canvas) : Canvas :=
  let grid := (f.grid.map List.toArray).toArray
  let last := f.last.toArray
  c.paint fun x y => ink grid last f.help c.width c.height x y

end Frame

end Worksheet
