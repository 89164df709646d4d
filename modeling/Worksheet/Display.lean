import Worksheet.CellText
import Worksheet.Numeral.Format
import Worksheet.Record
import Worksheet.Text.Classes

/-!
What a cell shows, and how it is fitted into its column.

An error shows as its name behind a number sign, a formula and a number as a formatted number, and
words as they are. A column is ten characters wide, and the last one stays blank so that neighbours
never touch.
-/

namespace Worksheet

/-! ## The text shown -/

/-- What a cell with this text shows when its record is `r`. -/
def display (text : CellText) (r : Record) : String :=
  match r.error with
  | some k => k.display
  | none =>
    match text.content with
    | .nothing => ""
    | .formula _ => formatNumber r.value
    | .number value => formatNumber value
    | .words => text.text

/-! ## Fitting -/

/-- Fits a text into `width` columns, the last of which stays free. A longer text keeps what leaves
room for an ellipsis. -/
def fitToWidth (cs : List Char) (width : Nat) : List Char :=
  let room := width - 1
  if cs.length ≤ room then cs
  else if room = 0 then []
  else cs.take (room - 1) ++ ['…']

/-- The width of a column on the screen. -/
def columnWidth : Nat := 10

/-- A cell's column on the screen: numbers stand at the right, anything else at the left. -/
def columnContent (shown : String) : List Char :=
  let fitted := (fitToWidth shown.toList columnWidth).map Text.shown
  match Numeral.literal? shown.toList with
  | some _ => fitted.leftpad (columnWidth - 1) ' ' ++ [' ']
  | none => fitted.rightpad columnWidth ' '

end Worksheet
