import Worksheet.CellText
import Worksheet.Grid
import Worksheet.SheetFile.Escape

/-!
The format of a sheet file.

A file has one line per cell that is not empty: the row and the column counted from zero, and the
escaped text. `SheetFile.write` puts them in row-major order. `SheetFile.read` takes any bytes: blank
lines, comments, lines of another shape and cells outside the grid are passed over, and of two lines
for one cell the later counts.
-/

namespace Worksheet.SheetFile

open Text (Bytes)

/-! ## Writing -/

/-- The line of a cell. -/
def writeCell (a : Address) (t : CellText) : List Char :=
  Nat.toDigits 10 a.row.val ++ ' ' :: Nat.toDigits 10 a.column.val ++ ' ' :: escape t.chars ++ ['\n']

/-- The cells that are not empty, row by row. -/
def filled (texts : Grid CellText) : List (Address × CellText) :=
  texts.toList.filter fun cell => !cell.2.isEmpty

/-- The content of the file of a sheet. -/
def write (texts : Grid CellText) : String :=
  String.ofList ((filled texts).flatMap fun cell => writeCell cell.1 cell.2)

/-! ## Reading a line -/

/-- The white space between the parts of a line: space, tab, line feed, form feed and carriage
return. -/
def isSpace (b : UInt8) : Bool :=
  b = 0x20 || b = 0x09 || b = 0x0a || b = 0x0c || b = 0x0d

/-- The digits of a number are those of ASCII. -/
def isDigit (b : UInt8) : Bool :=
  0x30 ≤ b && b ≤ 0x39

/-- A number in a line fits into 64 bits, or the line does not count. -/
def numberBound : Nat := Nat.pow 2 64

/-- The number a line starts with, and what follows it. -/
def readNumber (bs : Bytes) : Option (Nat × Bytes) :=
  let digits := bs.takeWhile isDigit
  let n := digits.foldl (fun n b => 10 * n + (b.toNat - 0x30)) 0
  if digits ≠ [] ∧ n < numberBound then some (n, bs.dropWhile isDigit) else none

/-- A line that names a cell, which may lie outside the grid. -/
structure Line where
  row : Nat
  column : Nat
  text : CellText

/-- Reads a line without its line feed. Blank lines, comments and lines of another shape give
nothing. -/
def readLine (line : Bytes) : Option Line := do
  let bs := line.dropWhile isSpace
  let (row, bs) ← readNumber bs
  let (column, bs) ← readNumber (bs.dropWhile isSpace)
  let payload := bs.dropWhile fun b => b = 0x20 || b = 0x09
  return ⟨row, column, .ofString (String.ofList (Text.decode (unescape payload)))⟩

/-! ## Reading a file -/

/-- Splits a file into lines, without their line feeds. -/
def lines : Bytes → List Bytes
  | [] => []
  | b :: bs =>
    if b = 0x0a then [] :: lines bs
    else
      match lines bs with
      | [] => [[b]]
      | l :: ls => (b :: l) :: ls

/-- What reading a file gives: the texts, the number of lines stored, and the places outside the
grid that were passed over. -/
structure Contents where
  texts : Grid CellText
  stored : Nat
  outside : List (Nat × Nat)

namespace Contents

/-- A file without lines. -/
def empty : Contents := ⟨.fill .empty, 0, []⟩

/-- Takes one line. -/
def addLine (c : Contents) (line : Bytes) : Contents :=
  match readLine line with
  | none => c
  | some l =>
    match Address.ofPair? l.row l.column with
    | some a => { c with texts := c.texts.set a l.text, stored := c.stored + 1 }
    | none => { c with outside := c.outside ++ [(l.row, l.column)] }

end Contents

/-- Reads lines. -/
def readLines (ls : List Bytes) : Contents :=
  ls.foldl Contents.addLine .empty

/-- Reads a file. -/
def read (bs : Bytes) : Contents :=
  readLines (lines bs)

end Worksheet.SheetFile
