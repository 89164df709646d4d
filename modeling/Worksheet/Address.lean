/-!
Cell addresses and their labels.

The grid has 100 rows and 26 columns, and an `Address` is a place in it. Its label is the column's
letter followed by the row's number counted from one: `A1` to `Z100`. Reading a label accepts either
case and any number of leading zeros; writing gives the canonical label.
-/

namespace Worksheet

/-! ## The grid's shape -/

/-- The number of rows, labelled 1 to 100. -/
def rowCount : Nat := 100

/-- The number of columns, labelled A to Z. -/
def columnCount : Nat := 26

/-- The number of cells. -/
def cellCount : Nat := rowCount * columnCount

/-- A place in the grid; rows and columns count from zero. -/
structure Address where
  row : Fin rowCount
  column : Fin columnCount
deriving DecidableEq, Repr

namespace Address

/-- The upper left corner. -/
def origin : Address := ⟨⟨0, by decide⟩, ⟨0, by decide⟩⟩

/-- The address of a row and column counted from zero, if the grid has it. -/
def ofPair? (row column : Nat) : Option Address :=
  if hr : row < rowCount then
    if hc : column < columnCount then some ⟨⟨row, hr⟩, ⟨column, hc⟩⟩ else none
  else none

/-- The address nearest to a row and a column that may lie outside the grid. -/
def nearest (row column : Int) : Address :=
  ⟨⟨min row.toNat (rowCount - 1), by simp only [rowCount]; omega⟩,
   ⟨min column.toNat (columnCount - 1), by simp only [columnCount]; omega⟩⟩

/-! ## Row-major order -/

/-- The position of a cell when the grid is read row by row. -/
def index (a : Address) : Fin cellCount :=
  ⟨a.row.val * columnCount + a.column.val, by
    have hr := a.row.isLt
    have hc := a.column.isLt
    simp only [rowCount, columnCount, cellCount] at *
    omega⟩

/-- Every address, row by row. -/
def all : List Address :=
  (List.finRange rowCount).flatMap fun row =>
    (List.finRange columnCount).map fun column => ⟨row, column⟩

theorem mem_all (a : Address) : a ∈ all := by
  refine List.mem_flatMap.mpr ⟨a.row, List.mem_finRange _, ?_⟩
  exact List.mem_map.mpr ⟨a.column, List.mem_finRange _, rfl⟩

/-! ## Labels -/

/-- The letter of a column. -/
def columnLetter (column : Fin columnCount) : Char :=
  Char.ofNat (0x41 + column.val)

/-- The column of a letter in either case. -/
def columnOfLetter? (c : Char) : Option (Fin columnCount) :=
  if h : 0x41 ≤ c.toNat ∧ c.toNat ≤ 0x5a then
    some ⟨c.toNat - 0x41, by simp only [columnCount]; omega⟩
  else if h : 0x61 ≤ c.toNat ∧ c.toNat ≤ 0x7a then
    some ⟨c.toNat - 0x61, by simp only [columnCount]; omega⟩
  else none

/-- The row that a run of digits names, counted from one, if the grid has it. -/
def rowOfDigits? (digits : List Char) : Option (Fin rowCount) :=
  let n := Nat.ofDigitChars 10 digits 0
  if h : 1 ≤ n ∧ n ≤ rowCount then some ⟨n - 1, by omega⟩ else none

/-- Row numbers are 64-bit words; the row number after the last of them is 0. -/
def rowNumberBound : Nat := Nat.pow 2 64

/-- The label of a row and a column; the row may lie below the grid. -/
def labelOf (row : Nat) (column : Fin columnCount) : String :=
  String.ofList (columnLetter column :: Nat.toDigits 10 ((row + 1) % rowNumberBound))

/-- The canonical label of an address. -/
def label (a : Address) : String :=
  labelOf a.row.val a.column

/-- The address that a letter and a run of digits name, if the grid has it. -/
def ofParts? (letter : Char) (digits : List Char) : Option Address :=
  match columnOfLetter? letter, rowOfDigits? digits with
  | some column, some row => some ⟨row, column⟩
  | _, _ => none

/-- Reads a label: one letter, then one or more digits, and nothing else. -/
def ofLabel? (s : String) : Option Address :=
  match s.toList with
  | letter :: digits =>
    if !digits.isEmpty && digits.all Char.isDigit then ofParts? letter digits else none
  | [] => none

end Address

end Worksheet
