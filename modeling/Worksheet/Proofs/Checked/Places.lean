import Worksheet.Proofs.Editor.View
import Worksheet.Proofs.Formula.Tokens

/-!
Places that are reckoned as plain numbers, and checked.

An `Address` cannot be outside the grid. Here a row and a column are natural numbers, as machine words
are, and three things end the program at once (`Fault`): going to a cell outside the grid, asking for the
letter of a column that has none, and subtracting more than there is. A formula's labels, typed labels, the
cursor's moves and the visible stretch are reckoned in this way, and each reckoning comes without a fault
to what the library has.
-/

namespace Worksheet

/-- What ends the program at once. -/
inductive Fault where
  | outsideGrid (row column : Nat)
  | noLetter (column : Nat)
  | underflow (whole part : Nat)
  /-- Calls are nested too deep. -/
  | tooDeep
deriving DecidableEq

/-- A computation that a fault may end. -/
abbrev Checked := Except Fault

namespace Checked

theorem ok_bind {α β : Type} (r : α) (f : α → Checked β) : (Except.ok r : Checked α) >>= f = f r :=
  rfl

/-! ## Checks -/

/-- A subtraction of unsigned numbers. -/
def minus (whole part : Nat) : Checked Nat :=
  if part ≤ whole then .ok (whole - part) else .error (.underflow whole part)

/-- The cell at a row and a column. -/
def locate (row column : Nat) : Checked Address :=
  match Address.ofPair? row column with
  | some a => .ok a
  | none => .error (.outsideGrid row column)

/-- The letter of a column, reckoned from `A`. -/
def letterOf (column : Nat) : Checked Char :=
  if column < columnCount then .ok (Char.ofNat (0x41 + column)) else .error (.noLetter column)

/-- A signed number taken for a word of 64 bits. -/
def word (x : Int) : Nat := (x % (Nat.pow 2 64 : Nat)).toNat

/-- A signed number cut to what lies between zero and a bound. -/
def clamp (x : Int) (most : Nat) : Int := max 0 (min x most)

theorem minus_of_le {whole part : Nat} (le : part ≤ whole) : minus whole part = .ok (whole - part) :=
  if_pos le

theorem locate_of_lt {row column : Nat} (inRows : row < rowCount) (inColumns : column < columnCount) :
    locate row column = .ok ⟨⟨row, inRows⟩, ⟨column, inColumns⟩⟩ := by
  rw [locate, Address.ofPair?, dif_pos inRows, dif_pos inColumns]

example : locate rowCount 0 = .error (.outsideGrid 100 0) := rfl

theorem locate_address (a : Address) : locate a.row.val a.column.val = .ok a :=
  locate_of_lt a.row.isLt a.column.isLt

theorem letterOf_column (column : Fin columnCount) :
    letterOf column.val = .ok (Address.columnLetter column) :=
  if_pos column.isLt

theorem word_clamp {x : Int} {most : Nat} (small : most < Nat.pow 2 64) :
    word (clamp x most) = min x.toNat most := by
  unfold word clamp
  have power : Nat.pow 2 64 = 18446744073709551616 := by decide
  rw [power] at small ⊢
  omega

/-! ## Labels -/

/-- The column of a letter. -/
def column? (letter : Char) : Checked (Option Nat) :=
  if letter.isAlpha then do
    let column ← minus letter.toUpper.toNat 0x41
    return if column < columnCount then some column else none
  else return none

/-- The row of a row number, which has to fit into a word. -/
def row? (digits : List Char) : Option Nat :=
  let number := Nat.ofDigitChars 10 digits 0
  if number < Nat.pow 2 64 ∧ 1 ≤ number ∧ number - 1 < rowCount then some (number - 1) else none

/-- The row and the column of a letter with digits, if both are in range. -/
def parts? (letter : Char) (digits : List Char) : Checked (Option (Nat × Nat)) := do
  match ← column? letter with
  | none => return none
  | some column => return (row? digits).map fun row => (row, column)

theorem column?_eq (letter : Char) :
    column? letter = .ok ((Address.columnOfLetter? letter).map Fin.val) := by
  by_cases alpha : letter.isAlpha = true
  · obtain ⟨column, found⟩ := Address.columnOfLetter?_of_isAlpha alpha
    rw [found]
    rcases Address.columnOfLetter?_eq_some_iff.mp found with rfl | rfl
    · clear found alpha
      revert column
      decide
    · clear found alpha
      revert column
      decide
  · have none : Address.columnOfLetter? letter = none := by
      cases found : Address.columnOfLetter? letter with
      | none => rfl
      | some column => exact absurd (Address.isAlpha_of_columnOfLetter? found) alpha
    rw [column?, if_neg alpha, none]
    rfl

theorem row?_eq (digits : List Char) : row? digits = (Address.rowOfDigits? digits).map Fin.val := by
  have word : rowCount < Nat.pow 2 64 := by decide
  unfold row? Address.rowOfDigits?
  dsimp only
  split
  · next range => rw [dif_pos ⟨range.2.1, by omega⟩, Option.map_some]
  · next range => rw [dif_neg fun inside => range (by omega), Option.map_none]

theorem parts?_eq (letter : Char) (digits : List Char) : parts? letter digits =
    .ok ((Address.ofParts? letter digits).map fun a => (a.row.val, a.column.val)) := by
  unfold parts? Address.ofParts?
  rw [column?_eq, row?_eq]
  cases Address.columnOfLetter? letter with
  | none => rfl
  | some column =>
      cases Address.rowOfDigits? digits with
      | none => rfl
      | some row => rfl

/-- The row and the column that a typed label names. -/
def label? (s : String) : Checked (Option (Nat × Nat)) :=
  match s.toList with
  | letter :: digits =>
    if !digits.isEmpty && digits.all Char.isDigit then parts? letter digits else return none
  | [] => return none

theorem label?_eq (s : String) :
    label? s = .ok ((Address.ofLabel? s).map fun a => (a.row.val, a.column.val)) := by
  unfold label? Address.ofLabel?
  cases s.toList with
  | nil => rfl
  | cons letter digits =>
      dsimp only
      split
      · exact parts?_eq letter digits
      · rfl

/-! ## The visible stretch -/

/-- Scrolls until the cursor is visible. -/
def followAxis (x : Axis) (cursor : Nat) : Checked Axis :=
  if cursor < x.first then return { x with first := cursor }
  else if x.first + x.shown ≤ cursor then return { x with first := ← minus (cursor + 1) x.shown }
  else return x

/-- The places that an axis shows in a grid of `limit` rows or columns. -/
def stretch (limit : Nat) (x : Axis) : List Nat :=
  List.range' x.first (x.stop limit - x.first)

theorem followAxis_eq (x : Axis) (cursor : Nat) : followAxis x cursor = .ok (x.follow cursor) := by
  unfold followAxis Axis.follow
  split
  · rfl
  split
  · next beyond =>
      rw [minus_of_le (by omega)]
      rfl
  · rfl

/-- By the number of rows or columns there are: the last of them is visible or it is not. -/
theorem filter_range_eq (x : Axis) (limit : Nat) :
    (List.range limit).filter (fun place => x.first ≤ place && place < x.first + x.shown) =
      stretch limit x := by
  unfold stretch Axis.stop
  induction limit with
  | zero => simp
  | succ limit ih =>
      rw [List.range_succ, List.filter_append, ih]
      by_cases seen : x.first ≤ limit ∧ limit < x.first + x.shown
      · have last : min (x.first + x.shown) (limit + 1) - x.first =
            min (x.first + x.shown) limit - x.first + 1 := by omega
        have place : x.first + (min (x.first + x.shown) limit - x.first) = limit := by omega
        rw [last, List.range'_concat, Nat.one_mul, place]
        simp [seen]
      · have same : min (x.first + x.shown) (limit + 1) - x.first =
            min (x.first + x.shown) limit - x.first := by omega
        rw [same]
        simp only [not_and, Nat.not_lt] at seen
        simpa using seen

/-- No place in the stretch is outside the grid. -/
theorem stretch_eq (limit : Nat) (x : Axis) :
    stretch limit x = (x.visible limit).map Fin.val := by
  rw [← filter_range_eq, Axis.visible, ← List.map_coe_finRange_eq_range, List.filter_map]
  rfl

end Checked

end Worksheet
