import Worksheet.Numeral

/-!
The text of a cell.

A cell holds at most 127 bytes of UTF-8. `CellText.ofString` keeps the longest run of whole
characters from the start that fits, and `CellText.content` tells what a text stands for: nothing, a
formula, a number or words.
-/

namespace Worksheet

/-! ## Capacity -/

/-- The most bytes a cell holds. -/
def cellCapacity : Nat := 127

/-- The longest run of characters from the start that takes at most `room` bytes. -/
def takeBytes : Nat → List Char → List Char
  | _, [] => []
  | room, c :: cs =>
    if c.utf8Size ≤ room then c :: takeBytes (room - c.utf8Size) cs else []

theorem utf8ByteSize_takeBytes_le (room : Nat) (cs : List Char) :
    (String.ofList (takeBytes room cs)).utf8ByteSize ≤ room := by
  induction cs generalizing room with
  | nil => exact Nat.zero_le _
  | cons c cs ih =>
      simp only [takeBytes]
      split
      · next fits =>
          have rest := ih (room - c.utf8Size)
          rw [String.ofList_cons, String.utf8ByteSize_append, String.utf8ByteSize_singleton]
          omega
      · exact Nat.zero_le _

theorem takeBytes_of_fits {room : Nat} {cs : List Char}
    (fits : (String.ofList cs).utf8ByteSize ≤ room) : takeBytes room cs = cs := by
  induction cs generalizing room with
  | nil => rfl
  | cons c cs ih =>
      rw [String.ofList_cons, String.utf8ByteSize_append, String.utf8ByteSize_singleton] at fits
      rw [takeBytes, if_pos (by omega), ih (by omega)]

/-- A text that fits into a cell. -/
@[ext] structure CellText where
  text : String
  size_le : text.utf8ByteSize ≤ cellCapacity

namespace CellText

instance : DecidableEq CellText := fun a b =>
  decidable_of_iff (a.text = b.text) ⟨CellText.ext, fun h => h ▸ rfl⟩

/-- The text of an empty cell. -/
def empty : CellText := ⟨"", by decide⟩

/-- Stores a text, cut to the longest run of whole characters that fits. -/
def ofString (s : String) : CellText :=
  ⟨String.ofList (takeBytes cellCapacity s.toList), utf8ByteSize_takeBytes_le _ _⟩

theorem ofString_of_fits {s : String} (fits : s.utf8ByteSize ≤ cellCapacity) :
    ofString s = ⟨s, fits⟩ := by
  apply CellText.ext
  rw [← String.ofList_toList (s := s)] at fits
  simp only [ofString, takeBytes_of_fits fits, String.ofList_toList]

/-- A text that a cell holds is kept whole. -/
theorem ofString_text (t : CellText) : ofString t.text = t :=
  ofString_of_fits t.size_le

/-- The characters of a text. -/
def chars (t : CellText) : List Char := t.text.toList

/-- A cell is empty if its text is. -/
def isEmpty (t : CellText) : Bool := t.text.isEmpty

/-! ## What a text stands for -/

/-- What a cell's text stands for. -/
inductive Content where
  | nothing
  | formula (body : List Char)
  | number (value : Float)
  | words

/-- A text that starts with `=` is a formula, one that reads as a number is that number, and any
other text is words. -/
def content (t : CellText) : Content :=
  match t.chars with
  | [] => .nothing
  | '=' :: body => .formula body
  | cs =>
    match Numeral.literal? cs with
    | some value => .number value
    | none => .words

/-- The formula of a text, without the `=`. -/
def formula? (t : CellText) : Option (List Char) :=
  match t.chars with
  | '=' :: body => some body
  | _ => none

theorem content_spec (t : CellText) :
    match t.content with
    | .nothing => t.chars = []
    | .formula body => t.chars = '=' :: body
    | .number value => t.formula? = none ∧ Numeral.literal? t.chars = some value
    | .words => t.formula? = none ∧ Numeral.literal? t.chars = none := by
  unfold content formula?
  rcases t.chars with _ | ⟨c, cs⟩
  · rfl
  by_cases formula : c = '='
  · subst formula
    rfl
  · cases read : Numeral.literal? (c :: cs) with
    | none => simp [formula, read]
    | some value => simp [formula, read]

end CellText

end Worksheet
