import Worksheet.CellText
import Mathlib.Data.List.Infix

/-!
How a text is cut to the capacity of a cell.

A cell keeps the longest run of whole characters from the start of a text that it has room for
(`CellText.CutOf`). This run is unique, so it is what `CellText.ofString` stores: `cutOf_iff`.
-/

namespace Worksheet

theorem takeBytes_prefix (room : Nat) (cs : List Char) : takeBytes room cs <+: cs := by
  induction cs generalizing room with
  | nil => exact List.prefix_rfl
  | cons c cs ih =>
      rw [takeBytes]
      split
      · exact (List.prefix_cons_inj c).mpr (ih _)
      · exact List.nil_prefix

theorem prefix_takeBytes {room : Nat} {front cs : List Char} (early : front <+: cs)
    (fits : (String.ofList front).utf8ByteSize ≤ room) : front <+: takeBytes room cs := by
  induction cs generalizing room front with
  | nil => exact early
  | cons c cs ih =>
      cases front with
      | nil => exact List.nil_prefix
      | cons d front =>
          obtain ⟨rfl, later⟩ := List.cons_prefix_cons.mp early
          rw [String.ofList_cons, String.utf8ByteSize_append, String.utf8ByteSize_singleton] at fits
          rw [takeBytes, if_pos (by omega)]
          exact (List.prefix_cons_inj d).mpr (ih later (by omega))

/-- Where something is cut off, there is no room for the next character. -/
theorem takeBytes_cases (room : Nat) (cs : List Char) : takeBytes room cs = cs ∨
    ∃ c rest, cs = takeBytes room cs ++ c :: rest ∧
      room < (String.ofList (takeBytes room cs)).utf8ByteSize + c.utf8Size := by
  induction cs generalizing room with
  | nil => exact .inl rfl
  | cons c cs ih =>
      rw [takeBytes]
      split
      · next fits =>
          rcases ih (room - c.utf8Size) with whole | ⟨next, rest, split, full⟩
          · exact .inl (congrArg (c :: ·) whole)
          · refine .inr ⟨next, rest, congrArg (c :: ·) split, ?_⟩
            rw [String.ofList_cons, String.utf8ByteSize_append, String.utf8ByteSize_singleton]
            omega
      · next large =>
          refine .inr ⟨c, cs, rfl, ?_⟩
          change room < 0 + c.utf8Size
          omega

namespace CellText

/-- The longest run of whole characters from the start of a text that fits into a cell. -/
structure CutOf (t : CellText) (s : String) : Prop where
  isPrefix : t.chars <+: s.toList
  longest : ∀ front : List Char, front <+: s.toList →
    (String.ofList front).utf8ByteSize ≤ cellCapacity → front <+: t.chars

theorem chars_ofString (s : String) : (ofString s).chars = takeBytes cellCapacity s.toList := by
  rw [chars, ofString, String.toList_ofList]

theorem cutOf_ofString (s : String) : (ofString s).CutOf s := by
  constructor
  · rw [chars_ofString]
    exact takeBytes_prefix _ _
  · intro front early fits
    rw [chars_ofString]
    exact prefix_takeBytes early fits

/-- A text has one cut. -/
theorem CutOf.eq {t u : CellText} {s : String} (first : t.CutOf s) (second : u.CutOf s) : t = u := by
  have fits (v : CellText) : (String.ofList v.chars).utf8ByteSize ≤ cellCapacity := by
    rw [chars, String.ofList_toList]
    exact v.size_le
  have less := second.longest t.chars first.isPrefix (fits t)
  have more := first.longest u.chars second.isPrefix (fits u)
  exact CellText.ext (String.toList_inj.mp (less.eq_of_length_le more.length_le))

theorem ofString_cases (s : String) : (ofString s).text = s ∨
    ∃ c rest, s.toList = (ofString s).chars ++ c :: rest ∧
      cellCapacity < (ofString s).text.utf8ByteSize + c.utf8Size := by
  rw [chars_ofString]
  rcases takeBytes_cases cellCapacity s.toList with whole | cut
  · exact .inl (String.toList_inj.mp ((chars_ofString s).trans whole))
  · exact .inr cut

/-- No character takes more than four bytes, so that at most three are left free. -/
theorem capacity_le_of_long {s : String} (long : cellCapacity < s.utf8ByteSize) :
    cellCapacity - 3 ≤ (ofString s).text.utf8ByteSize := by
  rcases ofString_cases s with whole | ⟨c, rest, -, full⟩
  · have fits := (ofString s).size_le
    rw [whole] at fits
    exact absurd long (Nat.not_lt.mpr fits)
  · have wide := c.utf8Size_le_four
    omega

theorem cutOf_iff {t : CellText} {s : String} : t.CutOf s ↔ t = ofString s :=
  ⟨fun cut => cut.eq (cutOf_ofString s), fun same => same ▸ cutOf_ofString s⟩

end CellText

end Worksheet
