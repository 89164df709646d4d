import Worksheet.Proofs.Evaluation.Queries
import Worksheet.Proofs.Numeral.Reread

/-!
Typing in what is displayed.

`formatNumber_rereads` says for which numbers the text that a cell displays can be typed into a cell again
and shows the same number there.
-/

namespace Worksheet

open Float.Model (UnpackedFloat)
open Float.Model.Format (binary64)

/-! ## Cells -/

section Plain

variable {t : CellText} {c : Char} {cs : List Char} (chars : t.chars = c :: cs) (plain : c ≠ '=')

include chars plain

theorem CellText.content_of_plain :
    t.content = match Numeral.literal? t.chars with
      | some y => .number y
      | none => .words := by
  unfold content
  rw [chars]
  split
  · next same => cases same
  · next same => exact absurd (List.cons.inj same).1 plain
  · rfl

theorem CellText.evaluateIn_of_plain (table : Address → Outcome) :
    t.evaluateIn table = (.ok ((Numeral.literal? t.chars).getD 0.0), []) := by
  have formula : t.formula? = none := by
    unfold formula?
    rw [chars]
    split
    · next same => exact absurd (List.cons.inj same).1 plain
    · rfl
  rw [evaluateIn, formula]

/-- What a cell without a formula shows in a pass, whatever has been asked for before. -/
theorem Sheet.display_of_plain {s : Sheet} {a : Address} (held : s.texts.get a = t) (qs : List Query) :
    ((s.beginPass.answers qs).2.display a).1 =
      match Numeral.literal? t.chars with
      | some y => formatNumber y
      | none => t.text := by
  obtain ⟨S⟩ := exists_solution s.texts
  have answered := (((beginPass_inPass s S).answers qs).2.answer (.display a)).1
  have shown : ((s.beginPass.answers qs).2.display a).1 =
      Worksheet.display (s.texts.get a) (.settled (S.table a)) := Answer.shown.inj answered
  rw [shown, S.solves a, held, CellText.evaluateIn_of_plain chars plain, Worksheet.display]
  dsimp only [Record.settled]
  rw [CellText.content_of_plain chars plain]
  cases Numeral.literal? t.chars with
  | some y => rfl
  | none => rfl

end Plain

theorem Sheet.get_setText (s : Sheet) (a : Address) {new : String}
    (fits : new.utf8ByteSize ≤ cellCapacity) : (s.setText a new).texts.get a = ⟨new, fits⟩ := by
  rw [texts_setText, if_pos rfl, CellText.ofString_of_fits fits]

/-! ## Displayed numbers -/

section Retyped

variable {x : Float} {q : ℚ} (exact : rational? x = some q)

include exact

/-- A displayed number stands at the right of its column. The one that is no literal fills the column. -/
theorem columnContent_formatNumber :
    columnContent (formatNumber x) =
      ((fitToWidth (formatNumber x).toList columnWidth).map Text.shown).leftpad
        (columnWidth - 1) ' ' ++ [' '] := by
  unfold columnContent
  dsimp only
  rcases le_or_gt |q| displayLimit with le | gt
  · obtain ⟨y, literal, -⟩ := literal?_formatNumber exact le
    rw [literal]
  · rw [literal?_formatNumber_of_gt exact gt]
    dsimp only
    rw [formatNumber_of_gt exact gt]
    split
    · decide +kernel
    · decide +kernel

/-- A cell that a displayed number is typed into shows it again. -/
theorem display_retyped (s : Sheet) (a : Address) (qs : List Query) :
    (((s.setText a (formatNumber x)).beginPass.answers qs).2.display a).1 = formatNumber x := by
  let t : CellText := ⟨formatNumber x, utf8ByteSize_formatNumber_le exact⟩
  obtain ⟨c, cs, chars, plain, -⟩ := exists_formatNumber_cons exact
  have chars : t.chars = c :: cs := chars
  rw [Sheet.display_of_plain chars plain (s.get_setText a t.size_le)]
  rcases le_or_gt |q| displayLimit with le | gt
  · obtain ⟨y, literal, -, same⟩ := literal?_formatNumber exact le
    have literal : Numeral.literal? t.chars = some y := literal
    rw [literal]
    exact same
  · have refused : Numeral.literal? t.chars = none := literal?_formatNumber_of_gt exact gt
    rw [refused]

end Retyped

/-- What a finite number is displayed as is a number with the same display, unless it is one of the largest
doubles: these are displayed as one number beyond all doubles, which is no literal. In either case it stands at
the right of its column, and a cell that it is typed into shows it again. -/
theorem formatNumber_rereads {x : Float} {q : ℚ} (exact : rational? x = some q) :
    let shown := formatNumber x
    (|q| ≤ displayLimit → ∃ y, Numeral.literal? shown.toList = some y ∧ y.isFinite = true ∧
      formatNumber y = shown) ∧
    (displayLimit < |q| →
      shown = (if q < 0 then "-1.797693135e+308" else "1.797693135e+308") ∧
      Numeral.literal? shown.toList = none) ∧
    columnContent shown = ((fitToWidth shown.toList columnWidth).map Text.shown).leftpad
      (columnWidth - 1) ' ' ++ [' '] ∧
    ∀ (s : Sheet) (a : Address) (qs : List Query),
      (((s.setText a shown).beginPass.answers qs).2.display a).1 = shown := by
  intro shown
  exact ⟨literal?_formatNumber exact,
    fun gt => ⟨formatNumber_of_gt exact gt, literal?_formatNumber_of_gt exact gt⟩,
    columnContent_formatNumber exact, display_retyped exact⟩

/-- The double above the one that is nearest to 1e-314. -/
def aboveBottomPower : Float := Float.ofBits 2024022534

/-- The largest double. -/
def largestDouble : Float := Float.ofBits 0x7fefffffffffffff

theorem unpack_aboveBottomPower : UnpackedFloat.unpack binary64 aboveBottomPower.toBits.toBitVec =
    .finite .positive 2024022534 (-1074) (by decide) := by
  rfl

theorem unpack_largestDouble : UnpackedFloat.unpack binary64 largestDouble.toBits.toBitVec =
    .finite .positive (2 ^ 53 - 1) 971 (by decide) := by
  rfl

/-- The first of two doubles is near to a power of ten and shown as one, and so is what it is read as; the
second is shown as a number beyond the largest double. -/
theorem formatNumber_rereads_of_extremes :
    let q : ℚ := (2024022534 : ℕ) * 2 ^ (-1074 : ℤ)
    let r : ℚ := ((2 ^ 53 - 1 : ℕ) : ℚ) * 2 ^ (971 : ℤ)
    (rational? aboveBottomPower = some q ∧ |q| ≤ displayLimit ∧
      formatNumber aboveBottomPower = "1e-314" ∧
      ∃ y, Numeral.literal? (formatNumber aboveBottomPower).toList = some y ∧ y.isFinite = true ∧
        formatNumber y = formatNumber aboveBottomPower) ∧
    (rational? largestDouble = some r ∧ displayLimit < |r| ∧
      formatNumber largestDouble = "1.797693135e+308" ∧
      Numeral.literal? (formatNumber largestDouble).toList = none) := by
  intro q r
  have first : rational? aboveBottomPower = some q := rational?_of_unpack unpack_aboveBottomPower
  have second : rational? largestDouble = some r := rational?_of_unpack unpack_largestDouble
  have shown : formatNumber aboveBottomPower = "1e-314" := by decide +kernel
  have le : |q| ≤ displayLimit := by
    have power : (2 : ℚ) ^ (-1074 : ℤ) ≤ 1 := zpow_le_one_of_nonpos₀ (by norm_num) (by decide)
    have unit : (1 : ℚ) ≤ 10 ^ 298 := one_le_pow₀ (by norm_num)
    have positive : 0 < q := mul_pos (by norm_num) (zpow_two_pos (-1074))
    rw [abs_of_pos positive]
    calc q ≤ (2024022534 : ℕ) * 1 := mul_le_mul_of_nonneg_left power (Nat.cast_nonneg _)
      _ ≤ 17976931345 * 1 := by norm_num
      _ ≤ displayLimit := mul_le_mul_of_nonneg_left unit (by norm_num)
  have gt : displayLimit < |r| := by
    have beyond : 17976931345 * 10 ^ 298 < (2 ^ 53 - 1) * 2 ^ 971 := by decide +kernel
    rw [abs_of_pos binary64_largest.value_pos, displayLimit]
    exact_mod_cast beyond
  have positive : 0 < r := binary64_largest.value_pos
  obtain ⟨written, refused⟩ := (formatNumber_rereads second).2.1 gt
  rw [if_neg positive.not_gt] at written
  exact ⟨⟨first, le, shown, (formatNumber_rereads first).1 le⟩, second, gt, written, refused⟩

/-- The largest double is finite, but what it is displayed as is no number. -/
theorem largest_not_reread :
    ¬∀ x : Float, x.isFinite = true → ∃ y, Numeral.literal? (formatNumber x).toList = some y ∧
      y.isFinite = true ∧ formatNumber y = formatNumber x := by
  intro every
  obtain ⟨y, literal, -⟩ := every largestDouble (by decide +kernel)
  have refused : (Numeral.literal? (formatNumber largestDouble).toList).isNone = true := by
    decide +kernel
  rw [literal] at refused
  cases refused

end Worksheet
