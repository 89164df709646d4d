import Worksheet.Proofs.Formula.Reading
import Worksheet.Proofs.Numeral.Reread
import Worksheet.Proofs.Numeral.Signed

/-!
Numbers as literals and in formulas.

`LiteralText` says how a literal is written, and `IsRounded` which double it comes to: the nearest one, with
the literal's sign, as long as it is not too large. A text is read as such a double if and only if it is
written so (`Numeral.literal?_eq_some_iff`). A formula of the same text has its sign for an operator, and it
comes to the same double without asking for any cell (`Numeral.literal?_reads_as_formula`).
-/

namespace Worksheet

/-! ## Rounding -/

section Nearest

variable {x : Float} {p q : ℚ} (exact : rational? x = some p)

include exact

/-- Below zero every double is farther from a number than zero is. -/
theorem multiple_or_farther_of_exact (positive : 0 < q) :
    (∃ z : ℤ, p = z * 2 ^ binaryPlace q) ∨ |toBinary q - q| < |p - q| := by
  rcases lt_trichotomy p 0 with below | rfl | above
  · have zero := abs_roundTo_sub_le_abs (zpow_two_pos (binaryPlace q)) q 0
    rw [Int.cast_zero, zero_mul, zero_sub, abs_neg, abs_of_pos positive] at zero
    refine .inr (zero.trans_lt ?_)
    rw [abs_of_neg (by linarith)]
    linarith
  · exact .inl ⟨0, by rw [Int.cast_zero, zero_mul]⟩
  · obtain ⟨m, e, form, value⟩ := form_of_exact exact above.ne'
    rw [abs_of_pos above] at value
    rw [value]
    exact multiple_or_farther positive form

theorem abs_toBinary_sub_le_of_exact (nonneg : 0 ≤ q) : |toBinary q - q| ≤ |p - q| := by
  rcases nonneg.eq_or_lt with rfl | positive
  · rw [toBinary_zero, sub_zero, abs_zero]
    exact abs_nonneg _
  rcases multiple_or_farther_of_exact exact positive with ⟨z, rfl⟩ | farther
  · exact abs_roundTo_sub_le_abs (zpow_two_pos (binaryPlace q)) q z
  · exact farther.le

theorem even_of_tie_of_exact (nonneg : 0 ≤ q) (other : p ≠ toBinary q)
    (tie : |p - q| = |toBinary q - q|) : Even (nearestEven (q / 2 ^ binaryPlace q)) := by
  rcases nonneg.eq_or_lt with rfl | positive
  · rw [toBinary_zero, sub_zero, sub_zero, abs_zero, abs_eq_zero] at tie
    exact absurd (tie.trans toBinary_zero.symm) other
  rcases multiple_or_farther_of_exact exact positive with ⟨z, rfl⟩ | farther
  · exact even_of_tie other tie
  · exact absurd tie farther.ne'

end Nearest

/-- The double with this sign that a number, not below zero, is rounded to. It is the nearest one, and of
two that are as near the one with an even mantissa. There is none half way to the power of two above the
largest double, or beyond. -/
structure IsRounded (negative : Bool) (q : ℚ) (v : Float) : Prop where
  below : q < overflowBound
  sign : signOf v = if negative then .negative else .positive
  number : rational? v = some (if negative then -toBinary q else toBinary q)
  nearest : ∀ x p, rational? x = some p → |toBinary q - q| ≤ |p - q|
  even : ∀ x p, rational? x = some p → p ≠ toBinary q → |p - q| = |toBinary q - q| →
    Even (nearestEven (q / 2 ^ binaryPlace q))

namespace Numeral

theorem denoted_nonneg (n : Numeral) : 0 ≤ n.denoted :=
  mul_nonneg (Nat.cast_nonneg _) (zpow_pos (by norm_num) _).le

theorem isFinite_value_iff (n : Numeral) : n.value.isFinite = true ↔ n.denoted < overflowBound := by
  have finite : n.value.isFinite = true ↔ toBinary n.denoted < 2 ^ (1024 : ℤ) := by
    rw [← isSome_rational?, rational?_value_eq, binary?]
    split
    · next small => exact iff_of_true rfl small
    · next large => exact iff_of_false Bool.false_ne_true large
  rcases n.denoted_nonneg.eq_or_lt with zero | positive
  · have below : (0 : ℚ) < overflowBound := by
      rw [overflowBound_eq]
      exact mul_pos (by norm_num) (zpow_two_pos 971)
    rw [finite, ← zero, toBinary_zero]
    exact iff_of_true (zpow_two_pos 1024) below
  · rw [finite, toBinary_lt_iff positive]

theorem rational?_value_of_finite {n : Numeral} (finite : n.value.isFinite = true) :
    rational? n.value = some (toBinary n.denoted) := by
  have known := n.rational?_value_eq
  rw [← isSome_rational?] at finite
  unfold binary? at known
  split at known
  · exact known
  · rw [known] at finite
    cases finite

theorem signOf_signed_value {n : Numeral} (finite : n.value.isFinite = true) (negative : Bool) :
    signOf (if negative then -n.value else n.value) = if negative then .negative else .positive := by
  cases negative with
  | false => exact n.signOf_value
  | true =>
      change signOf (-n.value) = _
      rw [signOf_neg (rational?_value_of_finite finite), n.signOf_value]
      rfl

/-- There is one double that the number of a numeral is rounded to, and that is its value with the sign. -/
theorem isRounded_iff {n : Numeral} {negative : Bool} {v : Float} : IsRounded negative n.denoted v ↔
    n.value.isFinite = true ∧ v = if negative then -n.value else n.value := by
  constructor
  · intro rounded
    have finite := n.isFinite_value_iff.mpr rounded.below
    have known := rational?_signed (rational?_value_of_finite finite) negative
    have sign := signOf_signed_value finite negative
    exact ⟨finite, eq_of_exact rounded.number known (rounded.sign.trans sign.symm)⟩
  · rintro ⟨finite, rfl⟩
    exact ⟨n.isFinite_value_iff.mp finite, signOf_signed_value finite negative,
      rational?_signed (rational?_value_of_finite finite) negative,
      fun _ _ exact => abs_toBinary_sub_le_of_exact exact n.denoted_nonneg,
      fun _ _ exact => even_of_tie_of_exact exact n.denoted_nonneg⟩

theorem literal?_eq_some_iff {cs : List Char} {v : Float} : literal? cs = some v ↔
    ∃ negative n, LiteralText negative n cs ∧ IsRounded negative n.denoted v := by
  constructor
  · intro read
    obtain ⟨negative, n, written, value⟩ := text_of_literal? read
    exact ⟨negative, n, written, isRounded_iff.mpr value⟩
  · rintro ⟨negative, n, written, rounded⟩
    obtain ⟨finite, rfl⟩ := isRounded_iff.mp rounded
    rw [literal?_of_text written, if_pos finite]

/-! ## Literals in formulas -/

/-- As a formula, a literal is a number, negated if it has a minus sign. -/
theorem LiteralText.ofChars {negative : Bool} {n : Numeral} {cs : List Char}
    (written : LiteralText negative n cs) :
    Expr.ofChars cs = if negative then .negate (.number n.value) else .number n.value := by
  cases written with
  | @intro before sign text after first signText numeral last =>
  have number : Spelling [.number n.value] (text ++ after) := .of_lexeme (.number numeral) (.done last)
  rw [List.append_assoc]
  cases signText with
  | absent =>
      have padded : Spelling [.number n.value] (before ++ (text ++ after)) :=
        .token first (.number numeral) (.done last)
      exact Expr.ofChars_of_writtenAs ⟨_, padded, .product (.factor .number)⟩
  | plus =>
      have padded := Spelling.token first .add number
      exact Expr.ofChars_of_writtenAs ⟨_, padded, .product (.factor (.plus .number))⟩
  | minus =>
      have padded := Spelling.token first .subtract number
      exact Expr.ofChars_of_writtenAs ⟨_, padded, .product (.factor (.minus .number))⟩

/-- A text is read as a literal if and only if it is written as one and its number has a double, which it
is read as. As a formula such a text comes to the same double, with the same sign where it is zero, and
asks for no cell. -/
theorem literal?_reads_as_formula (cs : List Char) (v : Float) :
    (literal? cs = some v ↔ ∃ negative n, LiteralText negative n cs ∧ IsRounded negative n.denoted v) ∧
      (literal? cs = some v →
        ∀ {m : Type → Type} [Monad m] [LawfulMonad m] (resolve : Address → m Outcome),
          (Expr.ofChars cs).evaluate resolve = pure (.ok v)) := by
  refine ⟨literal?_eq_some_iff, ?_⟩
  intro read m _ _ resolve
  obtain ⟨negative, n, written, finite, rfl⟩ := text_of_literal? read
  have known : Worksheet.finite n.value = .ok n.value := if_pos finite
  rw [written.ofChars]
  cases negative with
  | false => exact congrArg pure known
  | true =>
      rw [if_pos rfl, if_pos rfl, Expr.evaluate, Expr.evaluate, known, pure_bind]

/-- Zero with a minus sign and blanks around it; a number without a double is no literal. -/
theorem literal?_reads_as_formula_of_negativeZero :
    let v : Float := -Numeral.value ⟨['0'], [], 0⟩
    literal? "\t-0 ".toList = some v ∧
      (∃ n, LiteralText true n "\t-0 ".toList ∧ IsRounded true n.denoted v) ∧
      (Expr.ofChars "\t-0 ".toList).evaluateIn (fun _ => .error .cycle) = (.ok v, []) ∧
      signOf v = .negative ∧ literal? "1e309".toList = none := by
  intro v
  obtain ⟨shape, formula⟩ := literal?_reads_as_formula "\t-0 ".toList v
  have read : literal? "\t-0 ".toList = some v := rfl
  have minus : signOf v = .negative := signOf_signed_value rfl true
  obtain ⟨negative, n, written, rounded⟩ := shape.mp read
  have asksNothing := congrArg (·.run []) (formula read (Expr.listing fun _ => .error .cycle))
  have tooLarge : literal? "1e309".toList = none := Option.isNone_iff_eq_none.mp (by decide +kernel)
  cases negative with
  | false => cases minus.symm.trans rounded.sign
  | true => exact ⟨read, ⟨n, written, rounded⟩, asksNothing, minus, tooLarge⟩

end Numeral

end Worksheet
