import Mathlib.Tactic.FieldSimp
import Worksheet.Numeral.Rounding
import Worksheet.Proofs.Numeral.HalfEven

/-!
Ten significant digits.

`toTenDigits` rounds a positive rational number: the leading digit's power of ten is its logarithm, and the
number is rounded to a whole multiple of the unit nine places further down. `Significant.ofBinary_rounds`
says that reckoning with numerators and denominators comes to this, and `roundTo_toTenDigits` that rounding
to the last place of the *rounded* number makes no difference, also where rounding carries into the next
power of ten.
-/

namespace Worksheet

/-! ## Powers of ten -/

/-- The logarithm is the exponent of the power that the number has reached. -/
theorem log_eq_iff {b : ℕ} (base : 1 < b) {q : ℚ} (positive : 0 < q) {e : ℤ} :
    Int.log b q = e ↔ (b : ℚ) ^ e ≤ q ∧ q < (b : ℚ) ^ (e + 1) := by
  have least := Int.zpow_le_iff_le_log base (x := e) positive
  have most := Int.lt_zpow_iff_log_lt base (x := e + 1) positive
  rw [least, most]
  omega

theorem log_ten_eq_iff {q : ℚ} (positive : 0 < q) {e : ℤ} :
    Int.log 10 q = e ↔ (10 : ℚ) ^ e ≤ q ∧ q < (10 : ℚ) ^ (e + 1) := by
  have iff := log_eq_iff (b := 10) (by decide) positive (e := e)
  rwa [Nat.cast_ofNat] at iff

theorem zpow_log_le {q : ℚ} (positive : 0 < q) : (10 : ℚ) ^ Int.log 10 q ≤ q :=
  ((log_ten_eq_iff positive).mp rfl).1

theorem lt_zpow_log {q : ℚ} (positive : 0 < q) : q < (10 : ℚ) ^ (Int.log 10 q + 1) :=
  ((log_ten_eq_iff positive).mp rfl).2

/-- The unit of the last of ten digits, where the first stands for a power of ten. -/
def lastPlace (e : ℤ) : ℚ := 10 ^ (e - 9)

theorem lastPlace_pos (e : ℤ) : 0 < lastPlace e := zpow_pos (by norm_num) _

theorem mul_lastPlace (e : ℤ) : (10 : ℚ) ^ 9 * lastPlace e = 10 ^ e := by
  rw [lastPlace, ← zpow_natCast, ← zpow_add₀ (by norm_num)]
  congr 1
  ring

theorem lastPlace_add_one (e : ℤ) : lastPlace (e + 1) = 10 * lastPlace e := by
  rw [lastPlace, lastPlace, show e + 1 - 9 = e - 9 + 1 by ring, zpow_add_one₀ (by norm_num),
    mul_comm]

/-! ## Rounding to ten digits -/

/-- Rounds a positive number to ten significant digits. -/
def toTenDigits (q : ℚ) : ℚ :=
  roundTo (lastPlace (Int.log 10 q)) q

section Rational

variable {q : ℚ} (positive : 0 < q)

include positive

/-- Ten digits do, or rounding carries. -/
theorem nearestEven_lastPlace :
    10 ^ 9 ≤ nearestEven (q / lastPlace (Int.log 10 q)) ∧
      nearestEven (q / lastPlace (Int.log 10 q)) ≤ 10 ^ 10 := by
  have unit := lastPlace_pos (Int.log 10 q)
  have whole := mul_lastPlace (Int.log 10 q)
  constructor
  · refine le_nearestEven ?_
    have cast : ((10 ^ 9 : ℤ) : ℚ) = 10 ^ 9 := by norm_cast
    rw [cast, le_div_iff₀ unit, whole]
    exact zpow_log_le positive
  · refine nearestEven_le ?_
    have cast : ((10 ^ 10 : ℤ) : ℚ) = 10 ^ 9 * 10 := by norm_cast
    have most := lt_zpow_log positive
    rw [zpow_add_one₀ (by norm_num), ← whole] at most
    rw [cast, div_le_iff₀ unit]
    linarith

/-- Rounding stays within the powers of ten around the number. -/
theorem toTenDigits_bounds :
    10 ^ Int.log 10 q ≤ toTenDigits q ∧ toTenDigits q ≤ 10 ^ (Int.log 10 q + 1) := by
  let e := Int.log 10 q
  have unit := lastPlace_pos e
  have whole := mul_lastPlace e
  have next : (10 : ℚ) ^ (e + 1) = 10 ^ e * 10 := zpow_add_one₀ (by norm_num) e
  obtain ⟨least, most⟩ := nearestEven_lastPlace positive
  have least : (10 : ℚ) ^ 9 ≤ nearestEven (q / lastPlace e) := by exact_mod_cast least
  have most : (nearestEven (q / lastPlace e) : ℚ) ≤ 10 ^ 10 := by exact_mod_cast most
  have lower := mul_le_mul_of_nonneg_right least unit.le
  have upper := mul_le_mul_of_nonneg_right most unit.le
  change _ ≤ toTenDigits q at lower
  change toTenDigits q ≤ _ at upper
  exact ⟨by linarith, by linarith⟩

theorem toTenDigits_pos : 0 < toTenDigits q :=
  (zpow_pos (by norm_num) _).trans_le (toTenDigits_bounds positive).1

omit positive in
theorem abs_toTenDigits_sub_le :
    |toTenDigits q - q| ≤ lastPlace (Int.log 10 q) / 2 :=
  abs_roundTo_sub_le (lastPlace_pos _) q

/-- Rounding to the last place of the rounded number gives the same. -/
theorem roundTo_toTenDigits :
    roundTo (lastPlace (Int.log 10 (toTenDigits q))) q = toTenDigits q := by
  let e := Int.log 10 q
  have unit := lastPlace_pos e
  have next : (10 : ℚ) ^ (e + 1) = 10 ^ 10 * lastPlace e := by
    rw [zpow_add_one₀ (by norm_num), ← mul_lastPlace]
    ring
  obtain ⟨least, most⟩ := nearestEven_lastPlace positive
  have value : toTenDigits q = nearestEven (q / lastPlace e) * lastPlace e := rfl
  rcases most.lt_or_eq with below | carry
  · have same : Int.log 10 (toTenDigits q) = e := by
      have least : (10 : ℚ) ^ 9 ≤ nearestEven (q / lastPlace e) := by exact_mod_cast least
      have below : (nearestEven (q / lastPlace e) : ℚ) < 10 ^ 10 := by exact_mod_cast below
      rw [log_ten_eq_iff (by rw [value]; positivity), value, next, ← mul_lastPlace]
      exact ⟨mul_le_mul_of_nonneg_right least unit.le, mul_lt_mul_of_pos_right below unit⟩
    rw [same]
    rfl
  · have carried : toTenDigits q = 10 ^ (e + 1) := by
      rw [value, carry, next]
      push_cast
      rfl
    have log : Int.log 10 (toTenDigits q) = e + 1 := by
      rw [carried]
      exact Int.log_zpow (by decide) (e + 1)
    have multiple : ((10 ^ 9 : ℤ) : ℚ) * lastPlace (e + 1) = toTenDigits q := by
      rw [carried, ← mul_lastPlace]
      push_cast
      rfl
    have near := abs_toTenDigits_sub_le (q := q)
    have close : |toTenDigits q - q| < lastPlace (e + 1) / 2 := by
      rw [lastPlace_add_one]
      linarith
    rw [log, ← multiple]
    rw [← multiple] at close
    exact roundTo_eq (lastPlace_pos _) close.le fun half => absurd half close.ne

/-- Rounding changes the exponent by one at most. -/
theorem log_toTenDigits :
    Int.log 10 q ≤ Int.log 10 (toTenDigits q) ∧ Int.log 10 (toTenDigits q) ≤ Int.log 10 q + 1 := by
  have above := toTenDigits_pos positive
  obtain ⟨least, most⟩ := toTenDigits_bounds positive
  have next : (10 : ℚ) ^ (Int.log 10 q + 1) < 10 ^ (Int.log 10 q + 1 + 1) :=
    zpow_lt_zpow_right₀ (by norm_num) (lt_add_one _)
  constructor
  · exact (Int.zpow_le_iff_le_log (by decide) above).mp least
  · exact Int.lt_add_one_iff.mp ((Int.lt_zpow_iff_log_lt (by decide) above).mp (most.trans_lt next))

end Rational

/-! ## Numerators and denominators -/

theorem roundHalfEven_eq (num : Nat) {den : Nat} (positive : 0 < den) :
    (roundHalfEven num den : ℤ) = nearestEven ((num : ℚ) / den) := by
  have unit : (0 : ℚ) < den := by exact_mod_cast positive
  have floor : ⌊(num : ℚ) / den⌋ = ((num / den : ℕ) : ℤ) := by
    rw [Rat.floor_natCast_div_natCast]
    rfl
  have rest : (num : ℚ) / den - ((num / den : ℕ) : ℤ) = ((num % den : ℕ) : ℚ) / den := by
    rw [sub_eq_iff_eq_add, Int.cast_natCast, div_eq_iff unit.ne', add_mul,
      div_mul_cancel₀ _ unit.ne', add_comm, mul_comm]
    exact_mod_cast (Nat.div_add_mod num den).symm
  have more : 1 / 2 < ((num % den : ℕ) : ℚ) / den ↔ den < 2 * (num % den) := by
    rw [lt_div_iff₀ unit, div_mul_eq_mul_div, one_mul, div_lt_iff₀ (by norm_num), mul_comm]
    exact_mod_cast Iff.rfl
  have half : ((num % den : ℕ) : ℚ) / den = 1 / 2 ↔ den = 2 * (num % den) := by
    rw [div_eq_div_iff unit.ne' (by norm_num), one_mul, eq_comm, mul_comm]
    exact_mod_cast Iff.rfl
  have odd : ¬Even ((num / den : ℕ) : ℤ) ↔ num / den % 2 = 1 := by
    rw [Int.even_coe_nat, Nat.not_even_iff]
  unfold nearestEven roundHalfEven
  dsimp only
  simp only [floor, rest, more, half, odd]
  split
  · rfl
  · rfl

/-- A power with a natural exponent that comes from an integer. -/
theorem cast_pow_toNat (b : ℕ) {k : ℤ} (nonneg : 0 ≤ k) :
    ((Nat.pow b k.toNat : ℕ) : ℚ) = (b : ℚ) ^ k := by
  rw [Nat.pow_eq, Nat.cast_pow, ← zpow_natCast, Int.toNat_of_nonneg nonneg]

theorem scaleByTen_pos (k : Int) (num : Nat) {den : Nat} (positive : 0 < den) :
    0 < (scaleByTen k num den).2 := by
  unfold scaleByTen
  split
  · exact positive
  · exact Nat.mul_pos positive (Nat.pow_pos (by decide))

theorem div_scaleByTen (k : Int) (num den : Nat) :
    ((scaleByTen k num den).1 : ℚ) / (scaleByTen k num den).2 = num / den * 10 ^ k := by
  unfold scaleByTen
  split
  · next nonneg =>
      dsimp only
      rw [Nat.cast_mul, cast_pow_toNat 10 nonneg, Nat.cast_ofNat, mul_div_right_comm]
  · next negative =>
      dsimp only
      rw [Nat.cast_mul, cast_pow_toNat 10 (by omega), Nat.cast_ofNat, zpow_neg, ← div_eq_mul_inv,
        div_div_eq_mul_div, mul_div_right_comm]

theorem digitCount_bounds {n : Nat} (positive : 0 < n) :
    10 ^ (digitCount n - 1) ≤ n ∧ n < 10 ^ digitCount n := by
  have count : 0 < digitCount n := Nat.length_toDigits_pos
  refine ⟨?_, (Nat.length_toDigits_le_iff (by decide) count).mp (Nat.le_refl _)⟩
  by_contra less
  rcases Nat.eq_zero_or_pos (digitCount n - 1) with zero | more
  · rw [zero] at less
    omega
  · have fewer := (Nat.length_toDigits_le_iff (by decide) more).mpr (Nat.lt_of_not_le less)
    change digitCount n ≤ digitCount n - 1 at fewer
    omega

section Ratio

variable {num den : Nat} (top : 0 < num) (bottom : 0 < den)

include top bottom

theorem leadingExponent_eq : leadingExponent num den = Int.log 10 ((num : ℚ) / den) := by
  let q : ℚ := (num : ℚ) / den
  let e : ℤ := (digitCount num : ℤ) - digitCount den
  have numerator : (0 : ℚ) < num := by exact_mod_cast top
  have denominator : (0 : ℚ) < den := by exact_mod_cast bottom
  have positive : 0 < q := div_pos numerator denominator
  have ten : (10 : ℚ) ≠ 0 := by norm_num
  obtain ⟨numLeast, numMost⟩ := digitCount_bounds top
  obtain ⟨denLeast, denMost⟩ := digitCount_bounds bottom
  have least : (10 : ℚ) ^ (e - 1) < q := by
    have count : 0 < digitCount num := Nat.length_toDigits_pos
    have numLeast : (10 : ℚ) ^ (digitCount num - 1) ≤ num := by exact_mod_cast numLeast
    have denMost : (den : ℚ) < 10 ^ digitCount den := by exact_mod_cast denMost
    rw [lt_div_iff₀ denominator]
    calc (10 : ℚ) ^ (e - 1) * den < 10 ^ (e - 1) * 10 ^ digitCount den :=
          mul_lt_mul_of_pos_left denMost (zpow_pos (by norm_num) _)
      _ = 10 ^ (digitCount num - 1) := by
          rw [← zpow_natCast, ← zpow_natCast, ← zpow_add₀ ten]
          congr 1
          omega
      _ ≤ num := numLeast
  have most : q < (10 : ℚ) ^ (e + 1) := by
    have count : 0 < digitCount den := Nat.length_toDigits_pos
    have numMost : (num : ℚ) < 10 ^ digitCount num := by exact_mod_cast numMost
    have denLeast : (10 : ℚ) ^ (digitCount den - 1) ≤ den := by exact_mod_cast denLeast
    rw [div_lt_iff₀ denominator]
    calc (num : ℚ) < 10 ^ digitCount num := numMost
      _ = 10 ^ (e + 1) * 10 ^ (digitCount den - 1) := by
          rw [← zpow_natCast, ← zpow_natCast, ← zpow_add₀ ten]
          congr 1
          omega
      _ ≤ 10 ^ (e + 1) * den := mul_le_mul_of_nonneg_left denLeast (zpow_pos (by norm_num) _).le
  have compare : (scaleByTen (-e) num den).2 ≤ (scaleByTen (-e) num den).1 ↔ (10 : ℚ) ^ e ≤ q := by
    have unit : (0 : ℚ) < (scaleByTen (-e) num den).2 := by
      exact_mod_cast scaleByTen_pos (-e) num bottom
    have ratio := div_scaleByTen (-e) num den
    rw [zpow_neg, ← div_eq_mul_inv] at ratio
    rw [← Nat.cast_le (α := ℚ), ← one_le_div unit, ratio, one_le_div (zpow_pos (by norm_num) _)]
  unfold leadingExponent
  dsimp only
  split
  · next reached => exact ((log_ten_eq_iff positive).mpr ⟨compare.mp reached, most⟩).symm
  · next short =>
      refine ((log_ten_eq_iff positive).mpr ⟨least.le, ?_⟩).symm
      rw [Int.sub_add_cancel]
      exact lt_of_not_ge fun reached => short (compare.mpr reached)

end Ratio

/-! ## Ten digits and an exponent -/

namespace Significant

/-- The number that the digits and the exponent stand for. -/
def value (s : Significant) : ℚ :=
  s.coefficient * lastPlace s.exponent

/-- The coefficient has ten digits, and the first of them is not zero. -/
structure Normal (s : Significant) : Prop where
  least : 10 ^ 9 ≤ s.coefficient
  most : s.coefficient < 10 ^ 10

section Normal

variable {s t : Significant}

theorem Normal.value_pos (normal : s.Normal) : 0 < s.value := by
  have positive : (0 : ℚ) < s.coefficient := by
    exact_mod_cast Nat.lt_of_lt_of_le (by decide) normal.least
  exact mul_pos positive (lastPlace_pos _)

theorem Normal.log_value (normal : s.Normal) : Int.log 10 s.value = s.exponent := by
  have unit := lastPlace_pos s.exponent
  have least : (10 : ℚ) ^ 9 ≤ s.coefficient := by exact_mod_cast normal.least
  have most : (s.coefficient : ℚ) < 10 ^ 10 := by exact_mod_cast normal.most
  rw [log_ten_eq_iff normal.value_pos, zpow_add_one₀ (by norm_num), ← mul_lastPlace]
  constructor
  · exact mul_le_mul_of_nonneg_right least unit.le
  · rw [mul_right_comm, ← pow_succ]
    exact mul_lt_mul_of_pos_right most unit

/-- There is only one way to write a number with ten digits. -/
theorem Normal.eq_of_value (normal : s.Normal) (other : t.Normal) (same : s.value = t.value) :
    s = t := by
  have exponent : s.exponent = t.exponent := by rw [← normal.log_value, ← other.log_value, same]
  unfold value at same
  rw [exponent] at same
  have coefficient := mul_right_cancel₀ (lastPlace_pos _).ne' same
  rcases s with ⟨c, e⟩
  rcases t with ⟨d, f⟩
  rw [Significant.mk.injEq]
  exact ⟨Nat.cast_injective coefficient, exponent⟩

end Normal

section Rounding

variable {num den : Nat} (top : 0 < num) (bottom : 0 < den)

include top bottom

theorem ofRatio_rounds :
    (ofRatio num den).Normal ∧ (ofRatio num den).value = toTenDigits ((num : ℚ) / den) := by
  let q : ℚ := (num : ℚ) / den
  let e := Int.log 10 q
  have positive : 0 < q := div_pos (by exact_mod_cast top) (by exact_mod_cast bottom)
  let scaled := scaleByTen (significantDigits - 1 - e) num den
  have ratio : (scaled.1 : ℚ) / scaled.2 = q / lastPlace e := by
    have flip : (significantDigits : ℤ) - 1 - e = -(e - 9) := by
      unfold significantDigits
      omega
    rw [div_scaleByTen, flip, zpow_neg, ← div_eq_mul_inv, lastPlace]
  have coefficient : (roundHalfEven scaled.1 scaled.2 : ℤ) = nearestEven (q / lastPlace e) := by
    rw [roundHalfEven_eq _ (scaleByTen_pos _ num bottom), ratio]
  have value : toTenDigits q = (roundHalfEven scaled.1 scaled.2 : ℚ) * lastPlace e := by
    rw [← Int.cast_natCast, coefficient]
    rfl
  obtain ⟨least, most⟩ := nearestEven_lastPlace positive
  rw [← coefficient] at least most
  unfold ofRatio
  dsimp only
  rw [leadingExponent_eq top bottom]
  split
  · next carry =>
      have most : Nat.pow 10 (significantDigits - 1) < 10 ^ 10 := by decide
      refine ⟨⟨Nat.le_refl _, most⟩, ?_⟩
      have carry : roundHalfEven scaled.1 scaled.2 = 10 ^ 10 := carry
      rw [value, carry, Significant.value, lastPlace_add_one]
      push_cast [significantDigits]
      ring
  · next fits =>
      have fits : roundHalfEven scaled.1 scaled.2 ≠ 10 ^ 10 := fits
      refine ⟨⟨by exact_mod_cast least, ?_⟩, value.symm⟩
      exact lt_of_le_of_ne (by exact_mod_cast most) fits

end Rounding

/-- Rounding a double in the form in which it is unpacked. -/
theorem ofBinary_rounds {mantissa : Nat} (positive : 0 < mantissa) (e : Int) :
    (ofBinary mantissa e).Normal ∧
      (ofBinary mantissa e).value = toTenDigits ((mantissa : ℚ) * 2 ^ e) := by
  unfold ofBinary
  split
  · next nonneg =>
      have top : 0 < mantissa * Nat.pow 2 e.toNat :=
        Nat.mul_pos positive (Nat.pow_pos (by decide))
      have rounds := ofRatio_rounds top Nat.one_pos
      rwa [Nat.cast_one, div_one, Nat.cast_mul, cast_pow_toNat 2 nonneg, Nat.cast_ofNat] at rounds
  · next negative =>
      have bottom : 0 < Nat.pow 2 (-e).toNat := Nat.pow_pos (by decide)
      have rounds := ofRatio_rounds positive bottom
      rwa [cast_pow_toNat 2 (by omega), Nat.cast_ofNat, zpow_neg, div_inv_eq_mul] at rounds

end Significant

end Worksheet
