import Worksheet.Proofs.Numeral.Displayed
import Worksheet.Proofs.Numeral.Mantissa

/-!
The value of a numeral is the double nearest to what it denotes.

A coefficient and a power of ten that are doubles themselves are multiplied or divided, and others go
through mantissas of any length; either way the exact result is rounded once (`packed?_mul`, `packed?_div`),
so that `Numeral.rational?_value` need not tell which way was taken.
-/

namespace Worksheet

open Float.Model (UnpackedFloat totalExponent)
open Float.Model.UnpackedFloat
open Float.Model.Format (binary64)

/-! ## Products and quotients -/

theorem cast_shiftLeft (m k : Nat) : ((m <<< k : ℕ) : ℚ) = m * 2 ^ (k : ℤ) := by
  rw [Nat.shiftLeft_eq, Nat.cast_mul, Nat.cast_pow, Nat.cast_ofNat, zpow_natCast]

section Unpacked

variable {m n : Nat} {d e : Int} (left : 0 < m) (right : 0 < n)

/-- A product is rounded once. -/
theorem packed?_mul (enough : 2 ^ 52 ≤ m * n ∨ d + e ≤ -1074) :
    packed? (UnpackedFloat.mul binary64 (.finite .positive m d left) (.finite .positive n e right)) =
      binary? ((m * 2 ^ d) * (n * 2 ^ e)) := by
  have product : ((m : ℚ) * 2 ^ d) * (n * 2 ^ e) = (m * n : ℕ) * 2 ^ (d + e) := by
    rw [zpow_two_add, Nat.cast_mul]
    ring
  have positive : 0 < m * n := Nat.mul_pos left right
  have above : (0 : ℚ) < (m * n : ℕ) := by exact_mod_cast positive
  rw [product]
  refine packed?_roundWithAccuracy above (mantissaOf_exact (m * n)) ?_
  unfold binaryPlace
  rw [log_mul_zpow above, log_of_whole positive le_rfl (lt_add_one _)]
  rcases enough with reached | bottom
  · have bits : 52 ≤ (m * n).log2 := (Nat.le_log2 positive.ne').mpr reached
    omega
  · omega

include left right in
/-- A quotient has lost one bit at most. -/
theorem le_log_div (d e : ℤ) :
    (m.log2 : ℤ) + d - (n.log2 + e) - 1 ≤ Int.log 2 (((m : ℚ) * 2 ^ d) / (n * 2 ^ e)) := by
  have top : (0 : ℚ) < m := by exact_mod_cast left
  have bottom : (0 : ℚ) < n := by exact_mod_cast right
  have least : (2 : ℚ) ^ (m.log2 : ℤ) ≤ m := by exact_mod_cast Nat.log2_self_le left.ne'
  have most : (n : ℚ) ≤ 2 ^ ((n.log2 : ℤ) + 1) := by exact_mod_cast (Nat.lt_log2_self (n := n)).le
  have denominator : 0 < (n : ℚ) * 2 ^ e := mul_pos bottom (zpow_two_pos e)
  have quotient : 0 < ((m : ℚ) * 2 ^ d) / (n * 2 ^ e) :=
    div_pos (mul_pos top (zpow_two_pos d)) denominator
  have base : 1 < 2 := by decide
  rw [← Int.zpow_le_iff_le_log base quotient, le_div_iff₀ denominator, Nat.cast_ofNat]
  calc (2 : ℚ) ^ ((m.log2 : ℤ) + d - (n.log2 + e) - 1) * (n * 2 ^ e)
      ≤ 2 ^ ((m.log2 : ℤ) + d - (n.log2 + e) - 1) * (2 ^ ((n.log2 : ℤ) + 1) * 2 ^ e) :=
        mul_le_mul_of_nonneg_left (mul_le_mul_of_nonneg_right most (zpow_two_pos e).le)
          (zpow_two_pos _).le
    _ = 2 ^ (m.log2 : ℤ) * 2 ^ d := by
        rw [← zpow_two_add, ← zpow_two_add, ← zpow_two_add]
        congr 1
        omega
    _ ≤ m * 2 ^ d := mul_le_mul_of_nonneg_right least (zpow_two_pos d).le

/-- A quotient is rounded once. It is divided far enough. -/
theorem packed?_div :
    packed? (UnpackedFloat.div binary64 (.finite .positive m d left) (.finite .positive n e right)) =
      binary? ((m * 2 ^ d) / (n * 2 ^ e)) := by
  let t := min (d - e) (binary64.targetExponent (totalExponent m d - totalExponent n e))
  let k := (d - e - t).toNat
  let w : ℚ := (m <<< k : ℕ) / (n : ℚ)
  have top : (0 : ℚ) < m := by exact_mod_cast left
  have bottom : (0 : ℚ) < n := by exact_mod_cast right
  have shifted : ((m <<< k : ℕ) : ℚ) = m * 2 ^ (d - e - t) := by
    have nonneg : 0 ≤ d - e - t := by omega
    rw [cast_shiftLeft, Int.toNat_of_nonneg nonneg]
  have positive : 0 < w := by
    refine div_pos ?_ bottom
    rw [shifted]
    exact mul_pos top (zpow_two_pos _)
  have quotient : ((m : ℚ) * 2 ^ d) / (n * 2 ^ e) = w * 2 ^ t := by
    have exponent : d - e = d - e - t + t := by omega
    rw [mul_div_mul_comm, ← zpow_sub₀ (by norm_num), exponent, zpow_two_add, ← mul_assoc,
      div_mul_eq_mul_div, ← shifted]
  have enough : t ≤ binaryPlace (w * 2 ^ t) := by
    have target : t ≤ max ((m.log2 : ℤ) + 1 + d - (n.log2 + 1 + e) - 53) (-1074) := min_le_right _ _
    have least := le_log_div left right d e
    rw [quotient] at least
    unfold binaryPlace
    omega
  rw [quotient]
  exact packed?_roundWithAccuracy positive (mantissaOf_div (m <<< k) right) enough

end Unpacked

section Doubles

variable {x y : Float} {p q : ℚ}

theorem unpacked_of_positive (exact : rational? x = some q) (positive : 0 < q) :
    ∃ m e, ∃ form : Binary64 m e, q = m * 2 ^ e ∧
      UnpackedFloat.unpack binary64 x.toBits.toBitVec = .finite .positive m e form.positive := by
  rcases unpacked_of_exact exact with ⟨rfl, -⟩ | ⟨sign, m, e, form, value, unpacked⟩
  · exact absurd positive (lt_irrefl 0)
  · cases sign with
    | positive => exact ⟨m, e, form, value, unpacked⟩
    | negative =>
        have below : q < 0 := value ▸ neg_neg_of_pos form.value_pos
        exact absurd positive below.not_gt

theorem rational?_mul (left : rational? x = some p) (right : rational? y = some q) (above : 0 < p)
    (positive : 0 < q) : rational? (x * y) = binary? (p * q) := by
  obtain ⟨m, d, formLeft, rfl, unpackedLeft⟩ := unpacked_of_positive left above
  obtain ⟨n, e, formRight, rfl, unpackedRight⟩ := unpacked_of_positive right positive
  change packed? (UnpackedFloat.mul binary64 (UnpackedFloat.unpack binary64 x.toBits.toBitVec)
    (UnpackedFloat.unpack binary64 y.toBits.toBitVec)) = _
  rw [unpackedLeft, unpackedRight]
  refine packed?_mul formLeft.positive formRight.positive ?_
  rcases formLeft.tight with reached | bottom
  · exact .inl (reached.trans (Nat.le_mul_of_pos_right m formRight.positive))
  rcases formRight.tight with reached | least
  · exact .inl (reached.trans (Nat.le_mul_of_pos_left n formLeft.positive))
  · exact .inr (by omega)

theorem rational?_div (left : rational? x = some p) (right : rational? y = some q) (above : 0 < p)
    (positive : 0 < q) : rational? (x / y) = binary? (p / q) := by
  obtain ⟨m, d, formLeft, rfl, unpackedLeft⟩ := unpacked_of_positive left above
  obtain ⟨n, e, formRight, rfl, unpackedRight⟩ := unpacked_of_positive right positive
  change packed? (UnpackedFloat.div binary64 (UnpackedFloat.unpack binary64 x.toBits.toBitVec)
    (UnpackedFloat.unpack binary64 y.toBits.toBitVec)) = _
  rw [unpackedLeft, unpackedRight]
  exact packed?_div formLeft.positive formRight.positive

end Doubles

/-! ## Small whole numbers and powers of ten -/

section Whole

variable {c : Nat} (positive : 0 < c) (fits : c < 2 ^ 53)

include positive fits

theorem binary64_shiftLeft : Binary64 (c <<< (52 - c.log2)) (0 - (52 - c.log2 : ℕ)) := by
  have bits : c.log2 < 53 := (Nat.log2_lt positive.ne').mpr fits
  have least : 2 ^ 52 ≤ c <<< (52 - c.log2) := by
    rw [Nat.shiftLeft_eq]
    calc 2 ^ 52 = 2 ^ c.log2 * 2 ^ (52 - c.log2) := by
          rw [← pow_add, Nat.add_sub_of_le (by omega)]
      _ ≤ c * 2 ^ (52 - c.log2) := Nat.mul_le_mul_right _ (Nat.log2_self_le positive.ne')
  have most : c <<< (52 - c.log2) < 2 ^ 53 := by
    rw [Nat.shiftLeft_eq]
    calc c * 2 ^ (52 - c.log2) < 2 ^ (c.log2 + 1) * 2 ^ (52 - c.log2) :=
          Nat.mul_lt_mul_of_pos_right Nat.lt_log2_self (Nat.pow_pos (by decide))
      _ = 2 ^ 53 := by
          rw [← pow_add]
          congr 1
          omega
  exact ⟨by omega, most, by omega, by omega, .inl least⟩

/-- A whole number of at most 53 bits is a double. -/
theorem rational?_toFloat : rational? c.toUInt64.toFloat = some (c : ℚ) := by
  have bits : c.log2 < 53 := (Nat.log2_lt positive.ne').mpr fits
  have shift : (0 - binary64.targetExponent (totalExponent c 0)).toNat = 52 - c.log2 := by
    rw [targetExponent_binary64]
    omega
  have same : c.toUInt64.toNat = c := Nat.mod_eq_of_lt (fits.trans (by decide))
  have order : compare (c : ℤ) 0 = .gt := Int.compare_eq_gt.mpr (by exact_mod_cast positive)
  change packed? (UnpackedFloat.normalize binary64 (c.toUInt64.toNat : ℤ) 0 .positive) = _
  rw [same, UnpackedFloat.normalize, order]
  change packed? (UnpackedFloat.round binary64 .positive c 0) = _
  unfold UnpackedFloat.round decreaseExponent
  dsimp only
  rw [shift, packed?_of_form (binary64_shiftLeft positive fits), cast_shiftLeft, mul_assoc,
    ← zpow_two_add, add_sub_cancel, zpow_zero, mul_one]

end Whole

/-- Whether a double is a power of ten. -/
def isPowerOfTen (x : Float) (k : Nat) : Bool :=
  match UnpackedFloat.unpack binary64 x.toBits.toBitVec with
  | .finite .positive m e _ => m * 2 ^ e.toNat == 10 ^ k * 2 ^ (-e).toNat
  | _ => false

theorem isPowerOfTen_table : ∀ k : Fin Float.exactlyRepresentablePowersOfTen.size,
    isPowerOfTen Float.exactlyRepresentablePowersOfTen[k] k = true := by
  decide +kernel

theorem rational?_of_isPowerOfTen {x : Float} {k : Nat} (power : isPowerOfTen x k = true) :
    rational? x = some (10 ^ k) := by
  unfold isPowerOfTen at power
  split at power
  · next m e positive unpacked =>
      rw [rational?_of_unpack unpacked, signed]
      congr 1
      have same : (m : ℚ) * 2 ^ e.toNat = 10 ^ k * 2 ^ (-e).toNat := by
        exact_mod_cast beq_iff_eq.mp power
      have split : e = e.toNat - (-e).toNat := by omega
      rw [split, zpow_sub₀ (by norm_num), ← mul_div_assoc, zpow_natCast, zpow_natCast, same]
      exact mul_div_cancel_right₀ _ (pow_ne_zero _ (by norm_num))
  · cases power

/-! ## Numerals -/

section Scientific

variable {c : Nat} (positive : 0 < c) {s : Int}

include positive

/-- The guard against powers that are too large does no harm. -/
theorem binary?_of_scale_gt (large : 2 ^ 11 < s) : binary? (c * 10 ^ s) = none := by
  have least : (1 : ℚ) ≤ c := by exact_mod_cast positive
  have ten : (0 : ℚ) < 10 ^ s := zpow_pos (by norm_num) s
  have above : (0 : ℚ) < c * 10 ^ s := mul_pos (one_pos.trans_le least) ten
  have reached : (2 : ℚ) ^ (1024 : ℤ) ≤ c * 10 ^ s :=
    calc (2 : ℚ) ^ (1024 : ℤ) ≤ 2 ^ s := zpow_two_le_iff.mpr (by omega)
      _ ≤ 10 ^ s := zpow_le_zpow_left₀ (by omega) (by norm_num) (by norm_num)
      _ ≤ c * 10 ^ s := le_mul_of_one_le_left ten.le least
  have log : 1024 ≤ Int.log 2 ((c : ℚ) * 10 ^ s) := by
    rw [← Int.zpow_le_iff_le_log (by decide) above]
    exact_mod_cast reached
  have rounded := zpow_log_le_toBinary above (by omega)
  exact if_neg ((zpow_two_le_iff.mpr log).trans rounded).not_gt

/-- Nor does the one against powers that are too small. -/
theorem binary?_of_scale_lt (least : s < -(2 ^ 11 + (c.log2 : ℤ))) : binary? (c * 10 ^ s) = some 0 := by
  have above : (0 : ℚ) < c := by exact_mod_cast positive
  have ten : (0 : ℚ) < 10 ^ s := zpow_pos (by norm_num) s
  have bits : (c : ℚ) < 2 ^ ((c.log2 : ℤ) + 1) := by exact_mod_cast Nat.lt_log2_self (n := c)
  have power : (10 : ℚ) ^ s ≤ 2 ^ s := by
    have flipped : (2 : ℚ) ^ (-s) ≤ 10 ^ (-s) :=
      zpow_le_zpow_left₀ (by omega) (by norm_num) (by norm_num)
    rw [zpow_neg, zpow_neg] at flipped
    exact (inv_le_inv₀ (zpow_two_pos s) ten).mp flipped
  have small : (c : ℚ) * 10 ^ s < 2 ^ (-1075 : ℤ) :=
    calc (c : ℚ) * 10 ^ s ≤ 2 ^ ((c.log2 : ℤ) + 1) * 2 ^ s :=
          mul_le_mul bits.le power ten.le (zpow_two_pos _).le
      _ = 2 ^ ((c.log2 : ℤ) + 1 + s) := (zpow_two_add _ _).symm
      _ < 2 ^ (-1075 : ℤ) := zpow_two_lt_iff.mpr (by omega)
  rw [binary?, toBinary_eq_zero (mul_pos above ten) small, if_pos (zpow_two_pos 1024)]

theorem packed?_ofScientific :
    packed? (UnpackedFloat.ofScientific binary64 c s) = binary? (c * 10 ^ s) := by
  delta UnpackedFloat.ofScientific
  rw [dif_neg positive.ne']
  by_cases most : s > 2 ^ binary64.exponentBits
  · rw [if_pos most, binary?_of_scale_gt positive most, packed?, unpack_pack_infinity]
    rfl
  rw [if_neg most]
  by_cases least : s < -(2 ^ binary64.exponentBits + (c.log2 : ℤ))
  · rw [if_pos least, packed?_zero, binary?_of_scale_lt positive least]
  rw [if_neg least]
  by_cases nonneg : 0 ≤ s
  · rw [if_pos nonneg]
    have product : (((c <<< 53 : ℕ) : ℚ) * 2 ^ (-53 : ℤ)) * ((10 ^ s.toNat : ℕ) * 2 ^ (0 : ℤ)) =
        c * 10 ^ s := by
      have power := cast_pow_toNat 10 nonneg
      rw [Nat.pow_eq, Nat.cast_ofNat] at power
      rw [power, cast_shiftLeft, zpow_zero, mul_one, mul_assoc (c : ℚ), ← zpow_two_add]
      norm_num
    rw [← product]
    refine packed?_mul _ _ (.inl ?_)
    calc 2 ^ 52 ≤ 1 * 2 ^ 53 * 1 := by decide
      _ ≤ c * 2 ^ 53 * 10 ^ s.toNat :=
        Nat.mul_le_mul (Nat.mul_le_mul_right _ positive) (Nat.pow_pos (by decide))
      _ = c <<< 53 * 10 ^ s.toNat := by rw [Nat.shiftLeft_eq]
  · rw [if_neg nonneg]
    have quotient : ((c : ℚ) * 2 ^ (0 : ℤ)) / ((10 ^ (-s).toNat : ℕ) * 2 ^ (0 : ℤ)) =
        c * 10 ^ s := by
      have power := cast_pow_toNat 10 (k := -s) (by omega)
      rw [Nat.pow_eq, Nat.cast_ofNat] at power
      rw [power, zpow_zero, mul_one, mul_one, zpow_neg, div_inv_eq_mul]
    rw [← quotient]
    exact packed?_div _ _

/-- The double nearest to a coefficient times a power of ten, by either way of getting at it. -/
theorem rational?_ofScientific :
    rational? (Float.ofScientific c (s < 0) s.natAbs) = binary? (c * 10 ^ s) := by
  have above : (0 : ℚ) < c := by exact_mod_cast positive
  have ten : (0 : ℚ) < 10 ^ s.natAbs := pow_pos (by norm_num) _
  unfold Float.ofScientific
  split
  · next fits =>
      have whole := rational?_toFloat positive fits.1
      have power := rational?_of_isPowerOfTen (isPowerOfTen_table ⟨s.natAbs, Nat.lt_succ_of_le fits.2⟩)
      dsimp only
      split
      · next negative =>
          have quotient : (c : ℚ) / 10 ^ s.natAbs = c * 10 ^ s := by
            have negative := of_decide_eq_true negative
            have exponent : s = -(s.natAbs : ℤ) := by omega
            conv_rhs => rw [exponent, zpow_neg, zpow_natCast, ← div_eq_mul_inv]
          rw [← quotient]
          exact rational?_div whole power above ten
      · next nonneg =>
          have product : (c : ℚ) * 10 ^ s.natAbs = c * 10 ^ s := by
            have nonneg := of_decide_eq_false (Bool.eq_false_of_not_eq_true nonneg)
            have exponent : s = (s.natAbs : ℤ) := by omega
            conv_rhs => rw [exponent, zpow_natCast]
          rw [← product]
          exact rational?_mul whole power above ten
  · have same : (if decide (s < 0) = true then Int.negOfNat s.natAbs else Int.ofNat s.natAbs) = s := by
      split
      · next negative =>
          have negative := of_decide_eq_true negative
          rw [Int.negOfNat_eq]
          change -(s.natAbs : ℤ) = s
          omega
      · next nonneg =>
          have nonneg := of_decide_eq_false (Bool.eq_false_of_not_eq_true nonneg)
          change (s.natAbs : ℤ) = s
          omega
    dsimp only
    rw [same]
    exact packed?_ofScientific positive

end Scientific

/-- A numeral's value is the double nearest to what it denotes. -/
theorem Numeral.rational?_value {n : Numeral} (positive : 0 < n.coefficient) :
    rational? n.value = binary? n.denoted :=
  rational?_ofScientific positive

end Worksheet
