import Worksheet.Proofs.Numeral.Exact

/-!
The double nearest to a number.

Doubles near a positive number are the multiples of a power of two, `binaryPlace`, and `toBinary` rounds to
one of these. No double is nearer (`abs_toBinary_sub_le`): those that are multiples of the unit are not, and
any other lies below a power of two that is a multiple of it and no larger than the number.
-/

namespace Worksheet

/-! ## Units -/

/-- The exponent of the power of two that separates doubles near a number. -/
def binaryPlace (q : ℚ) : ℤ :=
  max (Int.log 2 q - 52) (-1074)

/-- Rounds a positive number to a double, as if there were no largest one. -/
def toBinary (q : ℚ) : ℚ :=
  roundTo (2 ^ binaryPlace q) q

/-- Rounds a positive number to a double; what would be rounded above the largest one has none. -/
def binary? (q : ℚ) : Option ℚ :=
  if toBinary q < 2 ^ (1024 : ℤ) then some (toBinary q) else none

theorem zpow_two_pos (e : ℤ) : (0 : ℚ) < 2 ^ e := zpow_pos (by norm_num) e

theorem zpow_two_add (d e : ℤ) : (2 : ℚ) ^ (d + e) = 2 ^ d * 2 ^ e := zpow_add₀ (by norm_num) d e

theorem zpow_two_le_iff {d e : ℤ} : (2 : ℚ) ^ d ≤ 2 ^ e ↔ d ≤ e :=
  zpow_le_zpow_iff_right₀ (by norm_num)

theorem zpow_two_lt_iff {d e : ℤ} : (2 : ℚ) ^ d < 2 ^ e ↔ d < e :=
  zpow_lt_zpow_iff_right₀ (by norm_num)

theorem log_two_eq_iff {q : ℚ} (positive : 0 < q) {e : ℤ} :
    Int.log 2 q = e ↔ (2 : ℚ) ^ e ≤ q ∧ q < 2 ^ (e + 1) := by
  have base : 1 < 2 := by decide
  have iff := log_eq_iff base positive (e := e)
  rwa [Nat.cast_ofNat] at iff

theorem log_mul_zpow {w : ℚ} (positive : 0 < w) (e : ℤ) :
    Int.log 2 (w * 2 ^ e) = Int.log 2 w + e := by
  have unit := zpow_two_pos e
  obtain ⟨least, most⟩ := (log_two_eq_iff positive).mp rfl
  rw [log_two_eq_iff (mul_pos positive unit), zpow_two_add, add_right_comm, zpow_two_add]
  exact ⟨mul_le_mul_of_nonneg_right least unit.le, mul_lt_mul_of_pos_right most unit⟩

theorem log_of_whole {m : Nat} (positive : 0 < m) {w : ℚ} (least : m ≤ w) (most : w < m + 1) :
    Int.log 2 w = m.log2 := by
  have bits : 2 ^ m.log2 ≤ m ∧ m + 1 ≤ 2 ^ (m.log2 + 1) :=
    ⟨Nat.log2_self_le positive.ne', Nat.lt_log2_self⟩
  have lower : (2 : ℚ) ^ (m.log2 : ℤ) ≤ m := by exact_mod_cast bits.1
  have upper : (m : ℚ) + 1 ≤ 2 ^ (m.log2 + 1 : ℤ) := by exact_mod_cast bits.2
  have above : (0 : ℚ) < m := by exact_mod_cast positive
  rw [log_two_eq_iff (above.trans_le least)]
  exact ⟨lower.trans least, most.trans_le upper⟩

/-- With a smaller exponent the mantissa is larger. -/
theorem exists_mul_zpow (m : ℤ) {t e : ℤ} (le : t ≤ e) :
    ∃ z : ℤ, (m : ℚ) * 2 ^ e = z * 2 ^ t := by
  refine ⟨m * 2 ^ (e - t).toNat, ?_⟩
  have split : e = ((e - t).toNat : ℤ) + t := by omega
  conv_lhs => rw [split, zpow_two_add, zpow_natCast, ← mul_assoc]
  push_cast
  rfl

section Nearest

variable {q : ℚ} (positive : 0 < q)

include positive

theorem lt_mul_binaryPlace : q < 2 ^ (53 : ℤ) * 2 ^ binaryPlace q := by
  have most := ((log_two_eq_iff positive).mp rfl).2
  rw [← zpow_two_add]
  refine most.trans_le (zpow_two_le_iff.mpr ?_)
  unfold binaryPlace
  omega

theorem mul_binaryPlace_le (above : binaryPlace q ≠ -1074) :
    2 ^ (52 : ℤ) * 2 ^ binaryPlace q ≤ q := by
  have least := ((log_two_eq_iff positive).mp rfl).1
  have place : 52 + binaryPlace q = Int.log 2 q := by
    unfold binaryPlace at above ⊢
    omega
  rwa [← zpow_two_add, place]

/-- A double is a multiple of the unit, or it lies below a power of two that is nearer. -/
theorem multiple_or_farther {m : Nat} {e : Int} (form : Binary64 m e) :
    (∃ z : ℤ, (m : ℚ) * 2 ^ e = z * 2 ^ binaryPlace q) ∨ |toBinary q - q| < |m * 2 ^ e - q| := by
  rcases le_or_gt (binaryPlace q) e with multiple | smaller
  · exact .inl (exists_mul_zpow m multiple)
  · have above : binaryPlace q ≠ -1074 := by
      have least := form.least
      omega
    have reached := mul_binaryPlace_le positive above
    have power : ((2 ^ 52 : ℤ) : ℚ) = 2 ^ (52 : ℤ) := by norm_cast
    have below : (m : ℚ) * 2 ^ e < 2 ^ (52 : ℤ) * 2 ^ binaryPlace q := by
      have fits : (m : ℚ) < 2 ^ (53 : ℤ) := by exact_mod_cast form.fits
      calc (m : ℚ) * 2 ^ e < 2 ^ (53 : ℤ) * 2 ^ e := mul_lt_mul_of_pos_right fits (zpow_two_pos e)
        _ = 2 ^ (53 + e) := (zpow_two_add 53 e).symm
        _ ≤ 2 ^ (52 + binaryPlace q) := zpow_two_le_iff.mpr (by omega)
        _ = 2 ^ (52 : ℤ) * 2 ^ binaryPlace q := zpow_two_add 52 _
    have nearer := abs_roundTo_sub_le_abs (zpow_two_pos (binaryPlace q)) q (2 ^ 52)
    rw [power] at nearer
    refine .inr (nearer.trans_lt ?_)
    rw [abs_of_nonpos (sub_nonpos.mpr reached), abs_of_neg (sub_neg.mpr (below.trans_le reached))]
    exact neg_lt_neg (sub_lt_sub_right below q)

/-- No double is nearer. -/
theorem abs_toBinary_sub_le {m : Nat} {e : Int} (form : Binary64 m e) :
    |toBinary q - q| ≤ |m * 2 ^ e - q| := by
  rcases multiple_or_farther positive form with ⟨z, multiple⟩ | farther
  · rw [multiple]
    exact abs_roundTo_sub_le_abs (zpow_two_pos (binaryPlace q)) q z
  · exact farther.le

omit positive in
/-- Of two multiples of the unit that are as near, the number is rounded to the even one. -/
theorem even_of_tie {z : ℤ} (other : (z : ℚ) * 2 ^ binaryPlace q ≠ toBinary q)
    (tie : |z * 2 ^ binaryPlace q - q| = |toBinary q - q|) :
    Even (nearestEven (q / 2 ^ binaryPlace q)) := by
  let w := nearestEven (q / 2 ^ binaryPlace q)
  have unit := zpow_two_pos (binaryPlace q)
  have half := abs_roundTo_sub_le unit q
  refine even_of_abs_roundTo_sub unit (le_antisymm half ?_)
  change _ ≤ |toBinary q - q|
  have apart : 1 ≤ |(z : ℚ) - w| := by
    have different : z ≠ w := fun same => other (congrArg (fun x : ℤ => (x : ℚ) * 2 ^ binaryPlace q) same)
    exact_mod_cast Int.one_le_abs (sub_ne_zero.mpr different)
  have step : 2 ^ binaryPlace q ≤ |(z : ℚ) * 2 ^ binaryPlace q - toBinary q| := by
    have split : (z : ℚ) * 2 ^ binaryPlace q - toBinary q = ((z : ℚ) - w) * 2 ^ binaryPlace q :=
      (sub_mul _ _ _).symm
    rw [split, abs_mul, abs_of_pos unit]
    exact le_mul_of_one_le_left unit.le apart
  have both := abs_sub_le ((z : ℚ) * 2 ^ binaryPlace q) q (toBinary q)
  rw [tie, abs_sub_comm q] at both
  linarith

/-- The mantissa that a number is rounded to takes 53 bits, or it is the next power of two. -/
theorem nearestEven_binaryPlace :
    nearestEven (q / 2 ^ binaryPlace q) ≤ 2 ^ 53 ∧
      (2 ^ 52 ≤ nearestEven (q / 2 ^ binaryPlace q) ∨ binaryPlace q = -1074) := by
  have unit := zpow_two_pos (binaryPlace q)
  constructor
  · refine nearestEven_le ?_
    have most := lt_mul_binaryPlace positive
    rw [div_le_iff₀ unit]
    exact_mod_cast most.le
  · rw [or_iff_not_imp_right]
    intro above
    refine le_nearestEven ?_
    have least := mul_binaryPlace_le positive above
    rw [le_div_iff₀ unit]
    exact_mod_cast least

omit positive in
/-- A double is rounded to itself. -/
theorem toBinary_eq_self {m : Nat} {e : Int} (form : Binary64 m e) :
    toBinary (m * 2 ^ e) = m * 2 ^ e := by
  have near := abs_toBinary_sub_le form.value_pos form
  rw [sub_self, abs_zero] at near
  exact sub_eq_zero.mp (abs_nonpos_iff.mp near)

/-- What is not above a double is not rounded above it. -/
theorem toBinary_le {m : Nat} {e : Int} (form : Binary64 m e) (le : q ≤ m * 2 ^ e) :
    toBinary q ≤ m * 2 ^ e := by
  have near := abs_toBinary_sub_le positive form
  rw [abs_of_nonneg (sub_nonneg.mpr le)] at near
  linarith [le_abs_self (toBinary q - q)]

end Nearest

theorem zpow_log_le_toBinary {q : ℚ} (positive : 0 < q) (normal : -1022 < Int.log 2 q) :
    2 ^ Int.log 2 q ≤ toBinary q := by
  have above : binaryPlace q ≠ -1074 := by
    unfold binaryPlace
    omega
  have place : 52 + binaryPlace q = Int.log 2 q := by
    unfold binaryPlace
    omega
  have least := (nearestEven_binaryPlace positive).2.resolve_right above
  have least : (2 : ℚ) ^ (52 : ℤ) ≤ nearestEven (q / 2 ^ binaryPlace q) := by exact_mod_cast least
  rw [← place, zpow_two_add]
  exact mul_le_mul_of_nonneg_right least (zpow_two_pos _).le

/-- Less than half of the least double is rounded to zero. -/
theorem toBinary_eq_zero {q : ℚ} (positive : 0 < q) (small : q < 2 ^ (-1075 : ℤ)) : toBinary q = 0 := by
  have log : Int.log 2 q < -1075 := by
    rw [← Int.lt_zpow_iff_log_lt (by decide) positive]
    exact_mod_cast small
  have place : binaryPlace q = -1074 := by
    unfold binaryPlace
    omega
  have half : (2 : ℚ) ^ (-1075 : ℤ) = 2 ^ (-1074 : ℤ) / 2 := by
    rw [div_eq_mul_inv, ← zpow_sub_one₀ (by norm_num : (2 : ℚ) ≠ 0)]
    norm_num
  have distance : |((0 : ℤ) : ℚ) * 2 ^ (-1074 : ℤ) - q| < 2 ^ (-1074 : ℤ) / 2 := by
    rw [Int.cast_zero, zero_mul, zero_sub, abs_neg, abs_of_pos positive, ← half]
    exact small
  have nearest := roundTo_eq (zpow_two_pos (-1074)) distance.le fun tie => absurd tie distance.ne
  rw [toBinary, place, nearest, Int.cast_zero, zero_mul]

/-! ## Doubles are their own neighbours -/

/-- A double is a multiple of the unit it would be rounded to, with its own mantissa. -/
theorem Binary64.binaryPlace_eq {m : Nat} {e : Int} (form : Binary64 m e) :
    binaryPlace (m * 2 ^ e) = e := by
  have above : (0 : ℚ) < m := by exact_mod_cast form.positive
  have most : m.log2 < 53 := (Nat.log2_lt form.positive.ne').mpr form.fits
  have least := form.least
  unfold binaryPlace
  rw [log_mul_zpow above, log_of_whole form.positive le_rfl (lt_add_one _)]
  rcases form.tight with reached | bottom
  · have bits : 52 ≤ m.log2 := (Nat.le_log2 form.positive.ne').mpr reached
    omega
  · omega

/-- No two mantissas and exponents stand for one number. -/
theorem Binary64.eq_of_value {m n : Nat} {d e : Int} (left : Binary64 m d) (right : Binary64 n e)
    (same : (m : ℚ) * 2 ^ d = n * 2 ^ e) : m = n ∧ d = e := by
  have exponent : d = e := by rw [← left.binaryPlace_eq, same, right.binaryPlace_eq]
  subst exponent
  exact ⟨by exact_mod_cast mul_right_cancel₀ (zpow_two_pos d).ne' same, rfl⟩

theorem Binary64.value_lt {m : Nat} {e : Int} (form : Binary64 m e) :
    (m : ℚ) * 2 ^ e < 2 ^ (1024 : ℤ) := by
  have fits : (m : ℚ) < 2 ^ (53 : ℤ) := by exact_mod_cast form.fits
  have most := form.most
  calc (m : ℚ) * 2 ^ e < 2 ^ (53 : ℤ) * 2 ^ e := mul_lt_mul_of_pos_right fits (zpow_two_pos e)
    _ = 2 ^ (53 + e) := (zpow_two_add 53 e).symm
    _ ≤ 2 ^ (1024 : ℤ) := zpow_two_le_iff.mpr (by omega)

/-! ## The largest double -/

theorem binary64_largest : Binary64 (2 ^ 53 - 1) 971 :=
  ⟨by decide, by decide, by decide, by decide, .inl (by decide)⟩

/-- Half way from the largest double to the next power of two. -/
def overflowBound : ℚ := 2 ^ (1024 : ℤ) - 2 ^ (970 : ℤ)

theorem zpow_two_1024 : (2 : ℚ) ^ (1024 : ℤ) = (2 ^ 53 : ℤ) * 2 ^ (971 : ℤ) := by
  have exponent : (1024 : ℤ) = 53 + 971 := rfl
  have power : ((2 ^ 53 : ℤ) : ℚ) = 2 ^ (53 : ℤ) := by norm_cast
  rw [exponent, zpow_two_add, power]

theorem overflowBound_eq : overflowBound = (((2 ^ 53 : ℤ) : ℚ) - 1 / 2) * 2 ^ (971 : ℤ) := by
  have half : (2 : ℚ) ^ (970 : ℤ) = 1 / 2 * 2 ^ (971 : ℤ) := by
    have exponent : (971 : ℤ) = 970 + 1 := rfl
    rw [exponent, zpow_add_one₀ (by norm_num)]
    ring
  rw [overflowBound, zpow_two_1024, half, ← sub_mul]

/-- Half way, a number is rounded up to the power of two, which is even. -/
theorem toBinary_lt_iff {q : ℚ} (positive : 0 < q) :
    toBinary q < 2 ^ (1024 : ℤ) ↔ q < overflowBound := by
  have unit := zpow_two_pos 971
  rcases le_or_gt (2 ^ (1024 : ℤ)) q with large | below
  · have log : 1024 ≤ Int.log 2 q := by
      rw [← Int.zpow_le_iff_le_log (by decide) positive]
      exact_mod_cast large
    have rounded := (zpow_two_le_iff.mpr log).trans (zpow_log_le_toBinary positive (by omega))
    have beyond : overflowBound ≤ q := (sub_le_self _ (zpow_two_pos 970).le).trans large
    exact iff_of_false rounded.not_gt beyond.not_gt
  rcases le_or_gt q ((2 ^ 53 - 1 : ℕ) * 2 ^ (971 : ℤ)) with small | last
  · have rounded := (toBinary_le positive binary64_largest small).trans_lt binary64_largest.value_lt
    have short : ((2 ^ 53 - 1 : ℕ) : ℚ) < (2 ^ 53 : ℤ) - 1 / 2 := by norm_num
    have next := mul_lt_mul_of_pos_right short unit
    rw [← overflowBound_eq] at next
    exact iff_of_true rounded (small.trans_lt next)
  · have log : Int.log 2 q = 1023 := by
      have power : (2 : ℚ) ^ (1023 : ℤ) = 2 ^ (52 : ℤ) * 2 ^ (971 : ℤ) := zpow_two_add 52 971
      have fits : (2 : ℚ) ^ (52 : ℤ) ≤ (2 ^ 53 - 1 : ℕ) := by norm_num
      have least := (mul_le_mul_of_nonneg_right fits unit.le).trans last.le
      exact (log_two_eq_iff positive).mpr ⟨power.trans_le least, below⟩
    have place : binaryPlace q = 971 := by
      rw [binaryPlace, log]
      rfl
    rw [toBinary, roundTo, place, zpow_two_1024, overflowBound_eq, mul_lt_mul_iff_left₀ unit, Int.cast_lt,
      nearestEven_lt_iff (by decide), div_lt_iff₀ unit]

end Worksheet
