import Worksheet.Proofs.Numeral.Nearest

/-!
Rounding a mantissa that is shifted to its place.

A mantissa with a round bit and a sticky bit stands for any number that has the mantissa as its whole part
and whose fraction is of the kind that the bits tell: zero, less than a half, a half, or more
(`MantissaOf`). Shifting right halves the number and keeps this, so that rounding after all shifts rounds the
number itself. What results is packed into the double that is nearest to it (`packed?_roundWithAccuracy`).
-/

namespace Worksheet

open Float.Model (UnpackedFloat totalExponent)
open Float.Model.UnpackedFloat
open Float.Model.Format (binary64)

/-! ## What is left of a number -/

/-- A round bit and a sticky bit tell of a fraction whether it has reached a half, and whether it is anything
else than zero or a half. -/
structure Residue (round sticky : Bool) (f : ℚ) : Prop where
  nonneg : 0 ≤ f
  lt_one : f < 1
  round_iff : round = true ↔ 1 / 2 ≤ f
  sticky_iff : sticky = true ↔ f ≠ 0 ∧ f ≠ 1 / 2

namespace Residue

variable {round sticky : Bool} {f : ℚ}

theorem exact : Residue false false 0 := by
  refine ⟨le_rfl, one_pos, iff_of_false Bool.false_ne_true ?_, iff_of_false Bool.false_ne_true ?_⟩
  · norm_num
  · exact fun more => more.1 rfl

theorem any_iff (residue : Residue round sticky f) : (round || sticky) = true ↔ f ≠ 0 := by
  rw [Bool.or_eq_true, residue.round_iff, residue.sticky_iff]
  constructor
  · rintro (half | ⟨more, -⟩)
    · linarith
    · exact more
  · intro more
    by_cases half : f = 1 / 2
    · exact .inl half.ge
    · exact .inr ⟨more, half⟩

/-- One more bit in front. -/
theorem shift (residue : Residue round sticky f) (bit : Bool) :
    Residue bit (round || sticky) ((f + if bit then 1 else 0) / 2) := by
  have nonneg := residue.nonneg
  have below := residue.lt_one
  have some := residue.any_iff
  cases bit with
  | false =>
      rw [if_neg Bool.false_ne_true, add_zero]
      refine ⟨by linarith, by linarith, iff_of_false Bool.false_ne_true (by linarith), ?_⟩
      rw [some]
      constructor
      · intro more
        refine ⟨fun zero => more (by linarith), ?_⟩
        linarith
      · exact fun more zero => more.1 (by linarith)
  | true =>
      rw [if_pos rfl]
      refine ⟨by linarith, by linarith, iff_of_true rfl (by linarith), ?_⟩
      rw [some]
      constructor
      · intro more
        refine ⟨?_, fun half => more (by linarith)⟩
        linarith
      · exact fun more zero => more.2 (by linarith)

end Residue

/-! ## Mantissas with two more bits -/

/-- The mantissa is the whole part of the number, and the bits tell about the rest. -/
def MantissaOf (em : ExtendedMantissa) (w : ℚ) : Prop :=
  Residue em.roundBit em.stickyBit (w - em.mantissa)

theorem MantissaOf.roundedMantissa {em : ExtendedMantissa} {w : ℚ} (whole : MantissaOf em w) :
    (em.roundedMantissa : ℤ) = nearestEven w := by
  obtain ⟨nonneg, below, round, sticky⟩ := whole
  refine (nearestEven_eq_iff.mpr ?_).symm
  rcases em with ⟨m, _ | _, _ | _⟩
  · have exact : w - m = 0 := by
      by_contra more
      refine absurd (sticky.mpr ⟨more, fun half => ?_⟩) Bool.false_ne_true
      exact absurd (round.mpr half.ge) Bool.false_ne_true
    change IsNearestEven w (m : ℤ)
    have distance : |((m : ℤ) : ℚ) - w| = 0 := by
      rw [Int.cast_natCast, abs_sub_comm, exact, abs_zero]
    constructor
    · rw [distance]
      norm_num
    · rw [distance]
      norm_num
  · have less : w - m < 1 / 2 := lt_of_not_ge fun half => absurd (round.mpr half) Bool.false_ne_true
    have distance : |((m : ℤ) : ℚ) - w| = w - m := by
      rw [Int.cast_natCast, abs_sub_comm]
      exact abs_of_nonneg nonneg
    change IsNearestEven w (m : ℤ)
    exact ⟨distance ▸ less.le, fun half => absurd (distance ▸ half) less.ne⟩
  · have half : w - m = 1 / 2 := by
      by_contra more
      refine absurd (sticky.mpr ⟨fun zero => ?_, more⟩) Bool.false_ne_true
      have reached := round.mp rfl
      rw [zero] at reached
      norm_num at reached
    change IsNearestEven w ((m + m % 2 : ℕ) : ℤ)
    rcases Nat.mod_two_eq_zero_or_one m with even | odd
    · rw [even]
      constructor
      · rw [Nat.add_zero, Int.cast_natCast, abs_sub_comm, half]
        norm_num
      · intro _
        exact_mod_cast Nat.even_iff.mpr even
    · rw [odd]
      constructor
      · push_cast
        rw [abs_of_nonneg (by linarith)]
        linarith
      · intro _
        exact_mod_cast (Nat.odd_iff.mpr odd).add_one
  · have more : 1 / 2 < w - m := lt_of_le_of_ne (round.mp rfl) (Ne.symm (sticky.mp rfl).2)
    have distance : |(((m + 1 : ℕ) : ℤ) : ℚ) - w| = m + 1 - w := by
      push_cast
      exact abs_of_pos (by linarith)
    change IsNearestEven w ((m + 1 : ℕ) : ℤ)
    refine ⟨by linarith, fun half => ?_⟩
    rw [distance] at half
    linarith

/-- Shifting halves the number. The bit that is shifted out comes in front of the rest. -/
theorem MantissaOf.shiftRightOne {em : ExtendedMantissa} {w : ℚ} (whole : MantissaOf em w) :
    MantissaOf em.shiftRightOne (w / 2) := by
  have shifted := whole.shift (em.mantissa % 2 != 0)
  have rest : (w - em.mantissa + if em.mantissa % 2 != 0 then 1 else 0) / 2 =
      w / 2 - (em.mantissa / 2 : ℕ) := by
    have split : (em.mantissa : ℚ) = 2 * (em.mantissa / 2 : ℕ) + (em.mantissa % 2 : ℕ) := by
      exact_mod_cast (Nat.div_add_mod em.mantissa 2).symm
    rcases Nat.mod_two_eq_zero_or_one em.mantissa with even | odd
    · rw [even, Nat.cast_zero] at split
      rw [even, if_neg (by decide)]
      linarith
    · rw [odd, Nat.cast_one] at split
      rw [odd, if_pos (by decide)]
      linarith
  rw [rest] at shifted
  exact shifted

theorem MantissaOf.shiftRight {em : ExtendedMantissa} {w : ℚ} (whole : MantissaOf em w) (n : Nat) :
    MantissaOf (em >>> n) (w / 2 ^ n) := by
  change MantissaOf (n.repeat ExtendedMantissa.shiftRightOne em) (w / 2 ^ n)
  induction n with
  | zero =>
      rw [pow_zero, div_one]
      exact whole
  | succ n ih =>
      rw [pow_succ, ← div_div]
      exact ih.shiftRightOne

theorem mantissaOf_exact (m : Nat) : MantissaOf (.ofMantissaAndAccuracy m .exact) m := by
  change Residue false false ((m : ℚ) - m)
  rw [sub_self]
  exact .exact

/-- A quotient, and how its rest compares with a half. -/
theorem mantissaOf_div (m : Nat) {d : Nat} (positive : 0 < d) :
    MantissaOf (.ofMantissaAndAccuracy (m / d) (accuracyOfFraction (m % d) d)) ((m : ℚ) / d) := by
  have unit : (0 : ℚ) < d := by exact_mod_cast positive
  let f : ℚ := ((m % d : ℕ) : ℚ) / d
  have rest : (m : ℚ) / d - (m / d : ℕ) = f := by
    rw [sub_eq_iff_eq_add, div_eq_iff unit.ne', add_mul, div_mul_cancel₀ _ unit.ne', add_comm, mul_comm]
    exact_mod_cast (Nat.div_add_mod m d).symm
  have nonneg : 0 ≤ f := div_nonneg (Nat.cast_nonneg _) unit.le
  have below : f < 1 := (div_lt_one unit).mpr (by exact_mod_cast Nat.mod_lt m positive)
  have zero : f = 0 ↔ m % d = 0 := by
    rw [div_eq_zero_iff, Nat.cast_eq_zero]
    exact or_iff_left unit.ne'
  have half : f = 1 / 2 ↔ 2 * (m % d) = d := by
    rw [div_eq_div_iff unit.ne' (by norm_num), one_mul, mul_comm]
    exact_mod_cast Iff.rfl
  have reached : 1 / 2 ≤ f ↔ d ≤ 2 * (m % d) := by
    rw [le_div_iff₀ unit, div_mul_eq_mul_div, one_mul, div_le_iff₀ (by norm_num), mul_comm]
    exact_mod_cast Iff.rfl
  unfold accuracyOfFraction
  by_cases none : m % d = 0
  · rw [if_pos none]
    change Residue false false ((m : ℚ) / d - (m / d : ℕ))
    rw [rest, zero.mpr none]
    exact .exact
  rw [if_neg none]
  rcases order : compare (2 * (m % d)) d with _ | _ | _
  · have order := Nat.compare_eq_lt.mp order
    change Residue false true ((m : ℚ) / d - (m / d : ℕ))
    rw [rest]
    refine ⟨nonneg, below, iff_of_false Bool.false_ne_true ?_, iff_of_true rfl ?_⟩
    · rw [reached]
      exact Nat.not_le_of_lt order
    · rw [Ne, Ne, zero, half]
      exact ⟨none, order.ne⟩
  · have order := Nat.compare_eq_eq.mp order
    change Residue true false ((m : ℚ) / d - (m / d : ℕ))
    rw [rest]
    refine ⟨nonneg, below, iff_of_true rfl (reached.mpr order.ge), iff_of_false Bool.false_ne_true ?_⟩
    exact fun more => more.2 (half.mpr order)
  · have order := Nat.compare_eq_gt.mp order
    change Residue true true ((m : ℚ) / d - (m / d : ℕ))
    rw [rest]
    refine ⟨nonneg, below, iff_of_true rfl (reached.mpr order.le), iff_of_true rfl ?_⟩
    rw [Ne, Ne, zero, half]
    exact ⟨none, order.ne'⟩

/-! ## Packing -/

/-- The number that an unpacked double stands for once it is packed. -/
def packed? (u : UnpackedFloat) : Option ℚ :=
  rationalOf? (UnpackedFloat.unpack binary64 (UnpackedFloat.pack binary64 u))

theorem packed?_finite {m : Nat} {e : Int} (form : Binary64 m e) (sign : Sign) :
    packed? (.finite sign m e form.positive) = some (signed sign (m * 2 ^ e)) :=
  congrArg rationalOf? (unpack_pack_finite form sign)

theorem packed?_zero (sign : Sign) : packed? (.zero sign) = some 0 :=
  congrArg rationalOf? (unpack_pack_zero sign)

/-- A positive number, or zero if the mantissa is. -/
def ofMantissa (m : Nat) (e : Int) : UnpackedFloat :=
  if h : m = 0 then .zero .positive else .finite .positive m e (Nat.pos_of_ne_zero h)

/-- Shifts a mantissa that was rounded, and that may have grown by a bit from it. -/
def settle (m : Nat) (e : Int) : UnpackedFloat :=
  let settled := shiftToTargetExponent binary64 m e .exact
  ofMantissa settled.1.mantissa settled.2

theorem targetExponent_binary64 (m : Nat) (e : Int) :
    binary64.targetExponent (totalExponent m e) = max (m.log2 + e - 52) (-1074) := by
  change max ((m.log2 : ℤ) + 1 + e - 53) (-1074) = max (m.log2 + e - 52) (-1074)
  congr 1
  omega

theorem settle_of_fits {m : Nat} {e : Int} (fits : m < 2 ^ 53) (least : -1074 ≤ e) :
    settle m e = ofMantissa m e := by
  have stays : (binary64.targetExponent (totalExponent m e) - e).toNat = 0 := by
    have bits : m.log2 < 53 := by
      rcases Nat.eq_zero_or_pos m with rfl | positive
      · decide
      · exact (Nat.log2_lt positive.ne').mpr fits
    rw [targetExponent_binary64]
    omega
  unfold settle shiftToTargetExponent shiftToExponent
  dsimp only
  rw [stays]
  exact congrArg (ofMantissa m) (Int.add_zero e)

theorem settle_of_grown {e : Int} (least : -1074 ≤ e) :
    settle (2 ^ 53) e = ofMantissa (2 ^ 52) (e + 1) := by
  have one : (binary64.targetExponent (totalExponent (2 ^ 53) e) - e).toNat = 1 := by
    rw [targetExponent_binary64, Nat.log2_two_pow]
    omega
  unfold settle shiftToTargetExponent shiftToExponent
  dsimp only
  rw [one]
  rfl

theorem packed?_ofMantissa {m : Nat} {e : Int} (form : 0 < m → Binary64 m e) :
    packed? (ofMantissa m e) = some ((m : ℚ) * 2 ^ e) := by
  rcases Nat.eq_zero_or_pos m with rfl | positive
  · rw [Nat.cast_zero, zero_mul]
    exact packed?_zero .positive
  · have number : ofMantissa m e = .finite .positive m e positive := dif_neg positive.ne'
    rw [number]
    exact packed?_finite (form positive) .positive

/-- There is no room for the exponent. -/
theorem packed?_of_large {m : Nat} {e : Int} (positive : 0 < m) (large : 971 < e) (sign : Sign) :
    packed? (.finite sign m e positive) = none := by
  have field : 2 ^ binary64.exponentBits ≤
      (e + binary64.exponentBias + binary64.mantissaBitsWithoutImplicit).toNat + 1 := by
    rw [exponentBias_binary64]
    change 2 ^ 11 ≤ (e + 1023 + 52).toNat + 1
    omega
  have packed : UnpackedFloat.pack binary64 (.finite sign m e positive) =
      UnpackedFloat.pack binary64 (.infinity sign) := by
    delta UnpackedFloat.pack
    exact if_pos field
  rw [packed?, packed, unpack_pack_infinity]
  rfl

/-- A mantissa comes out as it is, as long as there is room for the exponent. -/
theorem packed?_ofMantissa_of_tight {m : Nat} {e : Int} (fits : m < 2 ^ 53) (least : -1074 ≤ e)
    (tight : 2 ^ 52 ≤ m ∨ e = -1074) : packed? (ofMantissa m e) =
      if (m : ℚ) * 2 ^ e < 2 ^ (1024 : ℤ) then some ((m : ℚ) * 2 ^ e) else none := by
  rcases le_or_gt e 971 with room | large
  · have small : (m : ℚ) * 2 ^ e < 2 ^ (1024 : ℤ) := by
      have fits : (m : ℚ) < 2 ^ (53 : ℤ) := by exact_mod_cast fits
      calc (m : ℚ) * 2 ^ e < 2 ^ (53 : ℤ) * 2 ^ e := mul_lt_mul_of_pos_right fits (zpow_two_pos e)
        _ = 2 ^ (53 + e) := (zpow_two_add 53 e).symm
        _ ≤ 2 ^ (1024 : ℤ) := zpow_two_le_iff.mpr (by omega)
    rw [if_pos small]
    exact packed?_ofMantissa fun positive => ⟨positive, fits, least, room, tight⟩
  · have reached : 2 ^ 52 ≤ m := tight.resolve_right (by omega)
    have positive : 0 < m := by omega
    have number : ofMantissa m e = .finite .positive m e positive := dif_neg positive.ne'
    have beyond : (2 : ℚ) ^ (1024 : ℤ) ≤ m * 2 ^ e := by
      have reached : (2 : ℚ) ^ (52 : ℤ) ≤ m := by exact_mod_cast reached
      calc (2 : ℚ) ^ (1024 : ℤ) ≤ 2 ^ (52 + e) := zpow_two_le_iff.mpr (by omega)
        _ = 2 ^ (52 : ℤ) * 2 ^ e := zpow_two_add 52 e
        _ ≤ m * 2 ^ e := mul_le_mul_of_nonneg_right reached (zpow_two_pos e).le
    rw [if_neg beyond.not_gt, number]
    exact packed?_of_large positive large .positive

/-- So does a mantissa that was rounded, though it may have grown by a bit. -/
theorem packed?_settle {m : Nat} {e : Int} (most : m ≤ 2 ^ 53) (least : -1074 ≤ e)
    (tight : 2 ^ 52 ≤ m ∨ e = -1074) : packed? (settle m e) =
      if (m : ℚ) * 2 ^ e < 2 ^ (1024 : ℤ) then some ((m : ℚ) * 2 ^ e) else none := by
  rcases most.lt_or_eq with fits | rfl
  · rw [settle_of_fits fits least]
    exact packed?_ofMantissa_of_tight fits least tight
  · have grown : ((2 ^ 53 : ℕ) : ℚ) * 2 ^ e = (2 ^ 52 : ℕ) * 2 ^ (e + 1) := by
      rw [zpow_add_one₀ (by norm_num)]
      push_cast
      ring
    rw [settle_of_grown least, grown]
    exact packed?_ofMantissa_of_tight (by decide) (by omega) (.inl le_rfl)

theorem ofMantissaAndAccuracy_mantissa (m : Nat) (accuracy : Accuracy) :
    (ExtendedMantissa.ofMantissaAndAccuracy m accuracy).mantissa = m := by
  cases accuracy with
  | exact => rfl
  | inexact order =>
      cases order with
      | lt | eq | gt => rfl

/-- The first shift goes to the place that the number is rounded at. A mantissa of zero has too few bits
unless the exponent is as small as can be. -/
theorem targetExponent_eq {m : Nat} {e : Int} {accuracy : Accuracy} {w : ℚ} (positive : 0 < w)
    (whole : MantissaOf (.ofMantissaAndAccuracy m accuracy) w) (enough : e ≤ binaryPlace (w * 2 ^ e)) :
    binary64.targetExponent (totalExponent m e) = binaryPlace (w * 2 ^ e) := by
  obtain ⟨least, most, -, -⟩ := whole
  rw [ofMantissaAndAccuracy_mantissa] at least most
  rw [targetExponent_binary64]
  unfold binaryPlace at enough ⊢
  rw [log_mul_zpow positive] at enough ⊢
  rcases Nat.eq_zero_or_pos m with rfl | some
  · have below : Int.log 2 w < 0 := by
      rw [← Int.lt_zpow_iff_log_lt (by decide) positive, zpow_zero]
      rwa [Nat.cast_zero, sub_zero] at most
    rw [Nat.log2_zero]
    omega
  · rw [log_of_whole some (by linarith) (by linarith)]

/-- The double nearest to the number is what a mantissa with its accuracy is rounded and packed to, if
the exponent leaves enough bits. -/
theorem packed?_roundWithAccuracy {m : Nat} {e : Int} {accuracy : Accuracy} {w : ℚ} (positive : 0 < w)
    (whole : MantissaOf (.ofMantissaAndAccuracy m accuracy) w)
    (enough : e ≤ binaryPlace (w * 2 ^ e)) :
    packed? (roundWithAccuracy binary64 .positive m e accuracy) = binary? (w * 2 ^ e) := by
  let q : ℚ := w * 2 ^ e
  let shift := (binary64.targetExponent (totalExponent m e) - e).toNat
  let em := ExtendedMantissa.ofMantissaAndAccuracy m accuracy >>> shift
  have above : 0 < q := mul_pos positive (zpow_two_pos e)
  have place : e + (shift : ℤ) = binaryPlace q := by
    have target := targetExponent_eq positive whole enough
    change e + ((binary64.targetExponent (totalExponent m e) - e).toNat : ℤ) =
      binaryPlace (w * 2 ^ e)
    omega
  have scaled : w / 2 ^ shift = q / 2 ^ binaryPlace q := by
    rw [← place, zpow_two_add, zpow_natCast, mul_comm (2 ^ e) _]
    exact (mul_div_mul_right w _ (zpow_two_pos e).ne').symm
  have rounded : (em.roundedMantissa : ℤ) = nearestEven (q / 2 ^ binaryPlace q) := by
    rw [(whole.shiftRight shift).roundedMantissa, scaled]
  have value : toBinary q = em.roundedMantissa * 2 ^ binaryPlace q := by
    rw [toBinary, roundTo, ← rounded, Int.cast_natCast]
  have result : roundWithAccuracy binary64 .positive m e accuracy =
      settle em.roundedMantissa (e + shift) := rfl
  obtain ⟨most, tight⟩ := nearestEven_binaryPlace above
  rw [← rounded] at most tight
  rw [result, place]
  change _ = binary? q
  rw [binary?, value]
  refine packed?_settle (by exact_mod_cast most) (le_max_right _ _) ?_
  exact tight.imp_left fun reached => by exact_mod_cast reached

/-- What is a double already is not changed. -/
theorem packed?_of_form {m : Nat} {e : Int} (form : Binary64 m e) :
    packed? (roundWithAccuracy binary64 .positive m e .exact) = some ((m : ℚ) * 2 ^ e) := by
  have above : (0 : ℚ) < m := by exact_mod_cast form.positive
  rw [packed?_roundWithAccuracy above (mantissaOf_exact m) form.binaryPlace_eq.ge, binary?,
    toBinary_eq_self form, if_pos form.value_lt]

end Worksheet
