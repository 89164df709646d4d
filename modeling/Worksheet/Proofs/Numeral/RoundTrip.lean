import Worksheet.Proofs.Numeral.Nearest

/-!
Ten digits survive the way through a double.

A double rounded to ten digits and then to the nearest double need not come back to itself, but it does come
back to a double with the same ten digits (`toTenDigits_toBinary`). The nearest double is no further from
the rounded number than the first one was, which is half a unit of the last digit. That is enough unless it
lies below a power of ten that the first one lies above, since there the unit is ten times smaller
(`power_sub_toBinary_le`).
-/

namespace Worksheet

/-! ## Numbers near to one with ten digits -/

section Near

variable {y : ℚ} {e : ℤ}

theorem toTenDigits_eq {c : ℤ} (least : 10 ^ e ≤ y) (most : y < 10 ^ (e + 1))
    (near : |c * lastPlace e - y| ≤ lastPlace e / 2)
    (even : |c * lastPlace e - y| = lastPlace e / 2 → Even c) : toTenDigits y = c * lastPlace e := by
  have positive : 0 < y := (zpow_pos (by norm_num) e).trans_le least
  rw [toTenDigits, (log_ten_eq_iff positive).mpr ⟨least, most⟩]
  exact roundTo_eq (lastPlace_pos e) near even

/-- A power of ten, as the last ten-digit number of the decade below. -/
theorem mul_lastPlace_sub_one (e : ℤ) : ((10 ^ 10 : ℤ) : ℚ) * lastPlace (e - 1) = 10 ^ e := by
  have next := lastPlace_add_one (e - 1)
  rw [sub_add_cancel] at next
  have whole := mul_lastPlace e
  rw [next] at whole
  rw [← whole]
  push_cast
  ring

theorem toTenDigits_above_power (least : 10 ^ e ≤ y) (near : y - 10 ^ e ≤ lastPlace e / 2) :
    toTenDigits y = 10 ^ e := by
  have unit := lastPlace_pos e
  have whole := mul_lastPlace e
  have power : ((10 ^ 9 : ℤ) : ℚ) * lastPlace e = 10 ^ e := by exact_mod_cast whole
  have most : y < 10 ^ (e + 1) := by
    rw [zpow_add_one₀ (by norm_num)]
    linarith
  have digits := toTenDigits_eq (c := 10 ^ 9) least most
  rw [power, abs_sub_comm, abs_of_nonneg (sub_nonneg.mpr least)] at digits
  exact digits near fun _ => by decide

theorem toTenDigits_below_power (most : y < 10 ^ e) (near : 10 ^ e - y ≤ lastPlace e / 20) :
    toTenDigits y = 10 ^ e := by
  have power := mul_lastPlace_sub_one e
  have next := lastPlace_add_one (e - 1)
  rw [sub_add_cancel] at next
  have unit := lastPlace_pos (e - 1)
  have least : 10 ^ (e - 1) ≤ y := by
    have whole := mul_lastPlace (e - 1)
    push_cast at power
    linarith
  have most' : y < 10 ^ (e - 1 + 1) := by rwa [sub_add_cancel]
  have digits := toTenDigits_eq (c := 10 ^ 10) least most'
  rw [power, abs_of_pos (sub_pos.mpr most)] at digits
  exact digits (by linarith) fun _ => by decide

/-- Above a power of ten this is nearer than need be, below it it is just enough. -/
theorem toTenDigits_near_power (near : |10 ^ e - y| ≤ lastPlace e / 20) : toTenDigits y = 10 ^ e := by
  have unit := lastPlace_pos e
  obtain ⟨lower, upper⟩ := abs_le.mp near
  rcases le_or_gt (10 ^ e) y with beyond | short
  · exact toTenDigits_above_power beyond (by linarith)
  · exact toTenDigits_below_power short upper

end Near

section Between

variable {q : ℚ} {e c : ℤ}

/-- Less than half a unit away from a ten-digit number. -/
theorem toTenDigits_of_between (least : 10 ^ 9 < c) (most : c < 10 ^ 10)
    (above : (c - 1 / 2) * lastPlace e < q) (below : q < (c + 1 / 2) * lastPlace e) :
    toTenDigits q = c * lastPlace e := by
  have unit := lastPlace_pos e
  have whole := mul_lastPlace e
  have next : (10 : ℚ) ^ (e + 1) = 10 ^ e * 10 := zpow_add_one₀ (by norm_num) e
  have near : |c * lastPlace e - q| < lastPlace e / 2 := by
    rw [abs_lt]
    constructor
    · linarith
    · linarith
  have least : (10 : ℚ) ^ 9 + 1 ≤ c := by exact_mod_cast least
  have most : (c : ℚ) + 1 ≤ 10 ^ 10 := by exact_mod_cast most
  have lower := mul_le_mul_of_nonneg_right least unit.le
  have upper := mul_le_mul_of_nonneg_right most unit.le
  exact toTenDigits_eq (by linarith) (by linarith) near.le fun tie => absurd tie near.ne

/-- Up to half a unit more than an even ten-digit number, none is rounded to a larger one. -/
theorem toTenDigits_le (positive : 0 < q) (least : 10 ^ 9 ≤ c) (most : c < 10 ^ 10) (even : Even c)
    (le : q ≤ (c + 1 / 2) * lastPlace e) : toTenDigits q ≤ c * lastPlace e := by
  let d := Int.log 10 q
  have unit := lastPlace_pos e
  have whole := mul_lastPlace e
  have least : (10 : ℚ) ^ 9 ≤ c := by exact_mod_cast least
  have most : (c : ℚ) + 1 ≤ 10 ^ 10 := by exact_mod_cast most
  have lower := mul_le_mul_of_nonneg_right least unit.le
  have upper := mul_le_mul_of_nonneg_right most unit.le
  have decade : d ≤ e := by
    refine Int.lt_add_one_iff.mp ((Int.lt_zpow_iff_log_lt (by decide) positive).mp ?_)
    have next : (10 : ℚ) ^ (e + 1) = 10 ^ e * 10 := zpow_add_one₀ (by norm_num) e
    change q < 10 ^ (e + 1)
    linarith
  rcases decade.lt_or_eq with less | last
  · have power : (10 : ℚ) ^ (d + 1) ≤ 10 ^ e := zpow_le_zpow_right₀ (by norm_num) less
    exact (toTenDigits_bounds positive).2.trans (by linarith)
  · have scaled : q / lastPlace e ≤ c + 1 / 2 := (div_le_iff₀ unit).mpr le
    have nearest := isNearestEven_nearestEven (q / lastPlace e)
    have small : nearestEven (q / lastPlace e) ≤ c := by
      by_contra more
      have more : (c : ℚ) + 1 ≤ nearestEven (q / lastPlace e) := by exact_mod_cast not_le.mp more
      have close := abs_le.mp nearest.near
      have next : (nearestEven (q / lastPlace e) : ℚ) = (c + 1 : ℤ) := by
        push_cast
        linarith
      have half : |(nearestEven (q / lastPlace e) : ℚ) - q / lastPlace e| = 1 / 2 := by
        rw [abs_of_nonneg (by linarith)]
        linarith
      have both := nearest.even half
      rw [Int.cast_injective next] at both
      exact Int.even_add_one.mp both even
    change (nearestEven (q / lastPlace d) : ℚ) * lastPlace d ≤ _
    rw [last]
    exact mul_le_mul_of_nonneg_right (by exact_mod_cast small) unit.le

end Between

/-! ## Below a power of ten -/

/-- Doubles are multiples of the least one. -/
theorem toBinary_multiple (q : ℚ) : ∃ z : ℤ, toBinary q = z * 2 ^ (-1074 : ℤ) :=
  exists_mul_zpow _ (le_max_right _ _)

section Power

variable {e : ℤ}

theorem ten_zpow_pos (e : ℤ) : (0 : ℚ) < 10 ^ e := zpow_pos (by norm_num) e

theorem lastPlace_div_ten (e : ℤ) : lastPlace e / 10 = 10 ^ (e - 10) := by
  rw [lastPlace, show e - 9 = e - 10 + 1 by ring, zpow_add_one₀ (by norm_num), mul_div_cancel_right₀]
  norm_num

/-- The least double lies between two powers of ten. -/
theorem least_bounds :
    (10 : ℚ) ^ (-324 : ℤ) < 2 ^ (-1074 : ℤ) ∧ (2 : ℚ) ^ (-1074 : ℤ) ≤ 10 ^ (-323 : ℤ) := by
  have below : 2 ^ 1074 < 10 ^ 324 := by decide +kernel
  have above : 10 ^ 323 ≤ 2 ^ 1074 := by decide +kernel
  have below : (2 : ℚ) ^ (1074 : ℤ) < 10 ^ (324 : ℤ) := by exact_mod_cast below
  have above : (10 : ℚ) ^ (323 : ℤ) ≤ 2 ^ (1074 : ℤ) := by exact_mod_cast above
  rw [zpow_neg, zpow_neg, zpow_neg]
  exact ⟨inv_strictAnti₀ (zpow_two_pos 1074) below, inv_anti₀ (ten_zpow_pos 323) above⟩

/-- The exponent of the ten digits has four digits at most. -/
theorem Binary64.natAbs_log_lt {m : Nat} {e : Int} (form : Binary64 m e) :
    (Int.log 10 (toTenDigits (m * 2 ^ e))).natAbs < 10 ^ 4 := by
  have above := form.value_pos
  have one : (1 : ℚ) ≤ m := by exact_mod_cast form.positive
  have least : -1074 ≤ Int.log 10 ((m : ℚ) * 2 ^ e) := by
    refine (Int.zpow_le_iff_le_log (by decide) above).mp ?_
    calc (10 : ℚ) ^ (-1074 : ℤ) ≤ 10 ^ (-324 : ℤ) := zpow_le_zpow_right₀ (by norm_num) (by decide)
      _ ≤ 2 ^ (-1074 : ℤ) := least_bounds.1.le
      _ ≤ 2 ^ e := zpow_two_le_iff.mpr form.least
      _ ≤ m * 2 ^ e := le_mul_of_one_le_left (zpow_two_pos e).le one
  have most : Int.log 10 ((m : ℚ) * 2 ^ e) < 1024 := by
    refine (Int.lt_zpow_iff_log_lt (by decide) above).mp ?_
    calc (m : ℚ) * 2 ^ e < 2 ^ (1024 : ℤ) := form.value_lt
      _ ≤ 10 ^ (1024 : ℤ) := zpow_le_zpow_left₀ (by decide) (by norm_num) (by norm_num)
  obtain ⟨lower, upper⟩ := log_toTenDigits above
  omega

/-- Half a unit of a double is small enough, down to where doubles have fewer than ten digits. -/
theorem abs_toBinary_power_le (least : -313 ≤ e) : |toBinary (10 ^ e) - 10 ^ e| ≤ lastPlace e / 20 := by
  have unit : 2 ^ binaryPlace (10 ^ e) ≤ lastPlace e / 10 := by
    rw [lastPlace_div_ten]
    rcases max_choice (Int.log 2 ((10 : ℚ) ^ e) - 52) (-1074) with normal | bottom
    · have reached := ((log_two_eq_iff (ten_zpow_pos e)).mp rfl).1
      have bits : (10 : ℚ) ^ (10 : ℤ) ≤ 2 ^ (52 : ℤ) := by norm_num
      rw [binaryPlace, normal, zpow_sub₀ (by norm_num), zpow_sub₀ (by norm_num)]
      exact div_le_div₀ (ten_zpow_pos e).le reached (ten_zpow_pos 10) bits
    · rw [binaryPlace, bottom]
      exact least_bounds.2.trans (zpow_le_zpow_right₀ (by norm_num) (by omega))
  have near := abs_roundTo_sub_le (zpow_two_pos (binaryPlace (10 ^ e))) ((10 : ℚ) ^ e)
  change |toBinary (10 ^ e) - 10 ^ e| ≤ _ at near
  linarith

theorem binary64_bottomPower : Binary64 2024022533 (-1074) :=
  ⟨by decide, by decide, by decide, by decide, .inr rfl⟩

/-- Comparing a double with a power of ten comes down to whole numbers. -/
theorem abs_mul_zpow_sub_le {n k l : ℕ} (below : n * 10 ^ l ≤ 10 ^ 9 * 2 ^ k)
    (above : 19999999999 * 2 ^ k ≤ n * (20 * 10 ^ l)) :
    |(n : ℚ) * 2 ^ (-k : ℤ) - 10 ^ 9 * 10 ^ (-l : ℤ)| ≤ 10 ^ (-l : ℤ) / 20 := by
  have two : (0 : ℚ) < 2 ^ k := by positivity
  have ten : (0 : ℚ) < 10 ^ l := by positivity
  have below : (n : ℚ) / 2 ^ k ≤ 10 ^ 9 / 10 ^ l := by
    rw [div_le_div_iff₀ two ten]
    exact_mod_cast below
  have above : 19999999999 / (20 * 10 ^ l) ≤ (n : ℚ) / 2 ^ k := by
    rw [div_le_div_iff₀ (by positivity) two]
    exact_mod_cast above
  have split : 19999999999 / (20 * 10 ^ l) = 10 ^ 9 / (10 : ℚ) ^ l - (10 ^ l)⁻¹ / 20 := by
    field_simp
    norm_num
  rw [zpow_neg, zpow_neg, zpow_natCast, zpow_natCast, ← div_eq_mul_inv, ← div_eq_mul_inv, abs_sub_comm,
    abs_of_nonneg (sub_nonneg.mpr below)]
  linarith

/-- The next power of ten is near to a double by luck. -/
theorem abs_toBinary_bottomPower_le :
    |toBinary (10 ^ (-314 : ℤ)) - 10 ^ (-314 : ℤ)| ≤ lastPlace (-314) / 20 := by
  have close := abs_mul_zpow_sub_le (n := 2024022533) (k := 1074) (l := 323) (by decide +kernel)
    (by decide +kernel)
  have power := mul_lastPlace (-314)
  refine (abs_toBinary_sub_le (ten_zpow_pos _) binary64_bottomPower).trans ?_
  rw [← power]
  exact close

/-- Below that, two doubles are further apart than ten digits allow. -/
theorem lastPlace_lt (most : e ≤ -315) : lastPlace e < 2 ^ (-1074 : ℤ) := by
  refine lt_of_le_of_lt ?_ least_bounds.1
  exact zpow_le_zpow_right₀ (by norm_num) (by omega)

/-- A power of ten that has a double above it with the same ten digits has the double below it nearby. -/
theorem power_sub_toBinary_le {m : Nat} {b : Int} (form : Binary64 m b) {q : ℚ} (double : q = m * 2 ^ b)
    (above : 10 ^ e ≤ q) (near : q - 10 ^ e ≤ lastPlace e / 2) (below : toBinary (10 ^ e) < 10 ^ e) :
    10 ^ e - toBinary (10 ^ e) ≤ lastPlace e / 20 := by
  rcases lt_trichotomy e (-314) with small | rfl | large
  · -- Two doubles would be less than a step apart.
    have nearest := abs_toBinary_sub_le (ten_zpow_pos e) form
    rw [← double, abs_of_neg (sub_neg.mpr below), abs_of_nonneg (sub_nonneg.mpr above)] at nearest
    have most := lastPlace_lt (e := e) (by omega)
    obtain ⟨z, rounded⟩ := toBinary_multiple (10 ^ e)
    obtain ⟨w, multiple⟩ := exists_mul_zpow m form.least
    rw [Int.cast_natCast, ← double] at multiple
    rw [multiple] at above near nearest
    rw [rounded] at below nearest
    have unit := zpow_two_pos (-1074)
    have less : (z : ℚ) < w := lt_of_mul_lt_mul_right (below.trans_le above) unit.le
    have step : (z : ℚ) + 1 ≤ w := by exact_mod_cast less
    have apart := mul_le_mul_of_nonneg_right step unit.le
    linarith
  · have close := abs_toBinary_bottomPower_le
    rwa [abs_of_neg (sub_neg.mpr below), neg_sub] at close
  · have close := abs_toBinary_power_le (e := e) (by omega)
    rwa [abs_of_neg (sub_neg.mpr below), neg_sub] at close

end Power

/-! ## There and back -/

section Double

variable {m : Nat} {b : Int} (form : Binary64 m b)

include form

/-- The nearest double is as near as the first one, and if that is half a unit, the ten digits are even. -/
theorem toBinary_toTenDigits_near {q : ℚ} (double : q = m * 2 ^ b) :
    let e := Int.log 10 q
    let y := toBinary (toTenDigits q)
    |toTenDigits q - y| ≤ lastPlace e / 2 ∧
      (|toTenDigits q - y| = lastPlace e / 2 → Even (nearestEven (q / lastPlace e))) := by
  intro e y
  have above : 0 < q := double ▸ form.value_pos
  have nearest := abs_toBinary_sub_le (toTenDigits_pos above) form
  rw [← double, abs_sub_comm, abs_sub_comm q] at nearest
  have half := abs_toTenDigits_sub_le (q := q)
  refine ⟨nearest.trans half, fun tie => even_of_abs_roundTo_sub (lastPlace_pos e) ?_⟩
  exact le_antisymm half (tie.symm.le.trans nearest)

/-- The double nearest to a double's ten digits has the same ten digits. -/
theorem toTenDigits_toBinary {q : ℚ} (double : q = m * 2 ^ b) :
    0 < toBinary (toTenDigits q) ∧ toTenDigits (toBinary (toTenDigits q)) = toTenDigits q := by
  let e := Int.log 10 q
  let y := toBinary (toTenDigits q)
  let c := nearestEven (q / lastPlace e)
  have above : 0 < q := double ▸ form.value_pos
  have unit : 0 < lastPlace e := lastPlace_pos e
  have whole : (10 : ℚ) ^ 9 * lastPlace e = 10 ^ e := mul_lastPlace e
  have next : (10 : ℚ) ^ (e + 1) = 10 * 10 ^ e := by
    rw [zpow_add_one₀ (by norm_num), mul_comm]
  have value : toTenDigits q = c * lastPlace e := rfl
  obtain ⟨least, most⟩ : 10 ^ 9 ≤ c ∧ c ≤ 10 ^ 10 := nearestEven_lastPlace above
  obtain ⟨near, even⟩ : |toTenDigits q - y| ≤ lastPlace e / 2 ∧
      (|toTenDigits q - y| = lastPlace e / 2 → Even c) := toBinary_toTenDigits_near form double
  obtain ⟨lower, upper⟩ := abs_le.mp near
  have reached : 10 ^ e ≤ toTenDigits q := (toTenDigits_bounds above).1
  refine ⟨by linarith, ?_⟩
  change toTenDigits y = toTenDigits q
  rcases most.eq_or_lt with carry | fits
  · have power : toTenDigits q = 10 ^ (e + 1) := by
      rw [value, carry, next, ← whole]
      push_cast
      ring
    have wider := lastPlace_add_one e
    have close : |toTenDigits q - y| ≤ lastPlace (e + 1) / 20 := near.trans (by linarith)
    rw [power] at close ⊢
    exact toTenDigits_near_power close
  have fits : (c : ℚ) + 1 ≤ 10 ^ 10 := by exact_mod_cast fits
  have room := mul_le_mul_of_nonneg_right fits unit.le
  rcases le_or_gt (10 ^ e) y with beyond | short
  · exact toTenDigits_eq beyond (by linarith) near even
  · -- The nearest double is in the decade below, so the ten digits are the power of ten in between.
    have first : c = 10 ^ 9 := by
      by_contra more
      have more : (10 : ℚ) ^ 9 + 1 ≤ c := by exact_mod_cast lt_of_le_of_ne least (Ne.symm more)
      have larger := mul_le_mul_of_nonneg_right more unit.le
      linarith
    have power : toTenDigits q = 10 ^ e := by
      rw [value, first, ← whole]
      push_cast
      rfl
    have start : 10 ^ e ≤ q := zpow_log_le above
    have half := abs_toTenDigits_sub_le (q := q)
    rw [power, abs_sub_comm, abs_of_nonneg (sub_nonneg.mpr start)] at half
    have rounded : y = toBinary (10 ^ e) := congrArg toBinary power
    rw [power]
    rw [rounded] at short ⊢
    exact toTenDigits_below_power short (power_sub_toBinary_le form double start half short)

end Double

end Worksheet
