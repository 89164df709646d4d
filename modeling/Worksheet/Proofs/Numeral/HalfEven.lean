import Mathlib.Data.Int.Log
import Mathlib.Data.Rat.Floor
import Mathlib.Tactic.Linarith
import Mathlib.Tactic.Positivity

/-!
Rounding to the nearest, a half to the even neighbour.

`nearestEven` rounds a rational number to an integer, and `roundTo` to a whole multiple of a unit. The
integer is determined by what it has to be (`nearestEven_eq_iff`), so that a rounding that is reckoned in
another way can be compared with it.
-/

namespace Worksheet

/-! ## To an integer -/

/-- No integer is nearer to the number, and if another one is as near, this one is even. -/
structure IsNearestEven (q : ℚ) (z : ℤ) : Prop where
  near : |(z : ℚ) - q| ≤ 1 / 2
  even : |(z : ℚ) - q| = 1 / 2 → Even z

/-- The integer nearest to a number; a half goes to the even neighbour. -/
def nearestEven (q : ℚ) : ℤ :=
  let below := ⌊q⌋
  if 1 / 2 < q - below ∨ (q - below = 1 / 2 ∧ ¬Even below) then below + 1 else below

theorem isNearestEven_nearestEven (q : ℚ) : IsNearestEven q (nearestEven q) := by
  have below := Int.floor_le q
  have above := Int.lt_floor_add_one q
  unfold nearestEven
  dsimp only
  split
  · next up =>
      have distance : |((⌊q⌋ + 1 : ℤ) : ℚ) - q| = ⌊q⌋ + 1 - q := by
        push_cast
        exact abs_of_pos (by linarith)
      rcases up with more | ⟨half, odd⟩
      · refine ⟨by linarith, fun same => ?_⟩
        exact absurd same (by linarith)
      · exact ⟨by linarith, fun _ => (Int.not_even_iff_odd.mp odd).add_one⟩
  · next down =>
      rw [not_or, not_and, not_lt] at down
      have distance : |(⌊q⌋ : ℚ) - q| = q - ⌊q⌋ := by
        rw [abs_sub_comm]
        exact abs_of_nonneg (by linarith)
      refine ⟨distance ▸ down.1, fun same => ?_⟩
      exact not_not.mp (down.2 (distance ▸ same))

/-- Two such integers differ by one at most. If they did, they would both be half away and even. -/
theorem IsNearestEven.eq {q : ℚ} {z w : ℤ} (first : IsNearestEven q z) (second : IsNearestEven q w) :
    z = w := by
  have nearFirst := abs_le.mp first.near
  have nearSecond := abs_le.mp second.near
  by_contra different
  rcases Int.lt_or_gt_of_ne different with less | more
  · have step : (z : ℚ) + 1 ≤ w := by exact_mod_cast less
    have evenFirst : Even z := first.even (by rw [abs_eq (by norm_num)]; right; linarith)
    have evenSecond : Even w := second.even (by rw [abs_eq (by norm_num)]; left; linarith)
    have next : w = z + 1 := by
      have close : (w : ℚ) ≤ z + 1 := by linarith
      have close : w ≤ z + 1 := by exact_mod_cast close
      omega
    rw [next] at evenSecond
    exact Int.even_add_one.mp evenSecond evenFirst
  · have step : (w : ℚ) + 1 ≤ z := by exact_mod_cast more
    have evenFirst : Even z := first.even (by rw [abs_eq (by norm_num)]; left; linarith)
    have evenSecond : Even w := second.even (by rw [abs_eq (by norm_num)]; right; linarith)
    have next : z = w + 1 := by
      have close : (z : ℚ) ≤ w + 1 := by linarith
      have close : z ≤ w + 1 := by exact_mod_cast close
      omega
    rw [next] at evenFirst
    exact Int.even_add_one.mp evenFirst evenSecond

theorem nearestEven_eq_iff {q : ℚ} {z : ℤ} : nearestEven q = z ↔ IsNearestEven q z := by
  constructor
  · rintro rfl
    exact isNearestEven_nearestEven q
  · exact fun nearest => (isNearestEven_nearestEven q).eq nearest

section Integer

variable (q : ℚ) {z : ℤ}

theorem le_nearestEven {q : ℚ} (le : z ≤ q) : z ≤ nearestEven q := by
  have near := abs_le.mp (isNearestEven_nearestEven q).near
  have close : (z : ℚ) < nearestEven q + 1 := by linarith
  have close : z < nearestEven q + 1 := by exact_mod_cast close
  exact Int.lt_add_one_iff.mp close

theorem nearestEven_le {q : ℚ} (le : q ≤ z) : nearestEven q ≤ z := by
  have near := abs_le.mp (isNearestEven_nearestEven q).near
  have close : (nearestEven q : ℚ) < z + 1 := by linarith
  have close : nearestEven q < z + 1 := by exact_mod_cast close
  exact Int.lt_add_one_iff.mp close

/-- Half a unit below an even integer is where rounding to it begins. -/
theorem nearestEven_lt_iff {q : ℚ} (even : Even z) : nearestEven q < z ↔ q < z - 1 / 2 := by
  have nearest := isNearestEven_nearestEven q
  have near := abs_le.mp nearest.near
  constructor
  · intro less
    by_contra reached
    have less : (nearestEven q : ℚ) + 1 ≤ z := by exact_mod_cast less
    have half : |(nearestEven q : ℚ) - q| = 1 / 2 := by
      rw [abs_of_neg (by linarith)]
      linarith
    have next : z = nearestEven q + 1 := by
      have close : (z : ℚ) < nearestEven q + 1 + 1 := by linarith
      have close : z < nearestEven q + 1 + 1 := by exact_mod_cast close
      have less : nearestEven q + 1 ≤ z := by exact_mod_cast less
      omega
    rw [next] at even
    exact Int.even_add_one.mp even (nearest.even half)
  · intro less
    have close : (nearestEven q : ℚ) < z := by linarith
    exact_mod_cast close

theorem abs_nearestEven_sub_le (z : ℤ) : |(nearestEven q : ℚ) - q| ≤ |(z : ℚ) - q| := by
  have near := (isNearestEven_nearestEven q).near
  by_contra nearer
  rw [not_le] at nearer
  have close := abs_lt.mp (nearer.trans_le near)
  have nearest : IsNearestEven q z :=
    ⟨(nearer.trans_le near).le, fun half => absurd half (nearer.trans_le near).ne⟩
  rw [nearestEven_eq_iff.mpr nearest] at nearer
  exact lt_irrefl _ nearer

end Integer

/-! ## To a multiple of a unit -/

/-- Rounds a number to a whole multiple of a unit. -/
def roundTo (unit q : ℚ) : ℚ :=
  nearestEven (q / unit) * unit

section Unit

variable {unit : ℚ} (positive : 0 < unit) (q : ℚ)

include positive

theorem abs_mul_unit_sub (z : ℤ) : |(z : ℚ) * unit - q| = |(z : ℚ) - q / unit| * unit := by
  have split : (z : ℚ) * unit - q = ((z : ℚ) - q / unit) * unit := by
    rw [sub_mul, div_mul_cancel₀ q positive.ne']
  rw [split, abs_mul, abs_of_pos positive]

theorem abs_roundTo_sub_le : |roundTo unit q - q| ≤ unit / 2 := by
  rw [roundTo, abs_mul_unit_sub positive]
  have near := (isNearestEven_nearestEven (q / unit)).near
  calc |(nearestEven (q / unit) : ℚ) - q / unit| * unit
      ≤ 1 / 2 * unit := mul_le_mul_of_nonneg_right near positive.le
    _ = unit / 2 := by ring

/-- No other multiple of the unit is nearer. -/
theorem abs_roundTo_sub_le_abs (z : ℤ) : |roundTo unit q - q| ≤ |z * unit - q| := by
  rw [roundTo, abs_mul_unit_sub positive, abs_mul_unit_sub positive]
  exact mul_le_mul_of_nonneg_right (abs_nearestEven_sub_le _ z) positive.le

/-- A multiple of the unit that is no more than half a unit away, and even if it is just that far, is what
the number is rounded to. -/
theorem roundTo_eq {q : ℚ} {z : ℤ} (near : |z * unit - q| ≤ unit / 2)
    (even : |z * unit - q| = unit / 2 → Even z) : roundTo unit q = z * unit := by
  have scaled := abs_mul_unit_sub positive q z
  have nearest : IsNearestEven (q / unit) z := by
    constructor
    · rw [scaled] at near
      exact le_of_mul_le_mul_right (by linarith) positive
    · intro half
      refine even ?_
      rw [scaled, half]
      ring
  rw [roundTo, nearestEven_eq_iff.mpr nearest]

/-- A rounding by half a unit goes to an even multiple. -/
theorem even_of_abs_roundTo_sub {q : ℚ}
    (half : |roundTo unit q - q| = unit / 2) : Even (nearestEven (q / unit)) := by
  refine (isNearestEven_nearestEven (q / unit)).even ?_
  rw [roundTo, abs_mul_unit_sub positive] at half
  exact mul_right_cancel₀ positive.ne' (half.trans (by ring))

end Unit

end Worksheet
