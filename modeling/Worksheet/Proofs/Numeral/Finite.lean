import Worksheet.Formula.Evaluation

/-!
Finite numbers.

A number is finite if its exponent field is below the one that infinities and NaNs have. Negating
keeps that field (`isFinite_neg`), so no literal is anything but finite (`isFinite_literal`).
-/

namespace Worksheet

/-! ## Negation -/

section Negation

open Float.Model UnpackedFloat
open Float.Model.Format (binary64)

/-- A finite number, unpacked: its exponent leaves room below the one that infinities have. -/
theorem unpack_cases {b : BitVec binary64.numBits}
    (finite : (UnpackedFloat.unpack binary64 b).isFinite = true) :
    (∃ sign, UnpackedFloat.unpack binary64 b = .zero sign) ∨
      ∃ sign mantissa exponent positive,
        UnpackedFloat.unpack binary64 b = .finite sign mantissa exponent positive ∧
          (exponent + 1075).toNat < 2047 := by
  have bias : binary64.exponentBias = 1023 := by decide
  have bound : (unpackExponent b).toNat < 2048 := (unpackExponent b).isLt
  unfold UnpackedFloat.unpack at finite ⊢
  dsimp only at finite ⊢
  by_cases top : unpackExponent b = -1#_
  · rw [if_pos top] at finite
    by_cases none : unpackMantissa b = 0#_
    · rw [if_pos none] at finite
      cases finite
    · rw [if_neg none] at finite
      cases finite
  have other : (unpackExponent b).toNat ≠ 2047 := fun same => top (BitVec.eq_of_toNat_eq same)
  rw [if_neg top]
  by_cases least : unpackExponent b = 0#_
  · rw [if_pos least]
    by_cases none : unpackMantissa b = 0#_
    · exact .inl ⟨_, dif_pos none⟩
    · have positive : 0 < (unpackMantissa b).toNat :=
        Nat.pos_of_ne_zero fun zero => none (BitVec.eq_of_toNat_eq zero)
      refine .inr ⟨_, _, _, positive, dif_neg none, ?_⟩
      rw [least, bias, BitVec.toNat_ofNat]
      omega
  · have positive : 0 < (1#1 ++ unpackMantissa b).toNat := by
      rw [BitVec.toNat_append]
      exact Nat.lt_of_lt_of_le (by decide) Nat.left_le_or
    refine .inr ⟨_, _, _, positive, if_neg least, ?_⟩
    rw [bias]
    omega

theorem isFinite_unpack_packComponents {sign : Sign} {exponent : BitVec binary64.exponentBits}
    {mantissa : BitVec binary64.mantissaBitsWithoutImplicit} (below : exponent.toNat < 2047) :
    (UnpackedFloat.unpack binary64 (packComponents binary64 sign exponent mantissa)).isFinite =
      true := by
  have other : exponent ≠ -1#11 := by
    rintro rfl
    exact absurd below (by decide)
  unfold UnpackedFloat.unpack
  rw [unpackExponent_packComponents, if_neg other]
  by_cases least : exponent = 0#_
  · rw [if_pos least]
    by_cases none : unpackMantissa (packComponents binary64 sign exponent mantissa) = 0#_
    · rw [dif_pos none]
      rfl
    · rw [dif_neg none]
      rfl
  · rw [if_neg least]
    rfl

theorem isFinite_unpack_pack {sign : Sign} {m : Nat} {e : Int} {positive : 0 < m}
    (small : (e + 1075).toNat < 2047) :
    (UnpackedFloat.unpack binary64
      (UnpackedFloat.pack binary64 (.finite sign m e positive))).isFinite = true := by
  have bias : (e + binary64.exponentBias + (52 : Nat)).toNat = (e + 1075).toNat := by
    have value : binary64.exponentBias = 1023 := by decide
    rw [value]
    omega
  have room : (e + 1075).toNat + 1 < 2 ^ binary64.exponentBits := Nat.succ_lt_succ small
  unfold UnpackedFloat.pack
  dsimp only
  rw [bias, if_neg (Nat.not_le_of_lt room)]
  split
  · refine isFinite_unpack_packComponents ?_
    rw [BitVec.toNat_ofNat, Nat.mod_eq_of_lt (Nat.lt_of_succ_lt room)]
    exact small
  · exact isFinite_unpack_packComponents (by decide)

theorem isFinite_neg {x : Float} (finite : x.isFinite = true) : (-x).isFinite = true := by
  let b := x.toModel.toBits.toBitVec
  change (UnpackedFloat.unpack binary64
    (UnpackedFloat.pack binary64 (UnpackedFloat.unpack binary64 b).neg)).isFinite = true
  rcases unpack_cases finite with ⟨sign, unpacked⟩ | ⟨sign, m, e, positive, unpacked, small⟩
  · rw [unpacked]
    exact isFinite_unpack_packComponents (by decide)
  · rw [unpacked]
    exact isFinite_unpack_pack small

end Negation

/-! ## Literals -/

theorem Numeral.isFinite_literal {cs : List Char} {x : Float} (literal : literal? cs = some x) :
    x.isFinite = true := by
  unfold literal? at literal
  dsimp only at literal
  split at literal
  · split at literal
    · next finite =>
        cases literal
        split
        · exact isFinite_neg finite
        · exact finite
    · cases literal
  · cases literal

end Worksheet
