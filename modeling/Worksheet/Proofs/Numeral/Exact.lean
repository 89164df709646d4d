import Worksheet.Numeral.Format
import Worksheet.Proofs.Numeral.TenDigits

/-!
The rational number that a double stands for.

A double is read off the fields of its word (`Fields`). A finite one other than zero is a sign, a mantissa
of at most 53 bits and an exponent of two, in the one form that packing keeps (`Binary64`). `rational?` is
the number itself, and a double is formatted as the sign of that number and its ten significant digits
(`formatNumber_of_exact`).
-/

namespace Worksheet

open Float.Model (UnpackedFloat)
open Float.Model.UnpackedFloat (Sign packComponents unpackMantissa unpackExponent unpackSign)
open Float.Model.Format (binary64)

/-! ## Mantissa and exponent -/

/-- The mantissa and the exponent of a finite double other than zero. A mantissa that leaves the first of
its 53 bits free goes with the least exponent. -/
structure Binary64 (mantissa : Nat) (e : Int) : Prop where
  positive : 0 < mantissa
  fits : mantissa < 2 ^ 53
  least : -1074 ≤ e
  most : e ≤ 971
  tight : 2 ^ 52 ≤ mantissa ∨ e = -1074

theorem toNat_one_append (b : BitVec 52) : (1#1 ++ b).toNat = 2 ^ 52 + b.toNat := by
  rw [BitVec.toNat_append, ← Nat.shiftLeft_add_eq_or_of_lt b.isLt]
  rfl

theorem exponentBias_binary64 : binary64.exponentBias = 1023 := by decide

/-- How the fields of a word are read. The first bit of a mantissa is left out, unless the exponent field is
zero. -/
inductive Fields (b : BitVec binary64.numBits) : UnpackedFloat → Prop where
  | notANumber : Fields b .notANumber
  | infinity {sign : Sign} : .ofBitVec (unpackSign b) = sign → Fields b (.infinity sign)
  | zero {sign : Sign} : .ofBitVec (unpackSign b) = sign → (unpackExponent b).toNat = 0 →
    (unpackMantissa b).toNat = 0 → Fields b (.zero sign)
  | finite {sign : Sign} {m : Nat} {e : Int} (form : Binary64 m e) : .ofBitVec (unpackSign b) = sign →
    (unpackExponent b).toNat = (if m < 2 ^ 52 then 0 else (e + 1075).toNat) →
    (unpackMantissa b).toNat = m % 2 ^ 52 → Fields b (.finite sign m e form.positive)

theorem Fields.of_zero {b : BitVec binary64.numBits} {sign : Sign} (fields : Fields b (.zero sign)) :
    (unpackExponent b).toNat = 0 ∧ (unpackMantissa b).toNat = 0 := by
  cases fields with
  | zero _ exponent mantissa => exact ⟨exponent, mantissa⟩

theorem Fields.of_finite {b : BitVec binary64.numBits} {sign : Sign} {m : Nat} {e : Int}
    {positive : 0 < m} (fields : Fields b (.finite sign m e positive)) :
    (unpackExponent b).toNat = (if m < 2 ^ 52 then 0 else (e + 1075).toNat) ∧
      (unpackMantissa b).toNat = m % 2 ^ 52 := by
  cases fields with
  | finite _ _ exponent mantissa => exact ⟨exponent, mantissa⟩

theorem fields_unpack (b : BitVec binary64.numBits) : Fields b (UnpackedFloat.unpack binary64 b) := by
  have bound : (unpackExponent b).toNat < 2 ^ 11 := (unpackExponent b).isLt
  have room : (unpackMantissa b).toNat < 2 ^ 52 := (unpackMantissa b).isLt
  unfold UnpackedFloat.unpack
  dsimp only
  rw [exponentBias_binary64]
  by_cases top : unpackExponent b = -1#_
  · rw [if_pos top]
    by_cases none : unpackMantissa b = 0#_
    · rw [if_pos none]
      exact .infinity rfl
    · rw [if_neg none]
      exact .notANumber
  have below : (unpackExponent b).toNat ≠ 2047 := fun same => top (BitVec.eq_of_toNat_eq same)
  rw [if_neg top]
  by_cases least : unpackExponent b = 0#_
  · have field : (unpackExponent b).toNat = 0 := congrArg BitVec.toNat least
    rw [if_pos least]
    by_cases none : unpackMantissa b = 0#_
    · rw [dif_pos none]
      exact .zero rfl field (congrArg BitVec.toNat none)
    · have positive : 0 < (unpackMantissa b).toNat :=
        Nat.pos_of_ne_zero fun zero => none (BitVec.eq_of_toNat_eq zero)
      rw [dif_neg none]
      refine .finite ⟨positive, by omega, by omega, by omega, .inr (by omega)⟩ rfl ?_
        (Nat.mod_eq_of_lt room).symm
      rw [if_pos room, field]
  · have above : (unpackExponent b).toNat ≠ 0 := fun zero => least (BitVec.eq_of_toNat_eq zero)
    rw [if_neg least]
    refine .finite ⟨?_, ?_, by omega, by omega, .inl ?_⟩ rfl ?_ ?_
    all_goals rw [toNat_one_append]
    · omega
    · omega
    · omega
    · rw [if_neg (by omega)]
      omega
    · rw [Nat.add_mod_left, Nat.mod_eq_of_lt room]

theorem binary64_of_unpack {b : BitVec binary64.numBits} {sign : Sign} {m : Nat} {e : Int}
    {positive : 0 < m} (unpacked : UnpackedFloat.unpack binary64 b = .finite sign m e positive) :
    Binary64 m e := by
  have fields := fields_unpack b
  rw [unpacked] at fields
  cases fields with
  | finite form => exact form

theorem unpackSign_packComponents (sign : Sign) (e : BitVec 11) (m : BitVec 52) :
    Sign.ofBitVec (unpackSign (packComponents binary64 sign e m)) = sign := by
  unfold unpackSign packComponents BitVec.extractLsb
  rw [BitVec.extractLsb'_append_eq_of_le (by decide), BitVec.extractLsb'_append_eq_of_le (by decide)]
  cases sign with
  | negative => rfl
  | positive => rfl

theorem finite_eq {sign : Sign} {m n : Nat} {d e : Int} {left : 0 < m} {right : 0 < n}
    (mantissa : m = n) (exponent : d = e) :
    UnpackedFloat.finite sign m d left = .finite sign n e right := by
  subst mantissa
  subst exponent
  rfl

/-- Packing keeps what is in the form in which doubles are unpacked. -/
theorem unpack_pack_finite {m : Nat} {e : Int} (form : Binary64 m e) (sign : Sign) :
    UnpackedFloat.unpack binary64
      (UnpackedFloat.pack binary64 (.finite sign m e form.positive)) =
        .finite sign m e form.positive := by
  have field : (e + binary64.exponentBias + binary64.mantissaBitsWithoutImplicit).toNat =
      (e + 1075).toNat := by
    rw [exponentBias_binary64]
    change (e + 1023 + 52).toNat = (e + 1075).toNat
    omega
  have least := form.least
  have most := form.most
  have fits := form.fits
  have room : ¬2 ^ binary64.exponentBits ≤ (e + 1075).toNat + 1 := by
    change ¬2 ^ 11 ≤ (e + 1075).toNat + 1
    omega
  delta UnpackedFloat.pack
  dsimp only
  rw [field, if_neg room]
  rcases Nat.lt_or_ge m (2 ^ 52) with subnormal | normal
  · have exponent : e = -1074 := form.tight.resolve_left (Nat.not_le_of_lt subnormal)
    have log : ¬m.log2 + 1 = binary64.mantissaBits := by
      have bits : m.log2 < 52 := (Nat.log2_lt form.positive.ne').mpr subnormal
      change ¬m.log2 + 1 = 53
      omega
    have value : (BitVec.ofNat 52 m).toNat = m := by
      rw [BitVec.toNat_ofNat, Nat.mod_eq_of_lt subnormal]
    have nonzero : BitVec.ofNat 52 m ≠ 0#52 := by
      intro zero
      have zero := congrArg BitVec.toNat zero
      rw [value] at zero
      exact form.positive.ne' zero
    subst exponent
    rw [if_neg log]
    unfold UnpackedFloat.unpack
    dsimp only
    rw [UnpackedFloat.unpackExponent_packComponents, if_neg (by decide), if_pos rfl,
      unpackSign_packComponents]
    rw [dif_neg (by rwa [UnpackedFloat.unpackMantissa_packComponents])]
    refine finite_eq ?_ rfl
    rw [UnpackedFloat.unpackMantissa_packComponents, value]
  · have log : m.log2 + 1 = binary64.mantissaBits := by
      have most : m.log2 < 53 := (Nat.log2_lt form.positive.ne').mpr fits
      have least : 52 ≤ m.log2 := (Nat.le_log2 form.positive.ne').mpr normal
      change m.log2 + 1 = 53
      omega
    have value : (1#1 ++ BitVec.ofNat 52 m).toNat = m := by
      rw [toNat_one_append, BitVec.toNat_ofNat]
      omega
    have exponent : (BitVec.ofNat 11 (e + 1075).toNat).toNat = (e + 1075).toNat := by
      rw [BitVec.toNat_ofNat, Nat.mod_eq_of_lt (by omega)]
    have notTop : BitVec.ofNat 11 (e + 1075).toNat ≠ -1#11 := by
      intro top
      have top := congrArg BitVec.toNat top
      rw [exponent] at top
      change (e + 1075).toNat = 2047 at top
      omega
    have notLeast : BitVec.ofNat 11 (e + 1075).toNat ≠ 0#11 := by
      intro zero
      have zero := congrArg BitVec.toNat zero
      rw [exponent] at zero
      change (e + 1075).toNat = 0 at zero
      omega
    rw [if_pos log]
    unfold UnpackedFloat.unpack
    dsimp only
    rw [UnpackedFloat.unpackExponent_packComponents, if_neg notTop, if_neg notLeast,
      unpackSign_packComponents]
    refine finite_eq ?_ ?_
    · rw [UnpackedFloat.unpackMantissa_packComponents, value]
    · rw [exponent, exponentBias_binary64]
      omega

theorem unpack_pack_zero (sign : Sign) :
    UnpackedFloat.unpack binary64 (UnpackedFloat.pack binary64 (.zero sign)) = .zero sign := by
  cases sign with
  | negative => rfl
  | positive => rfl

theorem unpack_pack_infinity (sign : Sign) :
    UnpackedFloat.unpack binary64 (UnpackedFloat.pack binary64 (.infinity sign)) =
      .infinity sign := by
  cases sign with
  | negative => rfl
  | positive => rfl

/-! ## The exact value -/

/-- A number with a sign. -/
def signed : Sign → ℚ → ℚ
  | .negative, q => -q
  | .positive, q => q

/-- The number that an unpacked double stands for, if it is finite. -/
def rationalOf? : UnpackedFloat → Option ℚ
  | .zero _ => some 0
  | .finite sign mantissa e _ => some (signed sign (mantissa * 2 ^ e))
  | .infinity _ | .notANumber => none

/-- The number that a double stands for, if it is finite. -/
def rational? (x : Float) : Option ℚ :=
  rationalOf? (UnpackedFloat.unpack binary64 x.toBits.toBitVec)

section Exact

variable {x : Float} {q : ℚ}

theorem isSome_rational? (x : Float) : (rational? x).isSome = x.isFinite := by
  change (rationalOf? (UnpackedFloat.unpack binary64 x.toBits.toBitVec)).isSome =
    (UnpackedFloat.unpack binary64 x.toBits.toBitVec).isFinite
  cases UnpackedFloat.unpack binary64 x.toBits.toBitVec with
  | infinity | notANumber | zero | finite => rfl

theorem rational?_of_unpack {sign : Sign} {m : Nat} {e : Int} {positive : 0 < m}
    (unpacked : UnpackedFloat.unpack binary64 x.toBits.toBitVec = .finite sign m e positive) :
    rational? x = some (signed sign (m * 2 ^ e)) :=
  congrArg rationalOf? unpacked

theorem Binary64.value_pos {m : Nat} {e : Int} (form : Binary64 m e) : (0 : ℚ) < m * 2 ^ e := by
  have mantissa : (0 : ℚ) < m := by exact_mod_cast form.positive
  exact mul_pos mantissa (zpow_pos (by norm_num) e)

/-- What a finite double is unpacked to: a zero, or a mantissa and an exponent. -/
theorem unpacked_of_exact (exact : rational? x = some q) :
    (q = 0 ∧ ∃ sign, UnpackedFloat.unpack binary64 x.toBits.toBitVec = .zero sign) ∨
      ∃ sign m e, ∃ form : Binary64 m e, q = signed sign (m * 2 ^ e) ∧
        UnpackedFloat.unpack binary64 x.toBits.toBitVec = .finite sign m e form.positive := by
  unfold rational? at exact
  cases unpacked : UnpackedFloat.unpack binary64 x.toBits.toBitVec with
  | infinity | notANumber =>
      rw [unpacked] at exact
      cases exact
  | zero sign =>
      rw [unpacked] at exact
      cases exact
      exact .inl ⟨rfl, sign, rfl⟩
  | finite sign m e positive =>
      rw [unpacked] at exact
      cases exact
      exact .inr ⟨sign, m, e, binary64_of_unpack unpacked, rfl, rfl⟩

theorem unpacked_of_zero (exact : rational? x = some 0) :
    ∃ sign, UnpackedFloat.unpack binary64 x.toBits.toBitVec = .zero sign := by
  rcases unpacked_of_exact exact with ⟨-, unpacked⟩ | ⟨sign, m, e, form, value, -⟩
  · exact unpacked
  · have positive := form.value_pos
    cases sign with
    | negative => exact absurd (neg_eq_zero.mp value.symm) positive.ne'
    | positive => exact absurd value positive.ne

theorem unpacked_of_nonzero (exact : rational? x = some q) (nonzero : q ≠ 0) :
    ∃ sign m e, ∃ form : Binary64 m e, |q| = m * 2 ^ e ∧
      UnpackedFloat.unpack binary64 x.toBits.toBitVec = .finite sign m e form.positive := by
  rcases unpacked_of_exact exact with ⟨zero, -⟩ | ⟨sign, m, e, form, rfl, unpacked⟩
  · exact absurd zero nonzero
  · refine ⟨sign, m, e, form, ?_, unpacked⟩
    cases sign with
    | negative => rw [signed, abs_neg, abs_of_pos form.value_pos]
    | positive => rw [signed, abs_of_pos form.value_pos]

theorem form_of_exact (exact : rational? x = some q) (nonzero : q ≠ 0) :
    ∃ m e, Binary64 m e ∧ |q| = m * 2 ^ e := by
  obtain ⟨_, m, e, form, value, -⟩ := unpacked_of_nonzero exact nonzero
  exact ⟨m, e, form, value⟩

theorem rational?_neg (x : Float) : rational? (-x) = (rational? x).map Neg.neg := by
  change rationalOf? (UnpackedFloat.unpack binary64
    (UnpackedFloat.pack binary64 (UnpackedFloat.unpack binary64 x.toBits.toBitVec).neg)) =
      (rationalOf? (UnpackedFloat.unpack binary64 x.toBits.toBitVec)).map Neg.neg
  cases unpacked : UnpackedFloat.unpack binary64 x.toBits.toBitVec with
  | notANumber => rfl
  | infinity sign =>
      change rationalOf? (UnpackedFloat.unpack binary64
        (UnpackedFloat.pack binary64 (.infinity (-sign)))) = _
      rw [unpack_pack_infinity]
      rfl
  | zero sign =>
      change rationalOf? (UnpackedFloat.unpack binary64
        (UnpackedFloat.pack binary64 (.zero (-sign)))) = _
      rw [unpack_pack_zero]
      rfl
  | finite sign m e positive =>
      have form := binary64_of_unpack unpacked
      change rationalOf? (UnpackedFloat.unpack binary64
        (UnpackedFloat.pack binary64 (.finite (-sign) m e form.positive))) = _
      rw [unpack_pack_finite form]
      cases sign with
      | negative => exact congrArg some (neg_neg _).symm
      | positive => rfl

/-! ## Formatting -/

theorem formatNumber_of_zero (exact : rational? x = some 0) : formatNumber x = "0" := by
  obtain ⟨sign, unpacked⟩ := unpacked_of_zero exact
  rw [formatNumber, unpacked]

/-- A finite number other than zero is formatted as its sign and its ten significant digits. -/
theorem formatNumber_of_exact (exact : rational? x = some q) (nonzero : q ≠ 0) :
    ∃ s : Significant, s.Normal ∧ s.value = toTenDigits |q| ∧
      (formatNumber x).toList = (if q < 0 then ['-'] else []) ++ s.chars := by
  rcases unpacked_of_exact exact with ⟨zero, -⟩ | ⟨sign, m, e, form, rfl, unpacked⟩
  · exact absurd zero nonzero
  · have positive := form.value_pos
    obtain ⟨normal, value⟩ := Significant.ofBinary_rounds form.positive e
    refine ⟨Significant.ofBinary m e, normal, ?_⟩
    rw [formatNumber, unpacked]
    cases sign with
    | negative =>
        have below : signed .negative (m * 2 ^ e) < 0 := neg_neg_of_pos positive
        rw [if_pos below, abs_of_neg below, signed, neg_neg]
        exact ⟨value, String.toList_ofList⟩
    | positive =>
        have above : 0 < signed .positive (m * 2 ^ e) := positive
        rw [if_neg above.not_gt, abs_of_pos above, signed]
        exact ⟨value, String.toList_ofList⟩

end Exact

end Worksheet
