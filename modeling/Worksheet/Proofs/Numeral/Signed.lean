import Worksheet.Proofs.Numeral.Scientific

/-!
Signs.

A finite double is determined by its sign and the number that it stands for (`eq_of_exact`); the sign tells
the two zeros apart. Numerals have no sign of their own, so that their values are positive even where they
are rounded to zero (`Numeral.signOf_value`), and a minus sign turns just the sign around (`signOf_neg`).
-/

namespace Worksheet

open Float.Model (UnpackedFloat totalExponent)
open Float.Model.UnpackedFloat
open Float.Model.Format (binary64)

/-! ## The sign of a double -/

/-- The word that a double is stored in. -/
def bitsOf (x : Float) : BitVec binary64.numBits :=
  x.toBits.toBitVec

/-- The sign of a double; zeros have one as well. -/
def signOf (x : Float) : Sign :=
  .ofBitVec (unpackSign (bitsOf x))

/-- The sign of an unpacked double. -/
def signOf? : UnpackedFloat → Option Sign
  | .zero sign | .infinity sign | .finite sign _ _ _ => some sign
  | .notANumber => none

theorem signOf_of_unpack {x : Float} {sign : Sign}
    (known : signOf? (UnpackedFloat.unpack binary64 (bitsOf x)) = some sign) : signOf x = sign := by
  have fields := fields_unpack (bitsOf x)
  generalize UnpackedFloat.unpack binary64 (bitsOf x) = u at fields known
  cases fields with
  | notANumber => cases known
  | infinity same | zero same | finite _ same => exact same.trans (Option.some.inj known)

/-- Packing keeps the sign, also of what has no room. -/
theorem unpackSign_pack {u : UnpackedFloat} {sign : Sign} (known : signOf? u = some sign) :
    Sign.ofBitVec (unpackSign (UnpackedFloat.pack binary64 u)) = sign := by
  have infinite (sign : Sign) :
      Sign.ofBitVec (unpackSign (UnpackedFloat.pack binary64 (.infinity sign))) = sign := by
    cases sign with
    | negative | positive => rfl
  cases u with
  | notANumber => cases known
  | infinity =>
      cases known
      exact infinite sign
  | zero =>
      cases known
      cases sign with
      | negative | positive => rfl
  | finite _ m e positive =>
      cases known
      delta UnpackedFloat.pack
      dsimp only
      split
      · exact infinite sign
      split
      · exact unpackSign_packComponents sign _ _
      · exact unpackSign_packComponents sign _ _

theorem signOf?_of_exact {x : Float} {q : ℚ} (exact : rational? x = some q) :
    signOf? (UnpackedFloat.unpack binary64 (bitsOf x)) = some (signOf x) := by
  have known : ∃ sign, signOf? (UnpackedFloat.unpack binary64 (bitsOf x)) = some sign := by
    rcases unpacked_of_exact exact with ⟨-, sign, unpacked⟩ | ⟨sign, m, e, form, -, unpacked⟩
    · exact ⟨sign, congrArg signOf? unpacked⟩
    · exact ⟨sign, congrArg signOf? unpacked⟩
  obtain ⟨sign, known⟩ := known
  rw [signOf_of_unpack known, known]

theorem signOf_neg {x : Float} {q : ℚ} (exact : rational? x = some q) : signOf (-x) = -signOf x := by
  have known := signOf?_of_exact exact
  have turned : signOf? (UnpackedFloat.unpack binary64 (bitsOf x)).neg = some (-signOf x) := by
    revert known
    cases UnpackedFloat.unpack binary64 (bitsOf x) with
    | notANumber => nofun
    | zero sign | infinity sign | finite sign => exact congrArg (Option.map Neg.neg)
  exact unpackSign_pack turned

/-! ## A double has no more than its sign and its number -/

theorem toNat_unpackExponent (b : BitVec binary64.numBits) :
    (unpackExponent b).toNat = b.toNat / 2 ^ 52 % 2 ^ 11 := by
  unfold unpackExponent
  rw [BitVec.toNat_cast, BitVec.extractLsb_toNat, Nat.shiftRight_eq_div_pow]
  rfl

theorem toNat_unpackMantissa (b : BitVec binary64.numBits) :
    (unpackMantissa b).toNat = b.toNat % 2 ^ 52 := by
  unfold unpackMantissa
  rw [BitVec.toNat_cast, BitVec.extractLsb_toNat, Nat.shiftRight_eq_div_pow]
  exact congrArg (· % 2 ^ 52) (Nat.div_one b.toNat)

theorem toNat_unpackSign (b : BitVec binary64.numBits) : (unpackSign b).toNat = b.toNat / 2 ^ 63 := by
  have room : b.toNat < 2 ^ 64 := b.isLt
  unfold unpackSign
  rw [BitVec.toNat_cast, BitVec.extractLsb_toNat, Nat.shiftRight_eq_div_pow]
  change b.toNat / 2 ^ 63 % 2 ^ 1 = _
  omega

theorem toBitVec_ofBitVec (v : BitVec 1) : (Sign.ofBitVec v).toBitVec = v := by
  revert v
  decide

theorem bits_eq {b c : BitVec binary64.numBits}
    (sign : Sign.ofBitVec (unpackSign b) = Sign.ofBitVec (unpackSign c))
    (exponent : (unpackExponent b).toNat = (unpackExponent c).toNat)
    (mantissa : (unpackMantissa b).toNat = (unpackMantissa c).toNat) : b = c := by
  have sign := congrArg (BitVec.toNat ∘ Sign.toBitVec) sign
  rw [Function.comp, Function.comp, toBitVec_ofBitVec, toBitVec_ofBitVec, toNat_unpackSign,
    toNat_unpackSign] at sign
  rw [toNat_unpackExponent, toNat_unpackExponent] at exponent
  rw [toNat_unpackMantissa, toNat_unpackMantissa] at mantissa
  refine BitVec.eq_of_toNat_eq ?_
  omega

theorem eq_of_bits {x y : Float} (same : bitsOf x = bitsOf y) : x = y := by
  rcases x with ⟨⟨b, _⟩⟩
  rcases y with ⟨⟨c, _⟩⟩
  obtain rfl : b = c := UInt64.toBitVec_inj.mp same
  rfl

/-- A finite double is determined by its sign and its number. -/
theorem eq_of_exact {x y : Float} {q : ℚ} (left : rational? x = some q) (right : rational? y = some q)
    (sign : signOf x = signOf y) : x = y := by
  refine eq_of_bits ?_
  have fieldsLeft := fields_unpack (bitsOf x)
  have fieldsRight := fields_unpack (bitsOf y)
  by_cases zero : q = 0
  · obtain ⟨_, unpackedLeft⟩ := unpacked_of_zero (zero ▸ left)
    obtain ⟨_, unpackedRight⟩ := unpacked_of_zero (zero ▸ right)
    obtain ⟨exponent, mantissa⟩ := (unpackedLeft ▸ fieldsLeft).of_zero
    obtain ⟨exponent', mantissa'⟩ := (unpackedRight ▸ fieldsRight).of_zero
    exact bits_eq sign (exponent.trans exponent'.symm) (mantissa.trans mantissa'.symm)
  · obtain ⟨_, m, d, formLeft, value, unpackedLeft⟩ := unpacked_of_nonzero left zero
    obtain ⟨_, n, e, formRight, value', unpackedRight⟩ := unpacked_of_nonzero right zero
    obtain ⟨rfl, rfl⟩ := formLeft.eq_of_value formRight (value.symm.trans value')
    obtain ⟨exponent, mantissa⟩ := (unpackedLeft ▸ fieldsLeft).of_finite
    obtain ⟨exponent', mantissa'⟩ := (unpackedRight ▸ fieldsRight).of_finite
    exact bits_eq sign (exponent.trans exponent'.symm) (mantissa.trans mantissa'.symm)

/-! ## Numerals have no sign -/

theorem signOf?_roundWithAccuracy (m : Nat) (e : Int) (accuracy : Accuracy) :
    signOf? (roundWithAccuracy binary64 .positive m e accuracy) = some .positive := by
  have rounded (m : Nat) (e : Int) : signOf? (ofMantissa m e) = some .positive := by
    unfold ofMantissa
    by_cases none : m = 0
    · rw [dif_pos none]
      rfl
    · rw [dif_neg none]
      rfl
  exact rounded _ _

/-- Zero, or a number above zero. -/
def Unsigned (u : UnpackedFloat) : Prop :=
  u = .zero .positive ∨ ∃ m e positive, u = .finite .positive m e positive

section Unsigned

variable {u : UnpackedFloat} (without : Unsigned u) {n : Nat} (above : 0 < n) (d : Int)

include without

theorem signOf?_mul :
    signOf? (UnpackedFloat.mul binary64 u (.finite .positive n d above)) = some .positive := by
  rcases without with rfl | ⟨m, e, positive, rfl⟩
  · rfl
  · exact signOf?_roundWithAccuracy _ _ _

theorem signOf?_div :
    signOf? (UnpackedFloat.div binary64 u (.finite .positive n d above)) = some .positive := by
  rcases without with rfl | ⟨m, e, positive, rfl⟩
  · rfl
  · exact signOf?_roundWithAccuracy _ _ _

end Unsigned

theorem signOf?_ofScientific (c : Nat) (s : Int) :
    signOf? (UnpackedFloat.ofScientific binary64 c s) = some .positive := by
  delta UnpackedFloat.ofScientific
  by_cases none : c = 0
  · rw [dif_pos none]
    rfl
  rw [dif_neg none]
  by_cases large : s > 2 ^ binary64.exponentBits
  · rw [if_pos large]
    rfl
  rw [if_neg large]
  by_cases small : s < -(2 ^ binary64.exponentBits + (c.log2 : ℤ))
  · rw [if_pos small]
    rfl
  rw [if_neg small]
  by_cases nonneg : 0 ≤ s
  · rw [if_pos nonneg]
    exact signOf?_mul (.inr ⟨_, _, _, rfl⟩) _ _
  · rw [if_neg nonneg]
    exact signOf?_div (.inr ⟨_, _, _, rfl⟩) _ _

theorem unsigned_toFloat {c : Nat} (fits : c < 2 ^ 53) :
    Unsigned (UnpackedFloat.unpack binary64 (bitsOf c.toUInt64.toFloat)) := by
  rcases Nat.eq_zero_or_pos c with rfl | positive
  · exact .inl rfl
  · have above : (0 : ℚ) < c := by exact_mod_cast positive
    obtain ⟨m, e, form, -, unpacked⟩ := unpacked_of_positive (rational?_toFloat positive fits) above
    exact .inr ⟨m, e, form.positive, unpacked⟩

/-- Powers of ten are looked up as doubles above zero. -/
theorem unpacked_power (k : Fin Float.exactlyRepresentablePowersOfTen.size) :
    ∃ m e positive, UnpackedFloat.unpack binary64 (bitsOf Float.exactlyRepresentablePowersOfTen[k]) =
      .finite .positive m e positive := by
  have ten : (0 : ℚ) < 10 ^ k.val := pow_pos (by norm_num) _
  obtain ⟨m, e, form, -, unpacked⟩ :=
    unpacked_of_positive (rational?_of_isPowerOfTen (isPowerOfTen_table k)) ten
  exact ⟨m, e, form.positive, unpacked⟩

theorem signOf_ofScientific (c : Nat) (negative : Bool) (k : Nat) :
    signOf (Float.ofScientific c negative k) = .positive := by
  unfold Float.ofScientific
  split
  · next fits =>
      have whole := unsigned_toFloat fits.1
      obtain ⟨n, d, above, power⟩ := unpacked_power ⟨k, Nat.lt_succ_of_le fits.2⟩
      have product := signOf?_mul whole above d
      have quotient := signOf?_div whole above d
      rw [← power] at product quotient
      dsimp only
      split
      · exact unpackSign_pack quotient
      · exact unpackSign_pack product
  · exact unpackSign_pack (signOf?_ofScientific c _)

section Zero

variable {x y : Float} (zero : UnpackedFloat.unpack binary64 (bitsOf x) = .zero .positive)
  {n : Nat} {d : Int} {above : 0 < n}
  (finite : UnpackedFloat.unpack binary64 (bitsOf y) = .finite .positive n d above)

include zero finite

theorem rational?_zero_mul : rational? (x * y) = some 0 := by
  change packed? (UnpackedFloat.mul binary64 (UnpackedFloat.unpack binary64 (bitsOf x))
    (UnpackedFloat.unpack binary64 (bitsOf y))) = _
  rw [zero, finite]
  exact packed?_zero .positive

theorem rational?_zero_div : rational? (x / y) = some 0 := by
  change packed? (UnpackedFloat.div binary64 (UnpackedFloat.unpack binary64 (bitsOf x))
    (UnpackedFloat.unpack binary64 (bitsOf y))) = _
  rw [zero, finite]
  exact packed?_zero .positive

end Zero

theorem rational?_ofScientific_zero (negative : Bool) (k : Nat) :
    rational? (Float.ofScientific 0 negative k) = some 0 := by
  unfold Float.ofScientific
  split
  · next fits =>
      obtain ⟨n, d, above, power⟩ := unpacked_power ⟨k, Nat.lt_succ_of_le fits.2⟩
      have zero : UnpackedFloat.unpack binary64 (bitsOf (0 : Nat).toUInt64.toFloat) =
        .zero .positive := rfl
      dsimp only
      split
      · exact rational?_zero_div zero power
      · exact rational?_zero_mul zero power
  · exact packed?_zero .positive

theorem toBinary_zero : toBinary 0 = 0 := by
  have zero : nearestEven 0 = 0 := by
    rw [nearestEven_eq_iff]
    exact ⟨by norm_num, fun _ => by decide⟩
  rw [toBinary, roundTo, zero_div, zero, Int.cast_zero, zero_mul]

namespace Numeral

theorem signOf_value (n : Numeral) : signOf n.value = .positive :=
  signOf_ofScientific _ _ _

/-- What a numeral denotes is rounded, be it zero or not. -/
theorem rational?_value_eq (n : Numeral) : rational? n.value = binary? n.denoted := by
  rcases Nat.eq_zero_or_pos n.coefficient with none | positive
  · rw [value, denoted, none, rational?_ofScientific_zero, Nat.cast_zero, zero_mul, binary?, toBinary_zero,
      if_pos (zpow_two_pos 1024)]
  · exact rational?_value positive

end Numeral

end Worksheet
