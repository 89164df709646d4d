import Worksheet.Numeral.Rounding

/-!
The text of a number.

A number is shown with at most ten significant digits and no trailing zeros. Its rounded value
decides the form: scientific when the exponent is below -4 or at least 10, fixed otherwise. Zero of
either sign is `0`, and the values that are no numbers have markers of their own.
-/

namespace Worksheet

/-! ## Digits -/

/-- Drops the zeros at the end. -/
def dropTrailingZeros (digits : List Char) : List Char :=
  (digits.reverse.dropWhile (· = '0')).reverse

/-- A whole part and a fraction; a fraction without digits takes no point. -/
def joinPoint (whole fraction : List Char) : List Char :=
  if fraction.isEmpty then whole else whole ++ '.' :: fraction

/-! ## The two forms -/

namespace Significant

/-- The least exponent written in fixed form. -/
def leastFixedExponent : Int := -4

/-- The digits of the coefficient. -/
def digits (s : Significant) : List Char :=
  Nat.toDigits 10 s.coefficient

/-- A number is written in scientific form when its exponent leaves the fixed range. -/
def isScientific (s : Significant) : Bool :=
  s.exponent < leastFixedExponent || significantDigits ≤ s.exponent

/-- The exponent's mark, sign and at least two digits. -/
def exponentText (e : Int) : List Char :=
  let digits := Nat.toDigits 10 e.natAbs
  'e' :: (if e < 0 then '-' else '+') :: (if digits.length < 2 then '0' :: digits else digits)

/-- One digit, the point, the other digits and the exponent. -/
def scientific (s : Significant) : List Char :=
  joinPoint (s.digits.take 1) (dropTrailingZeros (s.digits.drop 1)) ++ exponentText s.exponent

/-- Positional notation: the point stands where the exponent puts it. -/
def fixed (s : Significant) : List Char :=
  if 0 ≤ s.exponent then
    let whole := s.exponent.toNat + 1
    joinPoint (s.digits.take whole) (dropTrailingZeros (s.digits.drop whole))
  else
    joinPoint ['0']
      (dropTrailingZeros (List.replicate ((-s.exponent).toNat - 1) '0' ++ s.digits))

/-- The text of a rounded number. -/
def chars (s : Significant) : List Char :=
  if s.isScientific then s.scientific else s.fixed

end Significant

/-! ## Numbers -/

open Float.Model in
/-- The text of a double, with a minus sign in front of a negative one. -/
def formatNumber (x : Float) : String :=
  match UnpackedFloat.unpack .binary64 x.toBits.toBitVec with
  | .notANumber => "#NAN!"
  | .infinity _ => "#INF!"
  | .zero _ => "0"
  | .finite .negative mantissa e _ =>
    String.ofList ('-' :: (Significant.ofBinary mantissa e).chars)
  | .finite .positive mantissa e _ =>
    String.ofList (Significant.ofBinary mantissa e).chars

end Worksheet
