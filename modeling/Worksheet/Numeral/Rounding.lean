/-!
Rounding a positive ratio to ten significant decimal digits.

`Significant.ofRatio` takes the exact value of `num / den`, finds the power of ten of its leading
digit and rounds to ten digits, a half going to the even neighbour. When rounding carries into the
next power of ten the exponent grows by one, so the leading digit is never zero.
-/

namespace Worksheet

/-- How many significant digits a displayed number has at most. -/
def significantDigits : Nat := 10

/-! ## Exact quotients -/

/-- The natural number nearest to `num / den`; a half goes to the even neighbour. -/
def roundHalfEven (num den : Nat) : Nat :=
  let below := num / den
  let twice := 2 * (num % den)
  if den < twice ∨ (den = twice ∧ below % 2 = 1) then below + 1 else below

/-- Numerator and denominator of `num / den * 10 ^ k`. -/
def scaleByTen (k : Int) (num den : Nat) : Nat × Nat :=
  if 0 ≤ k then (num * Nat.pow 10 k.toNat, den) else (num, den * Nat.pow 10 (-k).toNat)

/-- The number of decimal digits. -/
def digitCount (n : Nat) : Nat :=
  (Nat.toDigits 10 n).length

/-- The exponent `e` with `10 ^ e ≤ num / den < 10 ^ (e + 1)`. The digit counts leave two
candidates, and one comparison decides. -/
def leadingExponent (num den : Nat) : Int :=
  let e : Int := (digitCount num : Int) - digitCount den
  let (n, d) := scaleByTen (-e) num den
  if d ≤ n then e else e - 1

/-! ## Ten significant digits -/

/-- A positive number with ten significant digits: `coefficient * 10 ^ (exponent - 9)`. -/
structure Significant where
  coefficient : Nat
  exponent : Int
deriving DecidableEq, Repr

namespace Significant

/-- Rounds `num / den` to ten significant digits. -/
def ofRatio (num den : Nat) : Significant :=
  let e := leadingExponent num den
  let (n, d) := scaleByTen (significantDigits - 1 - e) num den
  let c := roundHalfEven n d
  if c = Nat.pow 10 significantDigits then ⟨Nat.pow 10 (significantDigits - 1), e + 1⟩ else ⟨c, e⟩

/-- Rounds `mantissa * 2 ^ e` to ten significant digits. -/
def ofBinary (mantissa : Nat) (e : Int) : Significant :=
  if 0 ≤ e then ofRatio (mantissa * Nat.pow 2 e.toNat) 1
  else ofRatio mantissa (Nat.pow 2 (-e).toNat)

end Significant

end Worksheet
