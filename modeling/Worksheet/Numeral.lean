import Worksheet.Text.Classes

/-!
Unsigned decimal numerals.

A numeral is a run of digits with an optional point and fraction, at least one digit in all, and an
optional exponent: `12`, `.5`, `3.`, `1e5`, `2.5E-3`. `Numeral.scan` reads the longest numeral that a
text starts with. `Numeral.value` is the double nearest to what the numeral denotes, and
`Numeral.literal?` reads a whole text as one signed number.
-/

namespace Worksheet

/-- The parts of a numeral: the digits before and after the point, and the exponent of ten. -/
structure Numeral where
  whole : List Char
  fraction : List Char
  exponent : Int
deriving DecidableEq, Repr

namespace Numeral

/-! ## Scanning -/

/-- The digits after a point, if the text starts with one, and what follows them. -/
def scanFraction : List Char → List Char × List Char
  | '.' :: cs => (cs.takeWhile Char.isDigit, cs.dropWhile Char.isDigit)
  | cs => ([], cs)

/-- Whether a minus sign stands in front, and what follows the sign, if there is one. -/
def scanSign : List Char → Bool × List Char
  | '-' :: cs => (true, cs)
  | '+' :: cs => (false, cs)
  | cs => (false, cs)

/-- The exponent, if the text starts with a complete one, and what follows it. A mark without
digits is no exponent and stays where it is. -/
def scanExponent : List Char → Int × List Char
  | [] => (0, [])
  | mark :: cs =>
    let (negative, digits) := scanSign cs
    if (mark = 'e' ∨ mark = 'E') ∧ digits.takeWhile Char.isDigit ≠ [] then
      let n := Nat.ofDigitChars 10 (digits.takeWhile Char.isDigit) 0
      (if negative then -(n : Int) else n, digits.dropWhile Char.isDigit)
    else (0, mark :: cs)

/-- The longest numeral that a text starts with, and what follows it. -/
def scan (cs : List Char) : Option (Numeral × List Char) :=
  let whole := cs.takeWhile Char.isDigit
  let (fraction, rest) := scanFraction (cs.dropWhile Char.isDigit)
  if whole = [] ∧ fraction = [] then none
  else
    let (exponent, rest) := scanExponent rest
    some (⟨whole, fraction, exponent⟩, rest)

/-! ## A scan advances -/

theorem length_dropWhile_le (p : Char → Bool) (cs : List Char) :
    (cs.dropWhile p).length ≤ cs.length :=
  (List.dropWhile_sublist p).length_le

theorem length_scanFraction_le (cs : List Char) : (scanFraction cs).2.length ≤ cs.length := by
  unfold scanFraction
  split
  · next cs =>
      have := length_dropWhile_le Char.isDigit cs
      simp only [List.length_cons]
      omega
  · exact Nat.le_refl _

/-- A fraction with digits takes the point along. -/
theorem length_scanFraction_lt {cs : List Char} (h : (scanFraction cs).1 ≠ []) :
    (scanFraction cs).2.length < cs.length := by
  unfold scanFraction at h ⊢
  split at h
  · next cs =>
      have := length_dropWhile_le Char.isDigit cs
      simp only [List.length_cons]
      omega
  · exact absurd rfl h

theorem length_scanSign_le (cs : List Char) : (scanSign cs).2.length ≤ cs.length := by
  unfold scanSign
  split <;> simp

theorem length_scanExponent_le (cs : List Char) : (scanExponent cs).2.length ≤ cs.length := by
  cases cs with
  | nil => exact Nat.le_refl _
  | cons mark cs =>
      simp only [scanExponent]
      split
      · have dropped := length_dropWhile_le Char.isDigit (scanSign cs).2
        have signed := length_scanSign_le cs
        simp only [List.length_cons]
        omega
      · exact Nat.le_refl _

/-- What follows a numeral is shorter than the text it was scanned from. -/
theorem length_lt_of_scan {cs rest : List Char} {n : Numeral} (h : scan cs = some (n, rest)) :
    rest.length < cs.length := by
  unfold scan at h
  dsimp only at h
  split at h
  · cases h
  · next digits =>
      simp only [Option.some.injEq, Prod.mk.injEq] at h
      obtain ⟨-, rfl⟩ := h
      have whole := congrArg List.length (List.takeWhile_append_dropWhile (p := Char.isDigit) (l := cs))
      have fraction := length_scanFraction_le (cs.dropWhile Char.isDigit)
      have exponent := length_scanExponent_le (scanFraction (cs.dropWhile Char.isDigit)).2
      rw [List.length_append] at whole
      by_cases none : cs.takeWhile Char.isDigit = []
      · have some := length_scanFraction_lt fun empty => digits ⟨none, empty⟩
        omega
      · have := List.length_pos_iff.mpr none
        omega

/-! ## Value -/

/-- The digits of a numeral as one natural number, the point left out. -/
def coefficient (n : Numeral) : Nat :=
  Nat.ofDigitChars 10 (n.whole ++ n.fraction) 0

/-- The power of ten by which the coefficient is scaled. -/
def scale (n : Numeral) : Int :=
  n.exponent - n.fraction.length

/-- The double nearest to `coefficient * 10 ^ scale`, infinite when that is too large. -/
def value (n : Numeral) : Float :=
  Float.ofScientific n.coefficient (n.scale < 0) n.scale.natAbs

/-! ## Literals -/

/-- Reads a whole text as a number: blanks around it, one optional sign, a numeral, and a finite
value. -/
def literal? (cs : List Char) : Option Float :=
  let (negative, unsigned) := scanSign (Text.trimBy Text.isBlank cs)
  match scan unsigned with
  | some (n, []) =>
    if n.value.isFinite then some (if negative then -n.value else n.value) else none
  | _ => none

end Numeral

end Worksheet
