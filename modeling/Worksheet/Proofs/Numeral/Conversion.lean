import Worksheet.Proofs.Numeral.Scanning

/-!
Converting a whole text to a double.

A library's conversion takes a text as a whole or refuses it. It splits the text at the first mark of an
exponent, and what is before the mark at the first point, and takes nothing but digits for the parts. Unlike a
scan it knows a sign and the names of numbers that are not finite. Every numeral is converted, to its value
(`Numeral.convert?_of_writtenAs`).
-/

namespace Worksheet

namespace Numeral

/-! ## The conversion -/

def isMark (c : Char) : Bool := c = 'e' || c = 'E'

/-- The exponent that a whole text is. -/
def exponentOf? (cs : List Char) : Option Int :=
  let (negative, digits) := scanSign cs
  if digits ≠ [] ∧ AllDigits digits then
    let n := Nat.ofDigitChars 10 digits 0
    some (if negative then -(n : Int) else n)
  else none

/-- The numeral that a whole text is. -/
def ofWhole? (cs : List Char) : Option Numeral :=
  let mantissa := cs.takeWhile fun c => !isMark c
  let whole := mantissa.takeWhile (· ≠ '.')
  let fraction := (mantissa.dropWhile (· ≠ '.')).drop 1
  if AllDigits whole ∧ AllDigits fraction ∧ (whole ≠ [] ∨ fraction ≠ []) then
    match cs.dropWhile fun c => !isMark c with
    | [] => some ⟨whole, fraction, 0⟩
    | _ :: exponent => (exponentOf? exponent).map (⟨whole, fraction, ·⟩)
  else none

/-- The double that a whole text is converted to: a numeral, or the name of a number that is not finite,
behind a sign or none. Names may be in either case. -/
def convert? (cs : List Char) : Option Float :=
  let (negative, unsigned) := scanSign cs
  let name := unsigned.map Char.toLower
  let magnitude :=
    if name = "inf".toList ∨ name = "infinity".toList then some (1.0 / 0.0)
    else if name = "nan".toList then some (0.0 / 0.0)
    else (ofWhole? unsigned).map value
  magnitude.map fun x => if negative then -x else x

/-! ## Numerals are converted -/

variable {n : Numeral} {text : List Char}

theorem isMark_of_isDigit {c : Char} (digit : c.isDigit = true) : isMark c = false := by
  rw [isMark, Bool.or_eq_false_iff, decide_eq_false_iff_not, decide_eq_false_iff_not]
  constructor
  · rintro rfl
    cases digit
  · rintro rfl
    cases digit

theorem FractionText.not_isMark {digits : List Char} (written : FractionText digits text) :
    ∀ c ∈ text, (!isMark c) = true := by
  cases written with
  | absent => nofun
  | present all =>
      refine List.forall_mem_cons.mpr ⟨rfl, fun c member => ?_⟩
      rw [isMark_of_isDigit (all c member), Bool.not_false]

theorem FractionText.allDigits {digits : List Char} (written : FractionText digits text) :
    AllDigits digits := by
  cases written with
  | absent => nofun
  | present all => exact all

/-- The fraction is what stands behind the point. -/
theorem FractionText.drop_one {digits : List Char} (written : FractionText digits text) :
    text.drop 1 = digits := by
  cases written with
  | absent | present => rfl

theorem ExponentText.head_isMark {e : Int} (written : ExponentText e text) :
    ∀ c, text.head? = some c → (!isMark c) = false := by
  intro c first
  cases written with
  | absent => cases first
  | present marked =>
      cases Option.some.inj first
      rcases marked with rfl | rfl
      · rfl
      · rfl

theorem exponentOf?_of_text {negative : Bool} {sign digits : List Char}
    (signText : SignText negative sign) (nonempty : digits ≠ []) (all : AllDigits digits) :
    exponentOf? (sign ++ digits) =
      some (if negative then -(Nat.ofDigitChars 10 digits 0 : Int) else Nat.ofDigitChars 10 digits 0) := by
  have signed : scanSign (sign ++ (digits ++ [])) = (negative, digits ++ []) :=
    scanSign_of_text signText nonempty all
  rw [List.append_nil] at signed
  unfold exponentOf?
  rw [signed]
  exact if_pos ⟨nonempty, all⟩

theorem ofWhole?_of_writtenAs (written : n.WrittenAs text) : ofWhole? text = some n := by
  cases written with
  | @intro fraction exponent whole fractionText exponentText mantissa =>
  have noMark : ∀ c ∈ n.whole ++ fraction, (!isMark c) = true := by
    refine List.forall_mem_append.mpr ⟨fun c member => ?_, fractionText.not_isMark⟩
    rw [isMark_of_isDigit (whole c member), Bool.not_false]
  have noPoint : ∀ c ∈ n.whole, decide (c ≠ '.') = true := by
    intro c member
    rw [decide_eq_true_iff]
    rintro rfl
    cases whole '.' member
  have point : ∀ c, fraction.head? = some c → decide (c ≠ '.') = false := by
    intro c first
    have alone : (fraction ++ []).head? = some c := by rwa [List.append_nil]
    rcases fractionText.head_append c alone with rfl | nothing
    · rfl
    · cases nothing
  have ends := exponentText.head_isMark
  have digits : AllDigits n.whole ∧ AllDigits n.fraction ∧ (n.whole ≠ [] ∨ n.fraction ≠ []) :=
    ⟨whole, fractionText.allDigits, mantissa⟩
  rw [← List.append_assoc]
  unfold ofWhole?
  dsimp only
  rw [Text.takeWhile_append_of_ends noMark ends, Text.dropWhile_append_of_ends noMark ends,
    Text.takeWhile_append_of_ends noPoint point, Text.dropWhile_append_of_ends noPoint point,
    fractionText.drop_one, if_pos digits]
  rcases n with ⟨ws, fs, e⟩
  cases exponentText with
  | absent => rfl
  | present marked signText nonempty all =>
      dsimp only
      rw [exponentOf?_of_text signText nonempty all]
      rfl

/-- Digits and points are the same in either case. -/
theorem toLower_of_isDigit {c : Char} (digit : c.isDigit = true ∨ c = '.') : c.toLower = c := by
  rcases digit with digit | rfl
  · obtain ⟨-, most⟩ := Char.isDigit_iff_toNat.mp digit
    apply dif_neg
    rintro ⟨upper, -⟩
    have least : 65 ≤ c.toNat := UInt32.le_iff_toNat_le.mp upper
    change c.toNat ≤ 57 at most
    omega
  · rfl

/-- A numeral begins with neither a sign nor a letter. -/
theorem convert?_of_writtenAs (written : n.WrittenAs text) : convert? text = some n.value := by
  have whole := ofWhole?_of_writtenAs written
  obtain ⟨c, cs, rfl, digit⟩ := written.exists_cons
  have noName {d : Char} {name : List Char} (letter : ¬ (d.isDigit = true ∨ d = '.')) :
      (c :: cs).map Char.toLower ≠ d :: name := by
    intro same
    have first := (List.cons.inj same).1
    rw [toLower_of_isDigit digit] at first
    exact letter (first ▸ digit)
  have finite : ¬ ((c :: cs).map Char.toLower = "inf".toList ∨
      (c :: cs).map Char.toLower = "infinity".toList) :=
    not_or.mpr ⟨noName (by decide), noName (by decide)⟩
  have number : (c :: cs).map Char.toLower ≠ "nan".toList := noName (by decide)
  unfold convert?
  rw [scanSign_of_digit digit]
  dsimp only
  rw [if_neg finite, if_neg number, whole]
  rfl

end Numeral

end Worksheet
