import Mathlib.Data.List.DropRight
import Worksheet.Proofs.Numeral.Exact
import Worksheet.Proofs.Numeral.Scanning

/-!
What a displayed number denotes.

A displayed number is a numeral in one of two forms (`Numeral.DisplayedAs`), neither with a zero at the end
of its fraction nor with a point at its end. Both forms denote the ten digits that the number was rounded
to, since a dropped zero takes a digit off the coefficient and one off the scale
(`Numeral.denoted_dropTrailingZeros`). `formatNumber_displays` puts this together for doubles.
-/

namespace Worksheet

open Float.Model (UnpackedFloat)
open Float.Model.Format (binary64)

namespace Numeral

/-! ## Denotation -/

/-- The number that a numeral denotes. -/
def denoted (n : Numeral) : ℚ :=
  n.coefficient * 10 ^ n.scale

/-- Dropped zeros, and what is left without one at its end. -/
theorem exists_dropTrailingZeros (digits : List Char) :
    (∃ count, digits = dropTrailingZeros digits ++ List.replicate count '0') ∧
      (dropTrailingZeros digits).getLast? ≠ some '0' := by
  constructor
  · refine ⟨(digits.reverse.takeWhile (· = '0')).length, ?_⟩
    have zeros : (digits.reverse.takeWhile (· = '0')).reverse =
        List.replicate (digits.reverse.takeWhile (· = '0')).length '0' := by
      refine List.eq_replicate_iff.mpr ⟨List.length_reverse, fun c member => ?_⟩
      have zero := List.mem_takeWhile_imp (List.mem_reverse.mp member)
      exact of_decide_eq_true zero
    rw [← zeros, dropTrailingZeros, ← List.reverse_append, List.takeWhile_append_dropWhile,
      List.reverse_reverse]
  · intro last
    have first : (digits.reverse.dropWhile (· = '0')).head? = some '0' := by
      rw [dropTrailingZeros, List.getLast?_reverse] at last
      exact last
    have stops := List.head?_dropWhile_not (· = '0') digits.reverse
    rw [first] at stops
    cases stops

/-- A numeral denotes the same without the zeros at the end of its fraction. -/
theorem denoted_dropTrailingZeros (whole fraction : List Char) (exponent : Int) :
    denoted ⟨whole, dropTrailingZeros fraction, exponent⟩ = denoted ⟨whole, fraction, exponent⟩ := by
  obtain ⟨⟨count, split⟩, -⟩ := exists_dropTrailingZeros fraction
  have coefficient : Nat.ofDigitChars 10 (whole ++ fraction) 0 =
      10 ^ count * Nat.ofDigitChars 10 (whole ++ dropTrailingZeros fraction) 0 := by
    conv_lhs => rw [split, ← List.append_assoc, Nat.ofDigitChars_append]
    exact Nat.ofDigitChars_replicate_zero
  have length : fraction.length = (dropTrailingZeros fraction).length + count := by
    conv_lhs => rw [split, List.length_append, List.length_replicate]
  unfold denoted Numeral.coefficient scale
  dsimp only
  rw [coefficient, length]
  push_cast
  rw [mul_right_comm, ← zpow_natCast (10 : ℚ) count, ← zpow_add₀ (by norm_num), mul_comm]
  congr 2
  omega

/-! ## The two forms -/

/-- A whole part with the fraction behind a point, which does not end in a zero. Without a fraction there is
no point. -/
inductive TrimmedText (whole : List Char) : List Char → List Char → Prop
  | whole : TrimmedText whole [] whole
  | fraction {digits : List Char} : digits ≠ [] → digits.getLast? ≠ some '0' →
    TrimmedText whole digits (whole ++ '.' :: digits)

/-- How a number with the exponent `e` is displayed. In fixed form no zero leads the whole part, unless it
is zero; in scientific form one digit stands in front of the point, and two at least in the exponent. -/
inductive DisplayedAs (n : Numeral) (e : Int) : List Char → Prop
  | fixed {text : List Char} :
    -4 ≤ e → e < 10 → n.whole = ['0'] ∨ n.whole.head? ≠ some '0' → n.exponent = 0 →
    TrimmedText n.whole n.fraction text → DisplayedAs n e text
  | scientific {text digits : List Char} {digit : Char} :
    e < -4 ∨ 10 ≤ e → n.whole = [digit] → digit ≠ '0' → n.exponent = e →
    AllDigits digits → 2 ≤ digits.length → Nat.ofDigitChars 10 digits 0 = e.natAbs →
    TrimmedText n.whole n.fraction text →
    DisplayedAs n e (text ++ 'e' :: (if e < 0 then '-' else '+') :: digits)

/-- The point and the fraction, if there is one. -/
def pointText (fraction : List Char) : List Char :=
  if fraction.isEmpty then [] else '.' :: fraction

theorem joinPoint_eq (whole fraction : List Char) :
    joinPoint whole fraction = whole ++ pointText fraction := by
  unfold joinPoint pointText
  split
  · exact (List.append_nil whole).symm
  · rfl

theorem fractionText_pointText {fraction : List Char} (all : AllDigits fraction) :
    FractionText fraction (pointText fraction) := by
  cases fraction with
  | nil => exact .absent
  | cons c cs => exact .present all

theorem trimmedText_joinPoint (whole fraction : List Char) :
    TrimmedText whole (dropTrailingZeros fraction)
      (joinPoint whole (dropTrailingZeros fraction)) := by
  obtain ⟨-, trimmed⟩ := exists_dropTrailingZeros fraction
  unfold joinPoint
  cases empty : (dropTrailingZeros fraction).isEmpty with
  | true =>
      rw [List.isEmpty_iff] at empty
      rw [empty]
      exact .whole
  | false =>
      refine .fraction ?_ trimmed
      rwa [← List.isEmpty_eq_false_iff]

theorem allDigits_dropTrailingZeros {digits : List Char} (all : AllDigits digits) :
    AllDigits (dropTrailingZeros digits) := by
  obtain ⟨⟨count, split⟩, -⟩ := exists_dropTrailingZeros digits
  intro c member
  exact all c (split ▸ List.mem_append_left _ member)

/-- A numeral written from its parts, without the zeros at the end of its fraction. -/
theorem writtenAs_joinPoint {whole fraction text : List Char} {exponent : Int}
    (allWhole : AllDigits whole) (nonempty : whole ≠ []) (allFraction : AllDigits fraction)
    (exponentText : ExponentText exponent text) :
    WrittenAs ⟨whole, dropTrailingZeros fraction, exponent⟩
      (joinPoint whole (dropTrailingZeros fraction) ++ text) := by
  rw [joinPoint_eq, List.append_assoc]
  exact .intro allWhole (fractionText_pointText (allDigits_dropTrailingZeros allFraction))
    exponentText (.inl nonempty)

theorem allDigits_toDigits_ten (n : Nat) : AllDigits (Nat.toDigits 10 n) :=
  fun _ member => Nat.isDigit_of_mem_toDigits (by decide) (by decide) member

theorem ofDigitChars_lt {digits : List Char} (all : AllDigits digits) (init : Nat) :
    Nat.ofDigitChars 10 digits init < (init + 1) * 10 ^ digits.length := by
  induction digits generalizing init with
  | nil =>
      rw [Nat.ofDigitChars_nil, List.length_nil, pow_zero, mul_one]
      exact Nat.lt_succ_self init
  | cons c cs ih =>
      obtain ⟨-, nine⟩ := Char.isDigit_iff_toNat.mp (all c List.mem_cons_self)
      have rest := ih (fun d member => all d (List.mem_cons_of_mem c member))
        (10 * init + (c.toNat - '0'.toNat))
      rw [Nat.ofDigitChars_cons, List.length_cons, pow_succ]
      refine lt_of_lt_of_le rest ?_
      have value : 10 * init + (c.toNat - '0'.toNat) + 1 ≤ (init + 1) * 10 := by
        change c.toNat ≤ 57 at nine
        change 10 * init + (c.toNat - 48) + 1 ≤ (init + 1) * 10
        omega
      calc (10 * init + (c.toNat - '0'.toNat) + 1) * 10 ^ cs.length
          ≤ (init + 1) * 10 * 10 ^ cs.length := Nat.mul_le_mul_right _ value
        _ = (init + 1) * (10 ^ cs.length * 10) := by ring

/-! ## The exponent -/

/-- The digits of an exponent, of which there are two at least. -/
def exponentDigits (e : Int) : List Char :=
  let digits := Nat.toDigits 10 e.natAbs
  if digits.length < 2 then '0' :: digits else digits

theorem exponentText_eq (e : Int) :
    Significant.exponentText e = 'e' :: (if e < 0 then '-' else '+') :: exponentDigits e :=
  rfl

theorem exponentDigits_spec (e : Int) : AllDigits (exponentDigits e) ∧
    2 ≤ (exponentDigits e).length ∧ Nat.ofDigitChars 10 (exponentDigits e) 0 = e.natAbs := by
  have all := allDigits_toDigits_ten e.natAbs
  have some : 0 < (Nat.toDigits 10 e.natAbs).length := Nat.length_toDigits_pos
  unfold exponentDigits
  dsimp only
  split
  · refine ⟨List.forall_mem_cons.mpr ⟨rfl, all⟩, Nat.succ_le_succ some, ?_⟩
    rw [Nat.ofDigitChars_cons]
    exact Nat.ofDigitChars_ten_toDigits
  · next long => exact ⟨all, Nat.le_of_not_lt long, Nat.ofDigitChars_ten_toDigits⟩

theorem exponentText_exponentDigits (e : Int) :
    ExponentText e ('e' :: (if e < 0 then '-' else '+') :: exponentDigits e) := by
  obtain ⟨all, two, value⟩ := exponentDigits_spec e
  have nonempty : exponentDigits e ≠ [] := List.length_pos_iff.mp (Nat.lt_of_lt_of_le (by decide) two)
  by_cases negative : e < 0
  · have text := ExponentText.present (.inl rfl) .minus nonempty all
    rw [value, if_pos rfl, show -(e.natAbs : Int) = e by omega] at text
    rwa [if_pos negative]
  · have text := ExponentText.present (.inl rfl) .plus nonempty all
    rw [value, if_neg Bool.false_ne_true, show (e.natAbs : Int) = e by omega] at text
    rwa [if_neg negative]

end Numeral

/-! ## Ten digits -/

namespace Significant

open Numeral

theorem allDigits_digits (s : Significant) : AllDigits s.digits :=
  allDigits_toDigits_ten s.coefficient

theorem ofDigitChars_digits (s : Significant) : Nat.ofDigitChars 10 s.digits 0 = s.coefficient :=
  Nat.ofDigitChars_ten_toDigits

section Normal

variable {s : Significant} (normal : s.Normal)

include normal

theorem Normal.length_digits : s.digits.length = 10 := by
  have most : s.digits.length ≤ 10 :=
    (Nat.length_toDigits_le_iff (by decide) (by decide)).mpr normal.most
  have least : ¬s.digits.length ≤ 9 := fun short =>
    absurd ((Nat.length_toDigits_le_iff (by decide) (by decide)).mp short)
      (Nat.not_lt_of_le normal.least)
  omega

/-- A number whose first digit were zero would have fewer digits. -/
theorem Normal.exists_digits : ∃ c cs, s.digits = c :: cs ∧ c ≠ '0' ∧ cs.length = 9 := by
  have length := normal.length_digits
  cases digits : s.digits with
  | nil =>
      rw [digits] at length
      cases length
  | cons c cs =>
      rw [digits] at length
      have nine : cs.length = 9 := Nat.succ.inj length
      refine ⟨c, cs, rfl, ?_, nine⟩
      rintro rfl
      have value := s.ofDigitChars_digits
      rw [digits, Nat.ofDigitChars_cons] at value
      have all : AllDigits cs := fun d member =>
        s.allDigits_digits d (digits ▸ List.mem_cons_of_mem _ member)
      have small := ofDigitChars_lt all 0
      rw [nine] at small
      exact absurd normal.least (Nat.not_le_of_lt (value ▸ small))

end Normal

/-- A numeral whose digits are those of the number, with enough of them in the fraction. -/
theorem denoted_eq_value {s : Significant} {whole fraction : List Char} {exponent : Int}
    (digits : Nat.ofDigitChars 10 (whole ++ fraction) 0 = s.coefficient)
    (places : exponent - fraction.length = s.exponent - 9) :
    denoted ⟨whole, dropTrailingZeros fraction, exponent⟩ = s.value := by
  rw [denoted_dropTrailingZeros]
  unfold denoted Numeral.coefficient scale value lastPlace
  dsimp only
  rw [digits, places]

theorem Normal.displayed {s : Significant} (normal : s.Normal) :
    ∃ n : Numeral, n.WrittenAs s.chars ∧ n.DisplayedAs s.exponent s.chars ∧ n.denoted = s.value := by
  obtain ⟨c, cs, digits, nonzero, nine⟩ := normal.exists_digits
  have coefficient := s.ofDigitChars_digits
  have all := s.allDigits_digits
  unfold chars
  cases form : s.isScientific with
  | true =>
      have range : s.exponent < -4 ∨ 10 ≤ s.exponent := by
        rw [isScientific, Bool.or_eq_true, decide_eq_true_iff, decide_eq_true_iff] at form
        exact form
      obtain ⟨allExponent, two, value⟩ := exponentDigits_spec s.exponent
      have allTail : AllDigits cs := fun d member => all d (digits ▸ List.mem_cons_of_mem c member)
      have allHead : AllDigits [c] := List.forall_mem_singleton.mpr
        (all c (digits ▸ List.mem_cons_self))
      refine ⟨⟨[c], dropTrailingZeros cs, s.exponent⟩, ?_, ?_, ?_⟩
      · rw [if_pos rfl, scientific, digits]
        exact writtenAs_joinPoint allHead (List.cons_ne_nil _ _) allTail
          (exponentText_exponentDigits s.exponent)
      · rw [if_pos rfl, scientific, digits]
        exact .scientific range rfl nonzero rfl allExponent two value (trimmedText_joinPoint [c] cs)
      · refine denoted_eq_value ?_ ?_
        · rw [← coefficient, digits]
          rfl
        · rw [nine]
          rfl
  | false =>
      have range : -4 ≤ s.exponent ∧ s.exponent < 10 := by
        rw [isScientific, Bool.or_eq_false_iff, decide_eq_false_iff_not, decide_eq_false_iff_not,
          not_lt, not_le] at form
        exact form
      rw [if_neg Bool.false_ne_true, fixed]
      split
      · next nonneg =>
          let places := s.exponent.toNat + 1
          have long := normal.length_digits
          have first : s.digits.take places = c :: cs.take s.exponent.toNat := by
            rw [digits, List.take_succ_cons]
          refine ⟨⟨s.digits.take places, dropTrailingZeros (s.digits.drop places), 0⟩, ?_, ?_, ?_⟩
          · have allWhole : AllDigits (s.digits.take places) := fun d member =>
              all d (List.mem_of_mem_take member)
            have allFraction : AllDigits (s.digits.drop places) := fun d member =>
              all d (List.mem_of_mem_drop member)
            have written := writtenAs_joinPoint allWhole (first ▸ List.cons_ne_nil _ _) allFraction
              ExponentText.absent
            rwa [List.append_nil] at written
          · refine .fixed range.1 range.2 (.inr ?_) rfl (trimmedText_joinPoint _ _)
            dsimp only
            rw [first, List.head?_cons]
            exact fun zero => nonzero (Option.some.inj zero)
          · refine denoted_eq_value ?_ ?_
            · rw [List.take_append_drop, coefficient]
            · rw [List.length_drop, long]
              omega
      · next negative =>
          let zeros := List.replicate ((-s.exponent).toNat - 1) '0'
          have long := normal.length_digits
          have allZeros : AllDigits zeros := by
            intro d member
            cases List.eq_of_mem_replicate member
            rfl
          refine ⟨⟨['0'], dropTrailingZeros (zeros ++ s.digits), 0⟩, ?_, ?_, ?_⟩
          · have allFraction : AllDigits (zeros ++ s.digits) := fun d member =>
              (List.mem_append.mp member).elim (allZeros d) (all d)
            have allWhole : AllDigits ['0'] := by decide
            have written := writtenAs_joinPoint allWhole (List.cons_ne_nil _ _) allFraction
              ExponentText.absent
            rwa [List.append_nil] at written
          · exact .fixed range.1 range.2 (.inl rfl) rfl (trimmedText_joinPoint _ _)
          · refine denoted_eq_value ?_ ?_
            · rw [List.cons_append, List.nil_append, Nat.ofDigitChars_cons, Nat.ofDigitChars_append,
                Nat.ofDigitChars_replicate_zero]
              exact coefficient
            · rw [List.length_append, List.length_replicate, long]
              omega

end Significant

/-! ## The length of a text -/

namespace Significant

theorem length_dropTrailingZeros_le (digits : List Char) :
    (dropTrailingZeros digits).length ≤ digits.length := by
  obtain ⟨⟨count, split⟩, -⟩ := Numeral.exists_dropTrailingZeros digits
  conv_rhs => rw [split, List.length_append]
  exact Nat.le_add_right _ _

theorem length_joinPoint_le (whole fraction : List Char) :
    (joinPoint whole (dropTrailingZeros fraction)).length ≤ whole.length + 1 + fraction.length := by
  have kept := length_dropTrailingZeros_le fraction
  unfold joinPoint
  split
  · omega
  · rw [List.length_append, List.length_cons]
    omega

theorem length_exponentDigits_le {e : Int} (small : e.natAbs < 10 ^ 4) :
    (Numeral.exponentDigits e).length ≤ 4 := by
  have digits := (Nat.length_toDigits_le_iff (by decide) (by decide)).mpr small
  unfold Numeral.exponentDigits
  dsimp only
  split
  · rw [List.length_cons]
    omega
  · exact digits

theorem Normal.length_chars_le {s : Significant} (normal : s.Normal)
    (small : s.exponent.natAbs < 10 ^ 4) : s.chars.length ≤ 17 := by
  have ten := normal.length_digits
  unfold chars
  split
  · have written := length_joinPoint_le (s.digits.take 1) (s.digits.drop 1)
    have exponent := length_exponentDigits_le small
    rw [List.length_take, List.length_drop, ten] at written
    rw [scientific, Numeral.exponentText_eq, List.length_append, List.length_cons, List.length_cons]
    omega
  · next form =>
      rw [isScientific, Bool.or_eq_true, decide_eq_true_iff, decide_eq_true_iff, not_or, not_lt,
        not_le] at form
      change -4 ≤ s.exponent ∧ s.exponent < 10 at form
      unfold fixed
      split
      · next nonneg =>
          let places := s.exponent.toNat + 1
          have written := length_joinPoint_le (s.digits.take places) (s.digits.drop places)
          rw [List.length_take, List.length_drop, ten] at written
          refine written.trans ?_
          omega
      · next negative =>
          let zeros := List.replicate ((-s.exponent).toNat - 1) '0'
          have written := length_joinPoint_le ['0'] (zeros ++ s.digits)
          rw [List.length_append, List.length_replicate, ten, List.length_singleton] at written
          refine written.trans ?_
          omega

end Significant

/-! ## Doubles -/

/-- Displaying a finite number other than zero. Its magnitude is rounded to ten digits, a half to the even
neighbour; the exponent of what results decides the form, rounding to the last place that this exponent gives
comes to the same, and the text behind the sign is a numeral for it. -/
theorem formatNumber_displays {x : Float} {q : ℚ} (exact : rational? x = some q) (nonzero : q ≠ 0) :
    let rounded := toTenDigits |q|
    let e := Int.log 10 rounded
    roundTo (lastPlace e) |q| = rounded ∧
      ∃ (n : Numeral) (text : List Char),
        (formatNumber x).toList = (if q < 0 then ['-'] else []) ++ text ∧
          n.WrittenAs text ∧ n.DisplayedAs e text ∧ n.denoted = rounded := by
  intro rounded e
  obtain ⟨s, normal, value, text⟩ := formatNumber_of_exact exact nonzero
  obtain ⟨n, written, displayed, denoted⟩ := normal.displayed
  have exponent : s.exponent = e := by rw [← normal.log_value, value]
  rw [exponent] at displayed
  exact ⟨roundTo_toTenDigits (abs_pos.mpr nonzero), n, s.chars, text, written, displayed,
    denoted.trans value⟩

/-- The double nearest to 9999999999.6. -/
def belowPower : Float := Float.ofBits 0x4202a05f1ffccccd

theorem unpack_belowPower : UnpackedFloat.unpack binary64 belowPower.toBits.toBitVec =
    .finite .positive 5242879999790285 (-19) (by decide) := by
  rfl

/-- It is displayed as the next power of ten, in scientific form. -/
theorem formatNumber_displays_of_belowPower :
    let q : ℚ := (5242879999790285 : ℕ) * 2 ^ (-19 : ℤ)
    rational? belowPower = some q ∧ q ≠ 0 ∧ formatNumber belowPower = "1e+10" ∧
      roundTo (lastPlace (Int.log 10 (toTenDigits |q|))) |q| = toTenDigits |q| ∧
      ∃ (n : Numeral) (text : List Char),
        (formatNumber belowPower).toList = (if q < 0 then ['-'] else []) ++ text ∧
          n.WrittenAs text ∧ n.DisplayedAs (Int.log 10 (toTenDigits |q|)) text ∧
          n.denoted = toTenDigits |q| := by
  intro q
  have shown : formatNumber belowPower = "1e+10" := by rfl
  have exact : rational? belowPower = some q := rational?_of_unpack unpack_belowPower
  have nonzero : q ≠ 0 := by positivity
  exact ⟨exact, nonzero, shown, formatNumber_displays exact nonzero⟩

end Worksheet
