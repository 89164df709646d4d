import Worksheet.CellText
import Worksheet.Proofs.Formula.Grammar
import Worksheet.Proofs.Numeral.Finite
import Worksheet.Proofs.Numeral.RoundTrip
import Worksheet.Proofs.Numeral.Scientific

/-!
Reading a displayed number.

What is written as a literal (`Numeral.LiteralText`) is read whole, and what a displayed number denotes is
a double's ten digits. So it is read as the double nearest to these, which is displayed in the same way
(`literal?_formatNumber`). The few largest doubles are the exception: their ten digits lie beyond the
largest double, and such a literal is refused (`literal?_formatNumber_of_gt`).
-/

namespace Worksheet

/-! ## Reading what is written -/

namespace Numeral

/-- Characters of ASCII that leave ink. -/
def Visible (c : Char) : Prop :=
  0x20 < c.toNat ∧ c.toNat < 0x7f

instance (c : Char) : Decidable (Visible c) :=
  inferInstanceAs (Decidable (0x20 < c.toNat ∧ c.toNat < 0x7f))

theorem Visible.not_blank {c : Char} (visible : Visible c) : Text.isBlank c = false := by
  refine eq_false_of_ne_true fun blank => ?_
  simp only [Text.isBlank, Bool.or_eq_true, decide_eq_true_eq] at blank
  unfold Visible at visible
  rcases blank with ((((rfl | rfl) | rfl) | rfl) | rfl) | rfl <;> revert visible <;> decide

theorem AllDigits.visible {cs : List Char} (all : AllDigits cs) : ∀ c ∈ cs, Visible c := by
  intro c member
  obtain ⟨least, most⟩ := Char.isDigit_iff_toNat.mp (all c member)
  change 48 ≤ c.toNat at least
  change c.toNat ≤ 57 at most
  exact ⟨by omega, by omega⟩

theorem FractionText.visible {digits text : List Char} (written : FractionText digits text) :
    ∀ c ∈ text, Visible c := by
  cases written with
  | absent => exact fun c member => absurd member List.not_mem_nil
  | present all => exact List.forall_mem_cons.mpr ⟨by decide, all.visible⟩

theorem SignText.visible {negative : Bool} {text : List Char} (written : SignText negative text) :
    ∀ c ∈ text, Visible c := by
  cases written with
  | absent => exact fun c member => absurd member List.not_mem_nil
  | plus | minus => exact List.forall_mem_singleton.mpr (by decide)

theorem ExponentText.visible {e : Int} {text : List Char} (written : ExponentText e text) :
    ∀ c ∈ text, Visible c := by
  cases written with
  | absent => exact fun c member => absurd member List.not_mem_nil
  | present marked sign nonempty all =>
      refine List.forall_mem_cons.mpr ⟨?_, List.forall_mem_append.mpr ⟨sign.visible, all.visible⟩⟩
      rcases marked with rfl | rfl <;> decide

theorem WrittenAs.visible {n : Numeral} {text : List Char} (written : n.WrittenAs text) :
    ∀ c ∈ text, Visible c := by
  cases written with
  | intro whole fraction exponent =>
      exact List.forall_mem_append.mpr
        ⟨whole.visible, List.forall_mem_append.mpr ⟨fraction.visible, exponent.visible⟩⟩

/-- Trimming takes off what is in front and behind, and no more. -/
theorem exists_trimBy (p : Char → Bool) (cs : List Char) :
    ∃ before after, (∀ c ∈ before, p c = true) ∧ (∀ c ∈ after, p c = true) ∧
      cs = before ++ (Text.trimBy p cs ++ after) := by
  refine ⟨cs.takeWhile p, ((cs.dropWhile p).reverse.takeWhile p).reverse,
    fun c member => List.mem_takeWhile_imp member,
    fun c member => List.mem_takeWhile_imp (List.mem_reverse.mp member), ?_⟩
  rw [Text.trimBy, ← List.reverse_append, List.takeWhile_append_dropWhile, List.reverse_reverse,
    List.takeWhile_append_dropWhile]

theorem trimBy_append {p : Char → Bool} {before cs after : List Char} (nonempty : cs ≠ [])
    (first : ∀ c ∈ before, p c = true) (none : ∀ c ∈ cs, p c = false)
    (last : ∀ c ∈ after, p c = true) : Text.trimBy p (before ++ (cs ++ after)) = cs := by
  have back := Text.dropWhile_append_of_none (List.reverse_ne_nil_iff.mpr nonempty)
    (fun c member => none c (List.mem_reverse.mp member)) []
  rw [List.append_nil] at back
  rw [Text.trimBy, List.dropWhile_append_of_pos first, Text.dropWhile_append_of_none nonempty none,
    List.reverse_append,
    List.dropWhile_append_of_pos fun c member => last c (List.mem_reverse.mp member), back,
    List.reverse_reverse]

theorem scanSign_append {n : Numeral} {negative : Bool} {sign text : List Char}
    (signText : SignText negative sign) (written : n.WrittenAs text) :
    scanSign (sign ++ text) = (negative, text) := by
  cases signText with
  | plus | minus => rfl
  | absent =>
      obtain ⟨c, cs, rfl, first⟩ := written.exists_cons
      exact scanSign_of_digit first

/-- A literal is a numeral with at most one sign right in front of it, and blanks around both. -/
inductive LiteralText (negative : Bool) (n : Numeral) : List Char → Prop
  | intro {before sign text after : List Char} : AllBlank before → SignText negative sign →
    n.WrittenAs text → AllBlank after → LiteralText negative n (before ++ (sign ++ text ++ after))

/-- What is written as a literal is read whole, if its value is finite. -/
theorem literal?_of_text {cs : List Char} {negative : Bool} {n : Numeral}
    (written : LiteralText negative n cs) :
    literal? cs = if n.value.isFinite then some (if negative then -n.value else n.value) else none := by
  cases written with
  | @intro before sign text after first signText numeral last =>
  have visible := List.forall_mem_append.mpr ⟨signText.visible, numeral.visible⟩
  have nonempty := List.append_ne_nil_of_right_ne_nil sign numeral.ne_nil
  have ends : EndsNumeral [] := fun c first => by cases first
  have scanned := scan_of_writtenAs numeral ends
  rw [List.append_nil] at scanned
  rw [literal?, trimBy_append nonempty first (fun c member => (visible c member).not_blank) last,
    scanSign_append signText numeral]
  dsimp only
  rw [scanned]

/-- What is read is written as a literal. -/
theorem text_of_literal? {cs : List Char} {v : Float} (read : literal? cs = some v) :
    ∃ negative n, LiteralText negative n cs ∧ n.value.isFinite = true ∧
      v = if negative then -n.value else n.value := by
  obtain ⟨before, after, first, last, padded⟩ := exists_trimBy Text.isBlank cs
  obtain ⟨sign, signText, signed⟩ := signText_of_scanSign (Text.trimBy Text.isBlank cs)
  unfold literal? at read
  dsimp only at read
  split at read
  · next n scanned =>
      obtain ⟨text, numeral, whole⟩ := writtenAs_of_scan scanned
      rw [List.append_nil] at whole
      rw [signed, whole] at padded
      split at read
      · next finite =>
          have written := LiteralText.intro first signText numeral last
          rw [← padded] at written
          exact ⟨_, n, written, finite, (Option.some.inj read).symm⟩
      · cases read
  · cases read

/-- Nothing that begins with a number sign is read. -/
theorem literal?_numberSign (cs : List Char) : literal? ('#' :: cs) = none := by
  cases read : literal? ('#' :: cs) with
  | none => rfl
  | some v =>
      obtain ⟨negative, n, written, -, -⟩ := text_of_literal? read
      generalize whole : '#' :: cs = text at written
      cases written with
      | @intro before sign text after blank signText numeral _ =>
      cases before with
      | cons c before =>
          cases whole
          exact absurd (blank '#' List.mem_cons_self) (by decide)
      | nil =>
          cases signText with
          | plus | minus => cases whole
          | absent =>
              obtain ⟨c, rest, rfl, first⟩ := numeral.exists_cons
              cases whole
              rcases first with digit | point
              · cases digit
              · cases point

/-- The sign in front of a displayed number. -/
def signChars (negative : Bool) : List Char :=
  if negative then ['-'] else []

theorem signText_signChars (negative : Bool) : SignText negative (signChars negative) := by
  cases negative with
  | true => exact .minus
  | false => exact .absent

theorem literal?_of_writtenAs {n : Numeral} {text : List Char} (written : n.WrittenAs text)
    (negative : Bool) : literal? (signChars negative ++ text) =
      if n.value.isFinite then some (if negative then -n.value else n.value) else none := by
  have none : AllBlank [] := List.forall_mem_nil _
  have literal := LiteralText.intro none (signText_signChars negative) written none
  rw [List.nil_append, List.append_nil] at literal
  exact literal?_of_text literal

theorem utf8ByteSize_of_visible {cs : List Char} (visible : ∀ c ∈ cs, Visible c) :
    (String.ofList cs).utf8ByteSize = cs.length := by
  induction cs with
  | nil => rfl
  | cons c cs ih =>
      obtain ⟨first, rest⟩ := List.forall_mem_cons.mp visible
      have byte : c.utf8Size = 1 := by
        rw [Char.utf8Size_eq_one_iff, UInt32.le_iff_toNat_le]
        exact Nat.le_of_lt first.2
      rw [String.ofList_cons, String.utf8ByteSize_append, String.utf8ByteSize_singleton, byte, ih rest,
        List.length_cons, Nat.add_comm]

end Numeral

/-! ## Doubles with the same ten digits -/

section Double

variable {x y : Float} {p q : ℚ}

/-- Numbers of one sign and with the same ten digits are displayed in the same way. -/
theorem formatNumber_eq_of_digits (left : rational? x = some p) (right : rational? y = some q)
    (nonzero : p ≠ 0) (sign : p < 0 ↔ q < 0) (some : q ≠ 0)
    (digits : toTenDigits |p| = toTenDigits |q|) : formatNumber x = formatNumber y := by
  obtain ⟨s, normal, value, text⟩ := formatNumber_of_exact left nonzero
  obtain ⟨t, other, same, shown⟩ := formatNumber_of_exact right some
  have equal : s = t := normal.eq_of_value other (by rw [value, same, digits])
  refine String.toList_injective ?_
  rw [text, shown, equal]
  simp only [sign]

theorem rational?_signed (known : rational? x = some q) (negative : Bool) :
    rational? (if negative then -x else x) = some (if negative then -q else q) := by
  cases negative with
  | false => exact known
  | true =>
      change rational? (-x) = some (-q)
      rw [rational?_neg, known]
      rfl

end Double

/-! ## The largest doubles -/

/-- Half way from the last ten-digit number that has a double nearby to the next one. -/
def displayLimit : ℚ := 17976931345 * 10 ^ 298

theorem lastPlace_308 : lastPlace 308 = 10 ^ 299 := zpow_natCast 10 299

theorem displayLimit_eq : displayLimit = ((1797693134 : ℤ) + 1 / 2) * lastPlace 308 := by
  have half : (((1797693134 : ℤ) : ℚ) + 1 / 2) * 10 = 17976931345 := by norm_num
  rw [lastPlace_308, pow_succ', ← mul_assoc, half, displayLimit]

/-- The ten digits of the largest doubles. -/
theorem toTenDigits_of_gt {q : ℚ} (above : displayLimit < q) (below : q < 2 ^ (1024 : ℤ)) :
    toTenDigits q = (1797693135 : ℤ) * lastPlace 308 := by
  have most : 2 ^ 1024 < 17976931355 * 10 ^ 298 := by decide +kernel
  refine toTenDigits_of_between (by decide) (by decide) ?_ (below.trans ?_)
  · rw [displayLimit_eq] at above
    have half : ((1797693135 : ℤ) : ℚ) - 1 / 2 = (1797693134 : ℤ) + 1 / 2 := by norm_num
    rwa [half]
  · have half : (((1797693135 : ℤ) : ℚ) + 1 / 2) * 10 = 17976931355 := by norm_num
    rw [lastPlace_308, pow_succ', ← mul_assoc, half]
    exact_mod_cast most

/-- Up to the limit, the double nearest to the ten digits is finite. -/
theorem toBinary_toTenDigits_lt {q : ℚ} (positive : 0 < q) (above : 0 < toTenDigits q)
    (le : q ≤ displayLimit) : toBinary (toTenDigits q) < 2 ^ (1024 : ℤ) := by
  have fits : 1797693134 * 10 ^ 299 ≤ (2 ^ 53 - 1) * 2 ^ 971 := by decide +kernel
  have largest : toTenDigits q ≤ ((2 ^ 53 - 1 : ℕ) : ℚ) * 2 ^ (971 : ℤ) := by
    rw [displayLimit_eq] at le
    refine (toTenDigits_le positive (by decide) (by decide) (by decide) le).trans ?_
    rw [lastPlace_308, Int.cast_ofNat]
    exact_mod_cast fits
  exact (toBinary_le above binary64_largest largest).trans_lt binary64_largest.value_lt

/-! ## Displayed numbers -/

section Displayed

variable {x : Float} {q : ℚ} (exact : rational? x = some q)

include exact

/-- A finite number other than zero is displayed as the numeral of its ten digits, with its sign. -/
theorem formatNumber_numeral (nonzero : q ≠ 0) :
    ∃ (s : Significant) (n : Numeral), s.Normal ∧ s.value = toTenDigits |q| ∧
      (formatNumber x).toList = Numeral.signChars (decide (q < 0)) ++ s.chars ∧
      n.WrittenAs s.chars ∧ n.denoted = toTenDigits |q| := by
  obtain ⟨s, normal, value, text⟩ := formatNumber_of_exact exact nonzero
  obtain ⟨n, written, -, denoted⟩ := normal.displayed
  refine ⟨s, n, normal, value, ?_, written, denoted.trans value⟩
  rw [text]
  unfold Numeral.signChars
  simp only [decide_eq_true_eq]

/-- A displayed number can be told from a formula and from an error by its first character. -/
theorem exists_formatNumber_cons :
    ∃ c cs, (formatNumber x).toList = c :: cs ∧ c ≠ '=' ∧ c ≠ '#' := by
  by_cases zero : q = 0
  · rw [formatNumber_of_zero (zero ▸ exact)]
    exact ⟨'0', [], rfl, by decide, by decide⟩
  obtain ⟨s, n, -, -, text, written, -⟩ := formatNumber_numeral exact zero
  rw [text]
  cases decide (q < 0) with
  | true => exact ⟨'-', s.chars, rfl, by decide, by decide⟩
  | false =>
      obtain ⟨c, cs, split, first⟩ := written.exists_cons
      have other {mark : Char} (noDigit : mark.isDigit = false) (noPoint : mark ≠ '.') : c ≠ mark := by
        rintro rfl
        rcases first with digit | point
        · exact absurd digit (ne_true_of_eq_false noDigit)
        · exact noPoint point
      exact ⟨c, cs, split, other rfl (by decide), other rfl (by decide)⟩

theorem utf8ByteSize_formatNumber_le : (formatNumber x).utf8ByteSize ≤ cellCapacity := by
  by_cases zero : q = 0
  · rw [formatNumber_of_zero (zero ▸ exact)]
    decide
  obtain ⟨s, n, normal, value, text, written, -⟩ := formatNumber_numeral exact zero
  obtain ⟨m, e, form, double⟩ := form_of_exact exact zero
  have exponent : s.exponent.natAbs < 10 ^ 4 := by
    rw [← normal.log_value, value, double]
    exact form.natAbs_log_lt
  have visible := List.forall_mem_append.mpr
    ⟨(Numeral.signText_signChars (decide (q < 0))).visible, written.visible⟩
  have sign : (Numeral.signChars (decide (q < 0))).length ≤ 1 := by
    cases decide (q < 0) with
    | true | false => decide
  have digits := normal.length_chars_le exponent
  have whole : String.ofList (formatNumber x).toList = formatNumber x := String.ofList_toList
  rw [← whole, text, Numeral.utf8ByteSize_of_visible visible, List.length_append]
  change _ ≤ 127
  omega

/-- A displayed number is read as a number that is displayed in the same way, if its ten digits have a
double nearby. -/
theorem literal?_formatNumber (le : |q| ≤ displayLimit) :
    ∃ y, Numeral.literal? (formatNumber x).toList = some y ∧ y.isFinite = true ∧
      formatNumber y = formatNumber x := by
  by_cases zero : q = 0
  · rw [formatNumber_of_zero (zero ▸ exact)]
    exact ⟨Numeral.value ⟨['0'], [], 0⟩, rfl, rfl, rfl⟩
  obtain ⟨m, e, form, double⟩ := form_of_exact exact zero
  obtain ⟨s, n, normal, value, text, written, denoted⟩ := formatNumber_numeral exact zero
  have above : 0 < |q| := abs_pos.mpr zero
  obtain ⟨positive, digits⟩ := toTenDigits_toBinary form double
  have rounded : 0 < toTenDigits |q| := value ▸ normal.value_pos
  have small := toBinary_toTenDigits_lt above rounded le
  have coefficient : 0 < n.coefficient := by
    refine Nat.pos_of_ne_zero fun none => rounded.ne' ?_
    rw [← denoted, Numeral.denoted, none, Nat.cast_zero, zero_mul]
  have known := Numeral.rational?_value coefficient
  rw [denoted, binary?, if_pos small] at known
  let negative := decide (q < 0)
  have signed := rational?_signed known negative
  have finite : n.value.isFinite = true := by rw [← isSome_rational?, known, Option.isSome_some]
  refine ⟨if negative then -n.value else n.value, ?_, ?_, ?_⟩
  · rw [text, Numeral.literal?_of_writtenAs written, if_pos finite]
  · rw [← isSome_rational?, signed, Option.isSome_some]
  · let t := toBinary (toTenDigits |q|)
    have magnitude : |if negative then -t else t| = t := by
      split
      · rw [abs_neg, abs_of_pos positive]
      · exact abs_of_pos positive
    have same : (if negative then -t else t) < 0 ↔ q < 0 := by
      by_cases below : q < 0
      · rw [if_pos (decide_eq_true below)]
        exact iff_of_true (neg_neg_of_pos positive) below
      · rw [if_neg (ne_true_of_eq_false (decide_eq_false below))]
        exact iff_of_false positive.not_gt below
    have other : (if negative then -t else t) ≠ 0 := abs_pos.mp (magnitude.symm ▸ positive)
    refine formatNumber_eq_of_digits signed exact other same zero ?_
    rw [magnitude]
    exact digits

/-- The largest doubles of either sign are all displayed as one number beyond them. -/
theorem formatNumber_of_gt (gt : displayLimit < |q|) :
    formatNumber x = if q < 0 then "-1.797693135e+308" else "1.797693135e+308" := by
  have limit : 0 < displayLimit := by
    rw [displayLimit]
    positivity
  have nonzero : q ≠ 0 := abs_pos.mp (limit.trans gt)
  obtain ⟨m, e, form, double⟩ := form_of_exact exact nonzero
  obtain ⟨s, -, normal, value, text, -⟩ := formatNumber_numeral exact nonzero
  have below : |q| < 2 ^ (1024 : ℤ) := double ▸ form.value_lt
  have last : s = ⟨1797693135, 308⟩ := by
    refine normal.eq_of_value ⟨by decide, by decide⟩ ?_
    rw [value, toTenDigits_of_gt gt below]
    rfl
  have shown : s.chars = "1.797693135e+308".toList := by
    rw [last]
    decide +kernel
  rw [← String.toList_inj, text, shown]
  by_cases negative : q < 0
  · rw [decide_eq_true negative, if_pos negative]
    rfl
  · rw [decide_eq_false negative, if_neg negative]
    rfl

/-- It is refused as a literal. -/
theorem literal?_formatNumber_of_gt (gt : displayLimit < |q|) :
    Numeral.literal? (formatNumber x).toList = none := by
  rw [formatNumber_of_gt exact gt, ← Option.isNone_iff_eq_none]
  split
  · decide +kernel
  · decide +kernel

end Displayed

end Worksheet
