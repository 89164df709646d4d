import Worksheet.Numeral
import Worksheet.Proofs.Text.Runs

/-!
How numerals are written, and what scanning makes of it.

`Numeral.WrittenAs` is the grammar of numerals, with no word about how far a scan goes.

* `Numeral.writtenAs_of_scan`: a scan takes a text that writes the numeral it returns.
* `Numeral.scan_of_writtenAs`: a numeral is scanned whole where nothing follows that could go on with
  a numeral.
-/

namespace Worksheet

namespace Numeral

/-! ## The grammar of numerals -/

def AllDigits (cs : List Char) : Prop := ∀ c ∈ cs, c.isDigit = true

instance (cs : List Char) : Decidable (AllDigits cs) :=
  List.decidableBAll (fun c : Char => c.isDigit = true) cs

inductive SignText : Bool → List Char → Prop
  | absent : SignText false []
  | plus : SignText false ['+']
  | minus : SignText true ['-']

/-- The digits of a fraction, and how it is written; a point may stand alone. -/
inductive FractionText : List Char → List Char → Prop
  | absent : FractionText [] []
  | present {digits : List Char} : AllDigits digits → FractionText digits ('.' :: digits)

inductive ExponentText : Int → List Char → Prop
  | absent : ExponentText 0 []
  | present {mark : Char} {negative : Bool} {sign digits : List Char} :
    mark = 'e' ∨ mark = 'E' → SignText negative sign → digits ≠ [] → AllDigits digits →
    ExponentText
      (if negative then -(Nat.ofDigitChars 10 digits 0 : Int) else Nat.ofDigitChars 10 digits 0)
      (mark :: (sign ++ digits))

/-- The numeral is written as `cs`, with a digit in front of the point or behind it. -/
inductive WrittenAs (n : Numeral) : List Char → Prop
  | intro {fraction exponent : List Char} :
    AllDigits n.whole → FractionText n.fraction fraction → ExponentText n.exponent exponent →
    n.whole ≠ [] ∨ n.fraction ≠ [] → WrittenAs n (n.whole ++ (fraction ++ exponent))

/-! ## A scan takes what is written -/

theorem allDigits_takeWhile (cs : List Char) : AllDigits (cs.takeWhile Char.isDigit) :=
  fun _ member => List.mem_takeWhile_imp member

theorem fractionText_of_scanFraction (cs : List Char) :
    ∃ text, FractionText (scanFraction cs).1 text ∧ cs = text ++ (scanFraction cs).2 := by
  unfold scanFraction
  split
  · next cs =>
      refine ⟨_, .present (allDigits_takeWhile cs), ?_⟩
      rw [List.cons_append, List.takeWhile_append_dropWhile]
  · exact ⟨[], .absent, rfl⟩

theorem signText_of_scanSign (cs : List Char) :
    ∃ text, SignText (scanSign cs).1 text ∧ cs = text ++ (scanSign cs).2 := by
  unfold scanSign
  split
  · exact ⟨['-'], .minus, rfl⟩
  · exact ⟨['+'], .plus, rfl⟩
  · exact ⟨[], .absent, rfl⟩

theorem exponentText_of_scanExponent (cs : List Char) :
    ∃ text, ExponentText (scanExponent cs).1 text ∧ cs = text ++ (scanExponent cs).2 := by
  cases cs with
  | nil => exact ⟨[], .absent, rfl⟩
  | cons mark cs =>
      simp only [scanExponent]
      split
      · next complete =>
          obtain ⟨sign, signText, split_⟩ := signText_of_scanSign cs
          refine ⟨_, .present complete.1 signText complete.2 (allDigits_takeWhile _), ?_⟩
          rw [List.cons_append, List.append_assoc, List.takeWhile_append_dropWhile, ← split_]
      · exact ⟨[], .absent, rfl⟩

theorem writtenAs_of_scan {cs rest : List Char} {n : Numeral} (scanned : scan cs = some (n, rest)) :
    ∃ text, n.WrittenAs text ∧ cs = text ++ rest := by
  unfold scan at scanned
  dsimp only at scanned
  split at scanned
  · cases scanned
  · next digits =>
      simp only [Option.some.injEq, Prod.mk.injEq] at scanned
      obtain ⟨rfl, rfl⟩ := scanned
      obtain ⟨fraction, fractionText, before⟩ :=
        fractionText_of_scanFraction (cs.dropWhile Char.isDigit)
      obtain ⟨exponent, exponentText, after⟩ :=
        exponentText_of_scanExponent (scanFraction (cs.dropWhile Char.isDigit)).2
      refine ⟨_, .intro (allDigits_takeWhile cs) fractionText exponentText ?_, ?_⟩
      · exact not_and_or.mp digits
      · rw [List.append_assoc, List.append_assoc, ← after, ← before,
          List.takeWhile_append_dropWhile]

/-! ## What begins no part is left -/

section Left

variable {cs : List Char}

theorem scanFraction_of_head (point : cs.head? ≠ some '.') : scanFraction cs = ([], cs) := by
  unfold scanFraction
  split
  · exact absurd rfl point
  · rfl

theorem scanSign_of_head (minus : cs.head? ≠ some '-') (plus : cs.head? ≠ some '+') :
    scanSign cs = (false, cs) := by
  unfold scanSign
  split
  · exact absurd rfl minus
  · exact absurd rfl plus
  · rfl

theorem scanExponent_of_head (small : cs.head? ≠ some 'e') (large : cs.head? ≠ some 'E') :
    scanExponent cs = (0, cs) := by
  cases cs with
  | nil => rfl
  | cons c cs =>
      rw [scanExponent]
      refine if_neg fun complete => ?_
      rcases complete.1 with rfl | rfl
      · exact small rfl
      · exact large rfl

/-- A text that begins with a digit or a point begins with no sign. -/
theorem scanSign_of_digit {c : Char} (digit : c.isDigit = true ∨ c = '.') :
    scanSign (c :: cs) = (false, c :: cs) := by
  apply scanSign_of_head
  · rintro ⟨⟩
    revert digit
    decide
  · rintro ⟨⟩
    revert digit
    decide

end Left

/-! ## What is written is scanned whole -/

section Whole

variable {digits rest : List Char}

theorem takeWhile_digits (all : AllDigits digits)
    (ahead : ∀ c, rest.head? = some c → c.isDigit = false) :
    (digits ++ rest).takeWhile Char.isDigit = digits :=
  Text.takeWhile_append_of_ends all ahead

theorem dropWhile_digits (all : AllDigits digits)
    (ahead : ∀ c, rest.head? = some c → c.isDigit = false) :
    (digits ++ rest).dropWhile Char.isDigit = rest :=
  Text.dropWhile_append_of_ends all ahead

theorem scanFraction_of_text {fraction text : List Char} (written : FractionText fraction text)
    (ahead : ∀ c, rest.head? = some c → c.isDigit = false ∧ c ≠ '.') :
    scanFraction (text ++ rest) = (fraction, rest) := by
  have noDigit : ∀ c, rest.head? = some c → c.isDigit = false := fun c first => (ahead c first).1
  cases written with
  | absent => exact scanFraction_of_head fun point => (ahead '.' point).2 rfl
  | present all =>
      rw [List.cons_append]
      exact Prod.ext (takeWhile_digits all noDigit) (dropWhile_digits all noDigit)

theorem scanSign_of_text {negative : Bool} {sign : List Char} (written : SignText negative sign)
    (nonempty : digits ≠ []) (all : AllDigits digits) :
    scanSign (sign ++ (digits ++ rest)) = (negative, digits ++ rest) := by
  cases written with
  | plus => rfl
  | minus => rfl
  | absent =>
      cases digits with
      | nil => exact absurd rfl nonempty
      | cons d digits => exact scanSign_of_digit (.inl (all d List.mem_cons_self))

theorem scanExponent_of_text {exponent : Int} {text : List Char}
    (written : ExponentText exponent text)
    (ahead : ∀ c, rest.head? = some c → c.isDigit = false ∧ c ≠ 'e' ∧ c ≠ 'E') :
    scanExponent (text ++ rest) = (exponent, rest) := by
  cases written with
  | absent =>
      have small : rest.head? ≠ some 'e' := fun mark => (ahead 'e' mark).2.1 rfl
      have large : rest.head? ≠ some 'E' := fun mark => (ahead 'E' mark).2.2 rfl
      exact scanExponent_of_head small large
  | @present mark negative sign digits marked signText nonempty all =>
      have noDigit : ∀ c, rest.head? = some c → c.isDigit = false := fun c first => (ahead c first).1
      rw [List.cons_append, List.append_assoc, scanExponent, scanSign_of_text signText nonempty all]
      dsimp only
      rw [takeWhile_digits all noDigit, dropWhile_digits all noDigit, if_pos ⟨marked, nonempty⟩]

end Whole

/-- A text that no numeral goes on with. -/
def EndsNumeral (rest : List Char) : Prop :=
  ∀ c, rest.head? = some c → c.isDigit = false ∧ c ≠ '.' ∧ c ≠ 'e' ∧ c ≠ 'E'

theorem FractionText.head_append {fraction text rest : List Char}
    (written : FractionText fraction text) :
    ∀ c, (text ++ rest).head? = some c → c = '.' ∨ rest.head? = some c := by
  intro c first
  cases written with
  | absent => exact .inr first
  | present => exact .inl (Option.some.inj first).symm

theorem FractionText.exists_cons {fraction text : List Char} (written : FractionText fraction text)
    (nonempty : fraction ≠ []) : ∃ cs, text = '.' :: cs := by
  cases written with
  | absent => exact absurd rfl nonempty
  | present => exact ⟨_, rfl⟩

theorem WrittenAs.exists_cons {n : Numeral} {text : List Char} (written : n.WrittenAs text) :
    ∃ c cs, text = c :: cs ∧ (c.isDigit = true ∨ c = '.') := by
  cases written with
  | @intro fraction exponent whole fractionText exponentText mantissa =>
  cases digits : n.whole with
  | cons d ds =>
      rw [digits] at whole
      exact ⟨d, _, rfl, .inl (whole d List.mem_cons_self)⟩
  | nil =>
      obtain ⟨cs, rfl⟩ := fractionText.exists_cons (mantissa.resolve_left (not_not_intro digits))
      exact ⟨'.', _, rfl, .inr rfl⟩

theorem WrittenAs.ne_nil {n : Numeral} {text : List Char} (written : n.WrittenAs text) : text ≠ [] := by
  obtain ⟨c, cs, rfl, -⟩ := written.exists_cons
  exact List.cons_ne_nil c cs

theorem ExponentText.head_append {exponent : Int} {text rest : List Char}
    (written : ExponentText exponent text) :
    ∀ c, (text ++ rest).head? = some c → c = 'e' ∨ c = 'E' ∨ rest.head? = some c := by
  intro c first
  cases written with
  | absent => exact .inr (.inr first)
  | present marked =>
      cases Option.some.inj first
      rcases marked with small | large
      · exact .inl small
      · exact .inr (.inl large)

theorem scan_of_writtenAs {n : Numeral} {text rest : List Char} (written : n.WrittenAs text)
    (ends : EndsNumeral rest) : scan (text ++ rest) = some (n, rest) := by
  cases written with
  | @intro fraction exponent whole fractionText exponentText mantissa =>
  have aheadExponent : ∀ c, rest.head? = some c → c.isDigit = false ∧ c ≠ 'e' ∧ c ≠ 'E' :=
    fun c first => ⟨(ends c first).1, (ends c first).2.2⟩
  have aheadFraction : ∀ c, (exponent ++ rest).head? = some c → c.isDigit = false ∧ c ≠ '.' := by
    intro c first
    rcases exponentText.head_append c first with rfl | rfl | later
    · decide
    · decide
    · exact ⟨(ends c later).1, (ends c later).2.1⟩
  have aheadWhole : ∀ c, (fraction ++ (exponent ++ rest)).head? = some c → c.isDigit = false := by
    intro c first
    rcases fractionText.head_append c first with rfl | later
    · decide
    · exact (aheadFraction c later).1
  rw [List.append_assoc, List.append_assoc, scan]
  dsimp only
  rw [takeWhile_digits whole aheadWhole, dropWhile_digits whole aheadWhole,
    scanFraction_of_text fractionText aheadFraction, scanExponent_of_text exponentText aheadExponent]
  exact if_neg (not_and_or.mpr mantissa)

end Numeral

end Worksheet
