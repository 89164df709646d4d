import Worksheet.Proofs.Numeral.Scanning

/-!
A scan takes the longest numeral there is.

Whole digits, fraction and exponent are scanned one after the other, and each part goes on as far as it can. A
numeral that a text starts with is scanned whole up to its exponent if it has one, and without an exponent its
digits are among those that are scanned. Either way the scan leaves no more than the numeral does
(`length_rest_le`), and it does not fail (`exists_scan`). With the grammar this decides what a scan comes to:
`scan_eq_some_iff` and `scan_eq_none_iff`.
-/

namespace Worksheet

namespace Numeral

variable {cs rest text later fraction exponent : List Char} {n m : Numeral}

/-- A text starts with a numeral, written as `text`, and with none that is longer. -/
structure LongestAt (n : Numeral) (text cs : List Char) : Prop where
  written : n.WrittenAs text
  front : text <+: cs
  longest : ∀ m other, WrittenAs m other → other <+: cs → other.length ≤ text.length

/-! ## What a scan leaves -/

theorem length_dropWhile_digits_le {digits : List Char} (all : AllDigits digits) (later : List Char) :
    ((digits ++ later).dropWhile Char.isDigit).length ≤ later.length := by
  rw [List.dropWhile_append_of_pos all]
  exact length_dropWhile_le Char.isDigit later

/-- An exponent begins with neither a digit nor a point. -/
theorem ExponentText.head_present {e : Int} (written : ExponentText e exponent) (present : exponent ≠ [])
    (later : List Char) :
    ∀ c, (exponent ++ later).head? = some c → c.isDigit = false ∧ c ≠ '.' := by
  intro c first
  cases written with
  | absent => exact absurd rfl present
  | present marked =>
      cases Option.some.inj first
      rcases marked with rfl | rfl
      · decide
      · decide

theorem ExponentText.length_rest_le {e : Int} (written : ExponentText e exponent)
    (later : List Char) : (scanExponent (exponent ++ later)).2.length ≤ later.length := by
  cases written with
  | absent => exact length_scanExponent_le later
  | @present mark negative sign digits marked signText nonempty all =>
      have complete : (digits ++ later).takeWhile Char.isDigit ≠ [] := by
        rw [List.takeWhile_append_of_pos all]
        exact List.append_ne_nil_of_left_ne_nil nonempty _
      rw [List.cons_append, List.append_assoc, scanExponent, scanSign_of_text signText nonempty all]
      dsimp only
      rw [if_pos ⟨marked, complete⟩]
      exact length_dropWhile_digits_le all later

/-- Whole digits and a fraction that no exponent follows. -/
theorem FractionText.length_rest_le {digits : List Char} (written : FractionText digits fraction)
    {whole : List Char} (all : AllDigits whole) (later : List Char) :
    (scanFraction ((whole ++ (fraction ++ later)).dropWhile Char.isDigit)).2.length ≤ later.length := by
  cases written with
  | absent => exact (length_scanFraction_le _).trans (length_dropWhile_digits_le all later)
  | @present digits allDigits =>
      have point : ∀ c, ('.' :: (digits ++ later)).head? = some c → c.isDigit = false := by
        intro c first
        cases first
        rfl
      rw [List.cons_append, dropWhile_digits all point]
      exact length_dropWhile_digits_le allDigits later

theorem length_rest_le (written : m.WrittenAs text) (scanned : scan (text ++ later) = some (n, rest)) :
    rest.length ≤ later.length := by
  cases written with
  | @intro fraction exponent whole fractionText exponentText mantissa =>
  rw [List.append_assoc, List.append_assoc] at scanned
  unfold scan at scanned
  dsimp only at scanned
  split at scanned
  · cases scanned
  simp only [Option.some.injEq, Prod.mk.injEq] at scanned
  obtain ⟨-, rfl⟩ := scanned
  by_cases absent : exponent = []
  · subst absent
    exact (length_scanExponent_le _).trans (fractionText.length_rest_le whole later)
  · have ahead := exponentText.head_present absent later
    have aheadWhole : ∀ c, (fraction ++ (exponent ++ later)).head? = some c → c.isDigit = false := by
      intro c first
      rcases fractionText.head_append c first with rfl | behind
      · decide
      · exact (ahead c behind).1
    rw [dropWhile_digits whole aheadWhole, scanFraction_of_text fractionText ahead]
    exact exponentText.length_rest_le later

theorem FractionText.scan_ne_nil {digits : List Char} (written : FractionText digits fraction)
    (nonempty : digits ≠ []) (later : List Char) :
    (scanFraction ((fraction ++ later).dropWhile Char.isDigit)).1 ≠ [] := by
  cases written with
  | absent => exact absurd rfl nonempty
  | present all =>
      rw [List.cons_append, List.dropWhile_cons_of_neg (by decide), scanFraction,
        List.takeWhile_append_of_pos all]
      exact List.append_ne_nil_of_left_ne_nil nonempty _

/-- Where a numeral is written a scan finds a digit. -/
theorem exists_scan (written : m.WrittenAs text) (later : List Char) :
    ∃ n rest, scan (text ++ later) = some (n, rest) := by
  cases written with
  | @intro fraction exponent whole fractionText exponentText mantissa =>
  rw [List.append_assoc, List.append_assoc]
  unfold scan
  dsimp only
  split
  · next none =>
      obtain ⟨noWhole, noFraction⟩ := none
      rw [List.takeWhile_append_of_pos whole, List.append_eq_nil_iff] at noWhole
      rw [noWhole.1, List.nil_append] at noFraction
      have nonempty := mantissa.resolve_left (not_not_intro noWhole.1)
      exact absurd noFraction (fractionText.scan_ne_nil nonempty _)
  · exact ⟨_, _, rfl⟩

/-! ## What a scan comes to -/

/-- A text writes one numeral at most. -/
theorem WrittenAs.unique (first : n.WrittenAs text) (second : m.WrittenAs text) : n = m := by
  have ends : EndsNumeral [] := nofun
  have same := (scan_of_writtenAs first ends).symm.trans (scan_of_writtenAs second ends)
  exact congrArg Prod.fst (Option.some.inj same)

theorem LongestAt.unique {other : List Char} (first : n.LongestAt text cs)
    (second : m.LongestAt other cs) : n = m ∧ text = other := by
  have short := first.longest m other second.written second.front
  have long := second.longest n text first.written first.front
  have same := (List.prefix_of_prefix_length_le first.front second.front long).eq_of_length_le short
  subst same
  exact ⟨first.written.unique second.written, rfl⟩

theorem longestAt_of_scan (scanned : scan cs = some (n, rest)) :
    ∃ text, n.LongestAt text cs ∧ cs = text ++ rest := by
  obtain ⟨text, written, rfl⟩ := writtenAs_of_scan scanned
  refine ⟨text, ⟨written, List.prefix_append text rest, ?_⟩, rfl⟩
  rintro m other another ⟨later, split⟩
  rw [← split] at scanned
  have left := length_rest_le another scanned
  have lengths := congrArg List.length split
  rw [List.length_append, List.length_append] at lengths
  omega

theorem scan_eq_none_iff : scan cs = none ↔ ∀ n text, WrittenAs n text → ¬ text <+: cs := by
  constructor
  · rintro failed n text written ⟨later, rfl⟩
    obtain ⟨_, _, scanned⟩ := exists_scan written later
    cases failed.symm.trans scanned
  · intro none
    cases scanned : scan cs with
    | none => rfl
    | some found =>
        obtain ⟨text, longest, -⟩ := longestAt_of_scan scanned
        exact absurd longest.front (none _ text longest.written)

theorem scan_eq_some_iff :
    scan cs = some (n, rest) ↔ ∃ text, n.LongestAt text cs ∧ cs = text ++ rest := by
  refine ⟨longestAt_of_scan, ?_⟩
  rintro ⟨text, longest, rfl⟩
  obtain ⟨m, others, scanned⟩ := exists_scan longest.written rest
  obtain ⟨other, another, split⟩ := longestAt_of_scan scanned
  obtain ⟨rfl, rfl⟩ := longest.unique another
  rw [scanned, List.append_cancel_left split]

end Numeral

end Worksheet
