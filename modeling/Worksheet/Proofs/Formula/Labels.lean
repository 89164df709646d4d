import Worksheet.Proofs.Formula.Reading

/-!
Labels, alone and in formulas.

`LabelText` says how labels are written, for rows inside and outside of the grid. A text is read as the
label of a cell if and only if it is written so (`Address.ofLabel?_eq_some_iff`), and as a formula such a
text is nothing but a reference. Both readings stop at the same rows, however many digits there are
(`Address.ofLabel?_reads_references`).
-/

namespace Worksheet

open Numeral (AllDigits)

/-! ## How labels are written -/

/-- A label is a column's letter in either case and the digits of a row's number, with any number of zeros
in front of them. -/
inductive LabelText (column : Fin columnCount) (number : Nat) : List Char → Prop
  | intro {letter : Char} {digits : List Char} :
    letter = Address.columnLetter column ∨ letter = (Address.columnLetter column).toLower →
    digits ≠ [] → AllDigits digits → Nat.ofDigitChars 10 digits 0 = number →
    LabelText column number (letter :: digits)

namespace Address

theorem ofLabel?_eq_some_iff {s : String} {a : Address} :
    ofLabel? s = some a ↔ LabelText a.column (a.row + 1) s.toList := by
  unfold ofLabel?
  cases s.toList with
  | nil =>
      constructor
      · nofun
      · nofun
  | cons letter digits =>
      dsimp only
      constructor
      · intro read
        split at read
        · next shape =>
            rw [Bool.and_eq_true, Bool.not_eq_true', List.isEmpty_eq_false_iff, List.all_eq_true] at shape
            obtain ⟨column, row⟩ := ofParts?_eq_some_iff.mp read
            exact .intro (columnOfLetter?_eq_some_iff.mp column) shape.1 shape.2
              (rowOfDigits?_eq_some_iff.mp row)
        · cases read
      · rintro ⟨column, nonempty, all, row⟩
        have shape : (!digits.isEmpty && digits.all Char.isDigit) = true := by
          rw [Bool.and_eq_true, Bool.not_eq_true', List.isEmpty_eq_false_iff, List.all_eq_true]
          exact ⟨nonempty, all⟩
        rw [if_pos shape, ofParts?_eq_some_iff]
        exact ⟨columnOfLetter?_eq_some_iff.mpr column, rowOfDigits?_eq_some_iff.mpr row⟩

/-- The canonical label has no zero in front and the upper-case letter. -/
theorem labelText_label (a : Address) : LabelText a.column (a.row + 1) a.label.toList := by
  have small : (a.row.val + 1) % rowNumberBound = a.row.val + 1 :=
    Nat.mod_eq_of_lt (Nat.lt_of_le_of_lt a.row.isLt (by decide))
  rw [label, labelOf, String.toList_ofList, small]
  refine .intro (.inl rfl) (by simp) ?_ Nat.ofDigitChars_ten_toDigits
  exact fun _ member => Nat.isDigit_of_mem_toDigits (by decide) (by decide) member

end Address

/-! ## Labels in formulas -/

namespace LabelText

variable {column : Fin columnCount} {number : Nat} {cs : List Char}

theorem lexeme_inside {a : Address} (written : LabelText a.column (a.row + 1) cs) :
    Lexeme (.label (some a)) cs := by
  obtain ⟨letter, nonempty, all, row⟩ := written
  exact .inside letter nonempty all row

theorem lexeme_outside (written : LabelText column number cs)
    (outside : ¬(1 ≤ number ∧ number ≤ rowCount)) : Lexeme (.label none) cs := by
  obtain ⟨letter, nonempty, all, rfl⟩ := written
  have alpha := Address.isAlpha_of_columnOfLetter? (Address.columnOfLetter?_eq_some_iff.mpr letter)
  refine .outside alpha nonempty all fun row same => outside ?_
  have bound := row.isLt
  omega

end LabelText

/-- A label alone is a whole formula. -/
theorem Lexeme.ofChars_label {a : Option Address} {cs : List Char} (lexeme : Lexeme (.label a) cs) :
    Expr.ofChars cs = (Formula.label a).toExpr := by
  have spelling : Spelling [.label a] (cs ++ []) := .of_lexeme lexeme (.done nofun)
  rw [List.append_nil] at spelling
  exact Expr.ofChars_of_writtenAs ⟨_, spelling, .product (.factor .label)⟩

namespace Address

/-- A text is read as the label of a cell if and only if it is written as one, and as a formula it then asks
for this cell alone and comes to what the cell comes to. Among these texts is the label that is written for
the cell. A text written as the label of a row that the grid does not have is no label, and as a formula it
is a bad reference that asks for nothing. -/
theorem ofLabel?_reads_references (s : String) :
    (∀ a, ofLabel? s = some a ↔ LabelText a.column (a.row + 1) s.toList) ∧
      (∀ a, ofLabel? s = some a →
        ∀ {m : Type → Type} [Monad m] [LawfulMonad m] (resolve : Address → m Outcome),
          (Expr.ofChars s.toList).evaluate resolve = resolve a) ∧
      (∀ a, ofLabel? (label a) = some a) ∧
      ∀ column number, LabelText column number s.toList → ¬(1 ≤ number ∧ number ≤ rowCount) →
        ofLabel? s = none ∧
        ∀ {m : Type → Type} [Monad m] [LawfulMonad m] (resolve : Address → m Outcome),
          (Expr.ofChars s.toList).evaluate resolve = pure (.error .badReference) := by
  refine ⟨fun a => ofLabel?_eq_some_iff, ?_, fun a => ofLabel?_eq_some_iff.mpr a.labelText_label, ?_⟩
  · intro a read m _ _ resolve
    rw [(ofLabel?_eq_some_iff.mp read).lexeme_inside.ofChars_label]
    rfl
  · intro column number written outside
    have tree := (written.lexeme_outside outside).ofChars_label
    constructor
    · refine Option.eq_none_iff_forall_ne_some.mpr fun a read => ?_
      have other := (ofLabel?_eq_some_iff.mp read).lexeme_inside.ofChars_label
      cases tree.symm.trans other
    · intro m _ _ resolve
      rw [tree]
      rfl

/-- `b0042` is the cell in the second column and row 42. The number of `Z18446744073709551617` is one more
than a word of 64 bits holds, and it is not taken for row 1. -/
theorem ofLabel?_reads_references_of_long :
    let a : Address := ⟨⟨41, by decide⟩, ⟨1, by decide⟩⟩
    ofLabel? "b0042" = some a ∧
      (Expr.ofChars "b0042".toList).evaluateIn (fun _ => .error .cycle) = (.error .cycle, [a]) ∧
      LabelText ⟨25, by decide⟩ (Nat.pow 2 64 + 1) "Z18446744073709551617".toList ∧
      ofLabel? "Z18446744073709551617" = none ∧
      (Expr.ofChars "Z18446744073709551617".toList).evaluateIn (fun _ => .ok 1) =
        (.error .badReference, []) := by
  intro a
  obtain ⟨labels, references, -⟩ := ofLabel?_reads_references "b0042"
  have inside : ofLabel? "b0042" = some a :=
    (labels a).mpr (.intro (.inr rfl) (by decide) (by decide) (by decide))
  have long : LabelText ⟨25, by decide⟩ (Nat.pow 2 64 + 1) "Z18446744073709551617".toList :=
    .intro (.inl rfl) (by decide) (by decide) (by decide)
  obtain ⟨-, -, -, beyond⟩ := ofLabel?_reads_references "Z18446744073709551617"
  obtain ⟨none, bad⟩ := beyond _ _ long (by decide)
  have asks := congrArg (·.run []) (references a inside (Expr.listing fun _ => .error .cycle))
  have asksNothing := congrArg (·.run []) (bad (Expr.listing fun _ => .ok 1))
  exact ⟨inside, asks, long, none, asksNothing⟩

end Address

end Worksheet
