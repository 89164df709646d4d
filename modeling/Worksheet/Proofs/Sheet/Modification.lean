import Worksheet.Proofs.Sheet.Files

/-!
Writing what a cell holds already.

A text counts as another one if it is not the text stored, and what is stored of it may have been cut
since. Of a text that a cell has room for nothing is cut, so writing it again leaves the sheet alone. A
text that is too long differs from whatever a cell can hold: writing it stores the same cut each time, and
each time the sheet counts as modified (`Sheet.setText_again`).
-/

namespace Worksheet

namespace CellText

variable {new : String} {t : CellText}

theorem ofString_eq_iff (fits : new.utf8ByteSize ≤ cellCapacity) : ofString new = t ↔ t.text = new := by
  rw [ofString_of_fits fits]
  exact ⟨fun same => same ▸ rfl, fun same => CellText.ext same.symm⟩

theorem text_ne_of_long (long : cellCapacity < new.utf8ByteSize) (t : CellText) : t.text ≠ new := by
  intro same
  have fits := t.size_le
  rw [same] at fits
  exact Nat.not_le.mpr long fits

end CellText

namespace Sheet

variable (s : Sheet) (a : Address) {new : String}

theorem setText_of_same (same : s.text a = new) : s.setText a new = s :=
  if_pos same

theorem setText_of_other (other : s.text a ≠ new) : s.setText a new =
    { s with texts := s.texts.set a (.ofString new), modified := true } :=
  if_neg other

/-- A text that fits is written to effect if it is not the text that would be stored. -/
theorem setText_of_fits (fits : new.utf8ByteSize ≤ cellCapacity) :
    (CellText.ofString new = s.texts.get a → s.setText a new = s) ∧
      (CellText.ofString new ≠ s.texts.get a → (s.setText a new).modified = true) := by
  rw [Ne, CellText.ofString_eq_iff fits]
  refine ⟨s.setText_of_same a, fun other => ?_⟩
  rw [s.setText_of_other a other]

theorem setText_of_long (long : cellCapacity < new.utf8ByteSize) : s.setText a new =
    { s with texts := s.texts.set a (.ofString new), modified := true } :=
  s.setText_of_other a (CellText.text_ne_of_long long _)

/-- Where a text is stored already, writing it again changes the mark at most. -/
theorem setText_of_stored (stored : s.texts.get a = .ofString new) : s.setText a new =
    { s with modified := s.modified || decide (cellCapacity < new.utf8ByteSize) } := by
  by_cases long : cellCapacity < new.utf8ByteSize
  · rw [s.setText_of_long a long, ← stored, Grid.set_get, decide_eq_true long, Bool.or_true]
  · have same := (s.setText_of_fits a (Nat.le_of_not_lt long)).1 stored.symm
    rw [same, decide_eq_false long, Bool.or_false]

/-- Writing a text that a cell has room for leaves the sheet alone when the cell holds it, and modifies
it otherwise; and written once more after a save it leaves the sheet unmodified. A longer text modifies
the sheet whatever the cell holds, and after a save too, although what is stored stays the same. -/
theorem setText_again (new : String) :
    (s.setText a new).texts = s.texts.set a (.ofString new) ∧
    (new.utf8ByteSize ≤ cellCapacity →
      (CellText.ofString new = s.texts.get a → s.setText a new = s) ∧
        (CellText.ofString new ≠ s.texts.get a → (s.setText a new).modified = true)) ∧
    (cellCapacity < new.utf8ByteSize → (s.setText a new).modified = true) ∧
    ∀ fault disk path count saved disk',
      (s.setText a new).saveUnder fault disk path = (.ok count, saved, disk') →
      saved.modified = false ∧ saved.setText a new =
        { saved with modified := decide (cellCapacity < new.utf8ByteSize) } := by
  have texts : (s.setText a new).texts = s.texts.set a (.ofString new) := by
    refine Grid.ext_get fun b => ?_
    rw [texts_setText, Grid.get_set]
  refine ⟨texts, s.setText_of_fits a, fun long => ?_, ?_⟩
  · rw [s.setText_of_long a long]
  · intro fault disk path count saved disk' done
    obtain ⟨-, rfl, -⟩ := saveUnder_ok done
    refine ⟨rfl, setText_of_stored _ a ?_⟩
    rw [texts, Grid.get_set, if_pos rfl]

/-- Any sheet can be saved to a new file. -/
theorem exists_save_f (s : Sheet) : ∃ disk', s.saveUnder none .empty "f" =
    (.ok s.filledCount, { s with path := some "f", modified := false }, disk') := by
  have replaced := Disk.fst_replace_of_isName Disk.isName_f .empty (Text.encode s.content)
  rcases outcome : s.saveUnder none .empty "f" with ⟨result, saved, disk'⟩
  rcases saveUnder_cases outcome with ⟨e, -, -, failed⟩ | ⟨rfl, rfl, -⟩
  · rw [failed] at replaced
    cases replaced
  · exact ⟨disk', rfl⟩

theorem text_empty (a : Address) : empty.text a = "" := by
  rw [text, empty, Grid.get_fill]
  rfl

/-- A short text is written into the first cell, saved and written again. -/
theorem setText_again_of_short :
    "x".utf8ByteSize ≤ cellCapacity ∧ CellText.ofString "x" ≠ empty.texts.get .origin ∧
      (empty.setText .origin "x").modified = true ∧
      ∃ count saved disk', (empty.setText .origin "x").saveUnder none .empty "f" =
        (.ok count, saved, disk') ∧ saved.setText .origin "x" = saved := by
  have fits : "x".utf8ByteSize ≤ cellCapacity := by decide
  have other : CellText.ofString "x" ≠ empty.texts.get .origin := by
    rw [Ne, CellText.ofString_eq_iff fits]
    exact fun same => absurd ((text_empty .origin).symm.trans same) (by decide)
  obtain ⟨-, short, -, again⟩ := setText_again empty .origin "x"
  obtain ⟨disk', done⟩ := exists_save_f (empty.setText .origin "x")
  obtain ⟨-, same⟩ := again none .empty "f" _ _ disk' done
  exact ⟨fits, other, (short fits).2 other, _, _, disk', done, same⟩

/-- A text that is one byte too long. -/
def longText : String := String.ofList (List.replicate (cellCapacity + 1) 'x')

/-- After a save the cell holds what would be stored of the long text, and yet writing it modifies the
sheet. -/
theorem longText_modifies_again : ∃ count saved disk',
    (empty.setText .origin longText).saveUnder none .empty "f" = (.ok count, saved, disk') ∧
      CellText.ofString longText = saved.texts.get .origin ∧ saved.modified = false ∧
      (saved.setText .origin longText).modified = true := by
  have long : cellCapacity < longText.utf8ByteSize := by decide +kernel
  obtain ⟨disk', done⟩ := exists_save_f (empty.setText .origin longText)
  refine ⟨_, _, disk', done, ?_, rfl, ?_⟩
  · dsimp only
    rw [setText_of_long _ _ long, Grid.get_set, if_pos rfl]
  · rw [setText_of_long _ _ long]

end Sheet

end Worksheet
