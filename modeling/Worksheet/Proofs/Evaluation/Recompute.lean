import Worksheet.Proofs.Evaluation.Visit

/-!
What a recompute leaves.

The outcomes in the records after a recompute are the solution of the grid's texts. Two properties of
it need no mention of a pass:

* `recompute_solves`: the outcome of each cell is what its text comes to when references are looked
  up among the outcomes.
* `recompute_cycle_iff`: a cell is a cycle exactly if its demands lead to a cell that demands itself.
-/

namespace Worksheet

open Relation (TransGen)

namespace Records

/-- The outcomes that the records hold. -/
def table (rs : Records) (a : Address) : Outcome :=
  (rs.get a).outcome

theorem table_recompute {texts : Grid CellText} (S : Solution texts) :
    table (recompute texts) = S.table := by
  funext a
  rw [table, get_recompute S, Record.outcome_settled]

end Records

/-- The outcome of a formula is that of its body, evaluated in the table of outcomes, and any other
text counts as the number it reads as, or else as zero. -/
theorem recompute_solves (texts : Grid CellText) (a : Address) :
    (Records.recompute texts).table a =
      match (texts.get a).formula? with
      | some body => ((Expr.ofChars body).evaluateIn (Records.recompute texts).table).1
      | none => .ok ((Numeral.literal? (texts.get a).chars).getD 0.0) := by
  obtain ⟨S⟩ := exists_solution texts
  rw [Records.table_recompute S, S.solves a, CellText.evaluateIn]
  cases (texts.get a).formula? <;> rfl

/-- A cell carries the error of a cycle exactly if following demands, one step or more, leads to a
cell from which following demands, one step or more, leads back. -/
theorem recompute_cycle_iff (texts : Grid CellText) (a : Address) :
    (Records.recompute texts).table a = .error .cycle ↔
      ∃ b, TransGen (Demands texts (Records.recompute texts).table) a b ∧
        TransGen (Demands texts (Records.recompute texts).table) b b := by
  obtain ⟨S⟩ := exists_solution texts
  rw [Records.table_recompute S]
  exact S.cycle_iff

end Worksheet
