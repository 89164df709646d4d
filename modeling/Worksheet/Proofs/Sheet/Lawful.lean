import Worksheet.Proofs.Evaluation.Invariants
import Worksheet.Proofs.Sheet.History

/-!
Records between operations.

Every operation leaves the records at rest and lawful, also when texts have changed since some of
them were evaluated. So in every history each record is unvisited, or holds a finite value, or holds
an error and the value zero.
-/

namespace Worksheet

namespace Sheet

/-- Between two operations no cell is under way, and every record is lawful. -/
def Settled (s : Sheet) : Prop := s.records.Rest Record.Lawful

section Operations

variable {s : Sheet}

theorem settled_of_unvisited (unvisited : s.records = .unvisited) : s.Settled := by
  rw [Settled, unvisited]
  exact .unvisited Record.lawful_unvisited

theorem Settled.setText (settled : s.Settled) (a : Address) (new : String) :
    (s.setText a new).Settled := by
  unfold Sheet.setText
  split <;> exact settled

theorem Settled.visit (settled : s.Settled) (a : Address) : (s.visit a).Settled :=
  (Records.Rest.settle Record.lawful s.texts settled a).1

theorem Settled.saved (settled : s.Settled) (path : String) (written : Except DiskError Unit) :
    (s.saved path written).2.Settled := by
  cases written <;> exact settled

theorem Settled.loaded (settled : s.Settled) (path : String) (read : ReadOutcome) :
    (s.loaded path read).2.2.Settled := by
  cases read with
  | unopened => exact settled
  | interrupted | whole => exact settled_of_unvisited rfl

theorem settled_recompute (s : Sheet) :
    s.recompute.Settled ∧ ∀ a, (s.recompute.record a).evaluated = true := by
  have rest := Records.Rest.recompute Record.lawful Record.lawful_unvisited s.texts
  unfold Settled record recompute
  dsimp only
  exact rest

theorem Settled.perform (settled : s.Settled) (o : Operation) : (s.perform o).Settled := by
  cases o with
  | setText a new => exact settled.setText a new
  | clear a => exact settled.setText a ""
  | beginPass => exact settled_of_unvisited rfl
  | recompute => exact s.settled_recompute.1
  | result a => exact settled.visit a
  | display a => exact settled.visit a
  | save path written => exact settled.saved path written
  | load path read => exact settled.loaded path read

theorem settled_after (history : List Operation) : (after history).Settled := by
  induction history with
  | nil => exact settled_of_unvisited rfl
  | cons o earlier ih => exact ih.perform o

end Operations

/-- After every history each record is unvisited, or it is evaluated and holds either a finite value or
an error and the value zero; after a recompute every record is evaluated. -/
theorem record_after (history : List Operation) :
    (∀ a, let r := (after history).record a
      r = .unvisited ∨
        r.evaluated = true ∧ r.evaluating = false ∧
          (r.error = none ∧ r.value.isFinite = true ∨
            ∃ k ∈ [CellError.parse, .badReference, .divisionByZero, .cycle],
              r.error = some k ∧ r.value = 0.0)) ∧
      ∀ a, ((after (.recompute :: history)).record a).evaluated = true := by
  refine ⟨fun a => ?_, (after history).settled_recompute.2⟩
  have settled := settled_after history
  rcases (settled.all a).cases (settled.evaluating a) with unvisited | ⟨o, lawful, same⟩
  · exact .inl unvisited
  change (after history).record a = .settled o at same
  rw [same]
  refine .inr ⟨Record.evaluated_settled o, Record.evaluating_settled o, ?_⟩
  cases o with
  | ok x => exact .inl ⟨rfl, lawful⟩
  | error k =>
      refine .inr ⟨k, ?_, rfl, rfl⟩
      cases k with
      | dependency => exact absurd rfl lawful
      | parse | badReference | divisionByZero | cycle => decide

end Sheet

end Worksheet
