import Worksheet.Proofs.Evaluation.Visit
import Worksheet.Sheet

/-!
Asking for values in any order.

Within a pass each request evaluates what it needs and remembers it. `answers_beginPass` says that
nothing of this shows: the answers to any list of requests are those that a recompute of the whole
sheet would have given.
-/

namespace Worksheet

/-- A request for the value of a cell, or for what the cell shows. -/
inductive Query where
  | result (a : Address)
  | display (a : Address)

inductive Answer where
  | outcome (o : Outcome)
  | shown (text : String)

namespace Sheet

/-- Answers one request, evaluating what it needs. -/
def answer (s : Sheet) : Query → Answer × Sheet
  | .result a => ((.outcome (s.result a).1), (s.result a).2)
  | .display a => ((.shown (s.display a).1), (s.display a).2)

/-- Answers the requests one after the other. -/
def answers (s : Sheet) : List Query → List Answer × Sheet
  | [] => ([], s)
  | q :: qs => ((s.answer q).1 :: ((s.answer q).2.answers qs).1, ((s.answer q).2.answers qs).2)

/-- What the records of the sheet say, with nothing evaluated. -/
def reading (s : Sheet) : Query → Answer
  | .result a => .outcome (s.record a).outcome
  | .display a => .shown (Worksheet.display (s.texts.get a) (s.record a))

end Sheet

/-- The answer that a solution gives. -/
def Solution.answer {texts : Grid CellText} (S : Solution texts) : Query → Answer
  | .result a => .outcome (S.table a)
  | .display a => .shown (display (texts.get a) (.settled (S.table a)))

/-- A sheet in the middle of a pass over `texts`, between two requests. -/
structure Sheet.InPass {texts : Grid CellText} (S : Solution texts) (s : Sheet) : Prop where
  texts_eq : s.texts = texts
  idle : Records.Idle S s.records

namespace Sheet

section Pass

variable {texts : Grid CellText} {S : Solution texts} {s : Sheet}

theorem InPass.visit (pass : s.InPass S) (a : Address) :
    (s.visit a).InPass S ∧ (s.visit a).record a = .settled (S.table a) := by
  obtain ⟨rfl, idle⟩ := pass
  obtain ⟨idleAfter, -, settled⟩ := idle.settle a
  exact ⟨⟨rfl, idleAfter⟩, settled⟩

theorem foldl_visit (s : Sheet) (cells : List Address) : cells.foldl visit s =
    { s with records := cells.foldl (fun rs a => rs.settle s.texts a) s.records } := by
  induction cells generalizing s with
  | nil => rfl
  | cons a cells ih => exact ih (s.visit a)

theorem InPass.foldl (pass : s.InPass S) (cells : List Address) :
    (cells.foldl Sheet.visit s).InPass S := by
  induction cells generalizing s with
  | nil => exact pass
  | cons a cells ih => exact ih (pass.visit a).1

theorem InPass.visitAll (pass : s.InPass S) {cells : List Address} {a : Address} (member : a ∈ cells) :
    (cells.foldl Sheet.visit s).record a = .settled (S.table a) := by
  obtain ⟨rfl, idle⟩ := pass
  rw [foldl_visit]
  exact (idle.settleAll cells).2 a member

theorem InPass.answer (pass : s.InPass S) (q : Query) :
    (s.answer q).1 = S.answer q ∧ (s.answer q).2.InPass S := by
  cases q with
  | result a =>
      obtain ⟨after, settled⟩ := pass.visit a
      refine ⟨congrArg Answer.outcome ?_, after⟩
      rw [result, settled, Record.outcome_settled]
  | display a =>
      obtain ⟨after, settled⟩ := pass.visit a
      refine ⟨congrArg Answer.shown ?_, after⟩
      rw [Sheet.display, settled, after.texts_eq]

theorem InPass.answers (pass : s.InPass S) (qs : List Query) :
    (s.answers qs).1 = qs.map S.answer ∧ (s.answers qs).2.InPass S := by
  induction qs generalizing s with
  | nil => exact ⟨rfl, pass⟩
  | cons q qs ih =>
      obtain ⟨first, between⟩ := pass.answer q
      obtain ⟨rest, after⟩ := ih between
      exact ⟨congrArg₂ List.cons first rest, after⟩

theorem beginPass_inPass (s : Sheet) (S : Solution s.texts) : s.beginPass.InPass S :=
  ⟨rfl, .unvisited⟩

theorem records_recompute (s : Sheet) : s.recompute.records = .recompute s.texts := by
  rw [recompute]

theorem texts_recompute (s : Sheet) : s.recompute.texts = s.texts := by
  rw [recompute]

theorem record_recompute (s : Sheet) (S : Solution s.texts) (a : Address) :
    s.recompute.record a = .settled (S.table a) := by
  rw [record, records_recompute, Records.get_recompute S]

theorem reading_recompute (s : Sheet) (S : Solution s.texts) (q : Query) :
    s.recompute.reading q = S.answer q := by
  cases q with
  | result a => rw [reading, record_recompute s S, Record.outcome_settled, Solution.answer]
  | display a => rw [reading, record_recompute s S, texts_recompute, Solution.answer]

end Pass

/-- The answers in a pass are those after a recompute, whatever the order of the requests and however
often a cell is asked for. Hence no earlier requests show in what a cell comes to. -/
theorem answers_beginPass (s : Sheet) (qs : List Query) :
    (s.beginPass.answers qs).1 = qs.map s.recompute.reading ∧
      ∀ (qs' : List Query) (a : Address),
        ((s.beginPass.answers qs).2.result a).1 = ((s.beginPass.answers qs').2.result a).1 := by
  obtain ⟨S⟩ := exists_solution s.texts
  have started := beginPass_inPass s S
  refine ⟨?_, fun qs' a => ?_⟩
  · rw [(started.answers qs).1]
    exact List.map_congr_left fun q _ => (reading_recompute s S q).symm
  · have outcome (qs : List Query) : ((s.beginPass.answers qs).2.result a).1 = S.table a := by
      rw [result, ((started.answers qs).2.visit a).2, Record.outcome_settled]
    rw [outcome qs, outcome qs']

end Sheet

end Worksheet
