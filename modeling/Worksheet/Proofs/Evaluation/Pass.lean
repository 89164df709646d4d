import Worksheet.Editor
import Worksheet.Proofs.Evaluation.Calls
import Worksheet.Proofs.Evaluation.Queries

/-!
What is remembered in a pass.

Until the next pass begins, a sheet may be edited and asked about in any order. An edit changes a
text and no record, and a request changes no text and makes a passage from the records to later
ones. So old answers stay, next to new ones that already go by the edited texts.
-/

namespace Worksheet

/-- What can happen while a pass lasts. -/
inductive PassStep where
  | setText (a : Address) (new : String)
  | clear (a : Address)
  | result (a : Address)
  | display (a : Address)
  /-- The status line is asked for, with the cursor at a cell. -/
  | status (a : Address)

/-- The cell that a request is about. -/
def PassStep.request? : PassStep → Option Address
  | result a | display a | status a => some a
  | setText _ _ | clear _ => none

namespace Editor

/-! ## Steps -/

/-- Takes one step. -/
def take (e : Editor) : PassStep → Editor
  | .setText a new => e.setText a new
  | .clear a => { e with sheet := e.sheet.clear a }
  | .result a => { e with sheet := (e.sheet.result a).2 }
  | .display a => { e with sheet := (e.sheet.display a).2 }
  | .status a => ({ e with cursor := a }.statusLine).2

/-- The calls that a step makes. -/
def stepCalls (e : Editor) (step : PassStep) : List Call :=
  match step.request? with
  | some a => Records.calls e.sheet.texts a e.sheet.records
  | none => []

theorem sheet_take_of_request (e : Editor) {step : PassStep} {a : Address}
    (asked : step.request? = some a) : (e.take step).sheet = e.sheet.visit a := by
  cases step with
  | result b | display b | status b =>
      cases asked
      rfl
  | setText | clear => cases asked

theorem records_take_of_edit (e : Editor) {step : PassStep} (edit : step.request? = none) :
    (e.take step).sheet.records = e.sheet.records := by
  have kept (a : Address) (new : String) : (e.sheet.setText a new).records = e.sheet.records := by
    unfold Sheet.setText
    split <;> rfl
  cases step with
  | setText a new => exact kept a new
  | clear a => exact kept a ""
  | result | display | status => cases edit

theorem take_passage (e : Editor) (step : PassStep) :
    Records.Passage e.sheet.records (e.stepCalls step) (e.take step).sheet.records := by
  unfold stepCalls
  cases asked : step.request? with
  | some a =>
      rw [sheet_take_of_request e asked]
      exact (Records.settle_passage e.sheet.texts a e.sheet.records).2.1
  | none =>
      rw [records_take_of_edit e asked]
      exact .refl _

/-! ## Runs -/

/-- Takes steps one after the other. -/
def takeAll (e : Editor) (steps : List PassStep) : Editor :=
  steps.foldl take e

/-- The calls that the steps make, one after the other. -/
def callsAlong (e : Editor) : List PassStep → List Call
  | [] => []
  | step :: steps => e.stepCalls step ++ (e.take step).callsAlong steps

theorem takeAll_append (e : Editor) (early late : List PassStep) :
    e.takeAll (early ++ late) = (e.takeAll early).takeAll late :=
  List.foldl_append

theorem takeAll_passage (e : Editor) (steps : List PassStep) :
    Records.Passage e.sheet.records (e.callsAlong steps) (e.takeAll steps).sheet.records := by
  induction steps generalizing e with
  | nil => exact .refl _
  | cons step steps ih => exact (e.take_passage step).trans (ih (e.take step))

theorem sheet_takeAll_results (e : Editor) (cells : List Address) :
    (e.takeAll (cells.map .result)).sheet =
      { e.sheet with
        records := cells.foldl (fun rs a => rs.settle e.sheet.texts a) e.sheet.records } := by
  induction cells generalizing e with
  | nil => rfl
  | cons a cells ih => exact ih (e.take (.result a))

/-- A recompute is a new pass in which every cell has been asked for. -/
theorem sheet_recompute (e : Editor) :
    (e.beginPass.takeAll (Address.all.map .result)).sheet = e.sheet.recompute :=
  sheet_takeAll_results e.beginPass Address.all

/-! ## Memory -/

theorem record_kept (e : Editor) (late : List PassStep) {a : Address}
    (evaluated : (e.sheet.record a).evaluated = true) :
    (e.takeAll late).sheet.record a = e.sheet.record a :=
  (e.takeAll_passage late).advance.kept a evaluated

/-- Asking once more is one more step. -/
theorem record_visit_kept (e : Editor) (late : List PassStep) {a : Address}
    (evaluated : (e.sheet.record a).evaluated = true) :
    ((e.takeAll late).sheet.visit a).record a = e.sheet.record a := by
  have kept := e.record_kept (late ++ [.result a]) evaluated
  rw [takeAll_append] at kept
  exact kept

/-- Once a record is evaluated, no further step changes it, later results are read off it, and the
text of its cell is not evaluated any more; what its cell shows is made of the record and of the text
that stands there by then. A request evaluates the record of its cell and changes no text. Over all
steps of a pass together no text is evaluated twice; a recompute, which begins a pass, is as good as
asking for every cell. -/
theorem pass_remembers (e : Editor) (early late : List PassStep) :
    (∀ a, ((e.takeAll early).sheet.record a).evaluated = true →
      (e.takeAll (early ++ late)).sheet.record a = (e.takeAll early).sheet.record a ∧
      ((e.takeAll (early ++ late)).sheet.result a).1 = ((e.takeAll early).sheet.record a).outcome ∧
      ((e.takeAll (early ++ late)).sheet.display a).1 =
        Worksheet.display ((e.takeAll (early ++ late)).sheet.texts.get a)
          ((e.takeAll early).sheet.record a) ∧
      a ∉ Call.evaluated ((e.takeAll early).callsAlong (late ++ [.result a]))) ∧
    (∀ step a, step.request? = some a →
      (((e.takeAll early).take step).sheet.record a).evaluated = true ∧
      ((e.takeAll early).take step).sheet.texts = (e.takeAll early).sheet.texts) ∧
    (Call.evaluated (e.callsAlong (early ++ late))).Nodup ∧
    (e.beginPass.takeAll (Address.all.map .result)).sheet = e.sheet.recompute := by
  refine ⟨fun a evaluated => ?_, fun step a asked => ?_, (e.takeAll_passage (early ++ late)).once,
    e.sheet_recompute⟩
  · have visited := (e.takeAll early).record_visit_kept late evaluated
    rw [takeAll_append]
    refine ⟨record_kept _ late evaluated, congrArg Record.outcome visited, ?_, fun again => ?_⟩
    · rw [Sheet.display, visited]
      rfl
    · exact Records.not_mem_untouched_of_evaluated evaluated
        (((e.takeAll early).takeAll_passage _).fresh a again)
  · rw [sheet_take_of_request _ asked]
    exact ⟨(Records.settle_passage _ a _).2.2, rfl⟩

/-- An empty cell is asked for, and then a number is written into it. -/
theorem pass_remembers_of_overwritten :
    let e := (new "f").beginPass
    let early := [.result .origin]
    let late := [.setText .origin "10"]
    ((e.takeAll early).sheet.record .origin).evaluated = true ∧
      (PassStep.result .origin).request? = some .origin ∧
      (e.takeAll (early ++ late)).sheet.text .origin = "10" ∧
      ((e.takeAll (early ++ late)).sheet.result .origin).1 = .ok 0.0 ∧
      ((e.takeAll early).take (.result .origin)).sheet.texts = (e.takeAll early).sheet.texts := by
  intro e early late
  obtain ⟨S⟩ := exists_solution e.sheet.texts
  have blank : e.sheet.texts.get .origin = .empty := Grid.get_fill _ _
  have settled : (e.takeAll early).sheet.record .origin = .settled (S.table .origin) :=
    ((Sheet.beginPass_inPass (new "f").sheet S).visit .origin).2
  have evaluated : ((e.takeAll early).sheet.record .origin).evaluated = true := by
    rw [settled, Record.evaluated_settled]
  have zero : S.table .origin = .ok 0.0 := by
    rw [S.solves, blank]
    rfl
  have written : (e.takeAll (early ++ late)).sheet.text .origin = "10" := by
    have other : (e.sheet.visit .origin).text .origin ≠ "10" := by
      change (e.sheet.texts.get .origin).text ≠ "10"
      rw [blank]
      decide
    change ((e.sheet.visit .origin).setText .origin "10").text .origin = "10"
    rw [Sheet.setText, if_neg other, Sheet.text, Grid.get_set, if_pos rfl]
    decide
  obtain ⟨remembers, requests, -, -⟩ := pass_remembers e early late
  obtain ⟨-, later, -, -⟩ := remembers .origin evaluated
  rw [settled, Record.outcome_settled, zero] at later
  exact ⟨evaluated, rfl, written, later, (requests (.result .origin) .origin rfl).2⟩

/-- What a cell shows is not remembered: after an edit the number is read in the new text, while the
result is still that of the old one. -/
theorem literal_read_again :
    let e := ((new "f").setText .origin "5").beginPass
    let early := [.result .origin]
    let now := e.takeAll (early ++ [.setText .origin "7.50"])
    ((e.takeAll early).sheet.record .origin).evaluated = true ∧
      (now.sheet.result .origin).1 = .ok 5.0 ∧ now.sheet.text .origin = "7.50" ∧
      (now.sheet.display .origin).1 = "7.5" := by
  decide +kernel

end Editor

end Worksheet
