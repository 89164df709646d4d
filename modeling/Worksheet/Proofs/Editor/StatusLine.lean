import Worksheet.Proofs.Evaluation.Pass
import Worksheet.Proofs.Evaluation.Recompute

/-!
The grid and the status line say the same of a cell.

A cell shows a number by reading its text anew, and only for a formula by looking into the record. The
status line goes by the record alone. Both come to the same because within a pass a record is settled with
what its text comes to (`Editor.takeAll_inPass`), and a text without a formula comes to the number that it
reads as, or else to zero (`CellText.accords_display`). So a number in the grid is the value in the status
line, and where the grid shows words or nothing the value is zero.
-/

namespace Worksheet

/-! ## Texts and outcomes -/

/-- What a cell with this text shows accords with its outcome: an error shows by its name, a formula or a
number as the value, and anything else as it stands, the value being zero then. -/
def CellText.Accords (t : CellText) (shown : String) : Outcome → Prop
  | .error k => shown = "#" ++ k.name
  | .ok v =>
    match t.content with
    | .formula _ => shown = formatNumber v
    | .number value => v = value ∧ shown = formatNumber v
    | .words => v = 0.0 ∧ shown = t.text
    | .nothing => v = 0.0 ∧ shown = ""

theorem CellText.fst_evaluateIn (t : CellText) (table : Address → Outcome) :
    (t.evaluateIn table).1 =
      match t.content with
      | .formula body => ((Expr.ofChars body).evaluateIn table).1
      | .number value => .ok value
      | .words | .nothing => .ok 0.0 := by
  have run : t.evaluateIn table = (Records.outcomeOf (Expr.listing table) t).run [] := by
    rw [outcomeOf_eq, evaluateIn]
    cases t.formula? with
    | none | some body => rfl
  rw [run, Records.outcomeOf]
  cases t.content with
  | formula body | number value | words | nothing => rfl

theorem CellText.accords_display (t : CellText) (table : Address → Outcome) :
    t.Accords (display t (.settled (t.evaluateIn table).1)) (t.evaluateIn table).1 := by
  have outcome := t.fst_evaluateIn table
  cases comes : (t.evaluateIn table).1 with
  | error k => rfl
  | ok v =>
      rw [comes] at outcome
      unfold Accords display
      dsimp only [Record.settled]
      cases kind : t.content with
      | formula body => rfl
      | number value =>
          rw [kind] at outcome
          exact ⟨Except.ok.inj outcome, congrArg formatNumber (Except.ok.inj outcome).symm⟩
      | words | nothing =>
          rw [kind] at outcome
          exact ⟨Except.ok.inj outcome, rfl⟩

/-! ## Within a pass -/

namespace Editor

variable {texts : Grid CellText} {S : Solution texts} {e : Editor}

theorem takeAll_inPass (pass : e.sheet.InPass S) {steps : List PassStep}
    (queries : ∀ step ∈ steps, step.request?.isSome = true) : (e.takeAll steps).sheet.InPass S := by
  induction steps generalizing e with
  | nil => exact pass
  | cons step steps ih =>
      obtain ⟨query, queries⟩ := List.forall_mem_cons.mp queries
      obtain ⟨a, asked⟩ := Option.isSome_iff_exists.mp query
      refine ih ?_ queries
      rw [sheet_take_of_request e asked]
      exact (pass.visit a).1

/-- The status line, with what it says of the outcome. -/
def statusSaying (e : Editor) (value : String) : String :=
  let raw := String.ofList ((e.sheet.texts.get e.cursor).chars.map Text.shown)
  let mark := if e.sheet.modified then " [+]" else ""
  let message :=
    match e.status with
    | some s => "  " ++ s
    | none => ""
  e.cursor.label ++ " [" ++ raw ++ "] " ++ value ++ mark ++ message

theorem fst_statusLine (e : Editor) : e.statusLine.1 = e.statusSaying
    (match (e.sheet.result e.cursor).1 with
      | .ok v => "val=" ++ formatNumber v
      | .error k => "err=" ++ k.name) :=
  rfl

end Editor

/-- Within a pass, whatever has been asked for, the status line of a cell tells the outcome of the cell, and
what the grid shows accords with it. -/
theorem Editor.statusLine_agrees (e : Editor) {steps : List PassStep}
    (queries : ∀ step ∈ steps, step.request?.isSome = true) (a : Address) :
    let now := e.beginPass.takeAll steps
    let atCell := { now with cursor := a }
    let outcome := (now.sheet.result a).1
    (e.sheet.texts.get a).Accords (now.sheet.display a).1 outcome ∧
      atCell.statusLine.1 = atCell.statusSaying
        (match outcome with
          | .ok v => "val=" ++ formatNumber v
          | .error k => "err=" ++ k.name) := by
  intro now atCell outcome
  obtain ⟨S⟩ := exists_solution e.sheet.texts
  have pass : now.sheet.InPass S := takeAll_inPass (Sheet.beginPass_inPass e.sheet S) queries
  obtain ⟨after, settled⟩ := pass.visit a
  have comes : outcome = ((e.sheet.texts.get a).evaluateIn S.table).1 := by
    rw [← S.solves a, ← Record.outcome_settled (S.table a), ← settled]
    rfl
  have shows : (now.sheet.display a).1 = display (e.sheet.texts.get a) (.settled outcome) := by
    rw [comes, ← S.solves a, ← settled, ← after.texts_eq]
    rfl
  refine ⟨?_, atCell.fst_statusLine⟩
  rw [shows, comes]
  exact (e.sheet.texts.get a).accords_display S.table

/-- A number with blanks around it, and in another form than it is shown in. -/
theorem Editor.statusLine_agrees_of_padded :
    let e := (Editor.new "f").setText .origin " 07.50 "
    let queries := [PassStep.display .origin, .status .origin]
    let now := e.beginPass.takeAll queries
    (∀ step ∈ queries, step.request?.isSome = true) ∧ (now.sheet.result .origin).1 = .ok 7.5 ∧
      (now.sheet.display .origin).1 = "7.5" ∧ (e.sheet.texts.get .origin).Accords "7.5" (.ok 7.5) ∧
      ({ now with cursor := .origin } : Editor).statusLine.1 = "A1 [ 07.50 ] val=7.5 [+]" := by
  intro e queries now
  have asks : ∀ step ∈ queries, step.request?.isSome = true := by decide
  have outcome : (now.sheet.result .origin).1 = .ok 7.5 := by decide +kernel
  have shown : (now.sheet.display .origin).1 = "7.5" := by decide +kernel
  obtain ⟨accords, line⟩ := e.statusLine_agrees asks .origin
  rw [outcome, shown] at accords
  rw [outcome] at line
  exact ⟨asks, outcome, shown, accords, line.trans (by decide +kernel)⟩

end Worksheet
