import Worksheet.Proofs.Checked.Interpretation
import Worksheet.Proofs.Evaluation.Calls

/-!
Evaluating with every place checked.

A formula is evaluated while its bytes are read, and the row and the column of each reference are checked
before anything goes to their cell. A visit that may nest no deeper is a fault too. With as much depth as the
grid has cells, no request comes to a fault, whatever the texts and the records are (`Checked.settle_eq`).
-/

namespace Worksheet.Checked

/-! ## Formulas -/

/-- The outcome of a text, asking `resolve` for the cells that a formula refers to. -/
def outcomeOf {m : Type → Type} [Monad m] [MonadLiftT Checked m] (resolve : Address → m Outcome)
    (text : CellText) : m Outcome :=
  match text.content with
  | .formula body => interpret resolve (Text.encode (String.ofList body))
  | .number value => pure (.ok value)
  | .nothing | .words => pure (.ok 0.0)

theorem outcomeOf_eq (resolve : Address → StateT Records Checked Outcome) (text : CellText) :
    outcomeOf resolve text = Records.outcomeOf resolve text := by
  unfold outcomeOf Records.outcomeOf
  cases text.content with
  | formula body =>
      dsimp only
      rw [interpret_eq, String.toList_ofList]
  | nothing | number | words => rfl

/-! ## Visits -/

/-- Settles a cell, with visits nested at most `depth` deep. -/
def visit (texts : Grid CellText) : Nat → Address → StateT Records Checked Unit
  | depth, a => do
    let r := (← get).get a
    if r.evaluated then return
    else if r.evaluating then modify (·.set a r.reentered)
    else
      match depth with
      | 0 => throw .tooDeep
      | depth + 1 => do
        modify (·.set a r.begun)
        let outcome ← outcomeOf
          (fun b => do
            visit texts depth b
            return ((← get).get b).outcome)
          (texts.get a)
        modify (·.set a (.settled outcome))

/-- Visits a cell and reads its outcome. -/
def ask (texts : Grid CellText) (depth : Nat) (a : Address) : StateT Records Checked Outcome := do
  visit texts depth a
  return ((← get).get a).outcome

section Equations

variable (texts : Grid CellText) (depth : Nat) (a : Address)

theorem visit_zero : visit texts 0 a = (do
    let rs ← get
    if (rs.get a).evaluated then return
    else if (rs.get a).evaluating then modify (·.set a (rs.get a).reentered)
    else throw .tooDeep) := by
  unfold visit
  rfl

theorem visit_succ : visit texts (depth + 1) a = (do
    let rs ← get
    if (rs.get a).evaluated then return
    else if (rs.get a).evaluating then modify (·.set a (rs.get a).reentered)
    else
      modify (·.set a (rs.get a).begun)
      let outcome ← Records.outcomeOf (ask texts depth) (texts.get a)
      modify (·.set a (.settled outcome))) := by
  conv_lhs => unfold visit
  simp only [outcomeOf_eq]
  rfl

end Equations

/-- Where the second computation gives nothing, the first says that calls are nested too deep, and
otherwise the two do the same. -/
def Answers {α : Type} (x : StateT Records Checked α) (y : StateT Records Option α) : Prop :=
  ∀ rs, x.run rs = (y.run rs).elim (.error .tooDeep) .ok

namespace Answers

variable {α β : Type}

theorem pure (r : α) : Answers (Pure.pure r) (Pure.pure r) := fun _ => rfl

theorem bind {x : StateT Records Checked α} {y : StateT Records Option α}
    {f : α → StateT Records Checked β} {g : α → StateT Records Option β} (first : Answers x y)
    (rest : ∀ r, Answers (f r) (g r)) : Answers (x >>= f) (y >>= g) := by
  intro rs
  rw [StateT.run_bind, StateT.run_bind, first rs]
  rcases y.run rs with _ | ⟨r, rs'⟩
  · rfl
  · exact rest r rs'

theorem get : Answers (MonadState.get : StateT Records Checked Records) MonadState.get :=
  fun _ => rfl

theorem write (a : Address) (r : Record) :
    Answers (modify (·.set a r) : StateT Records Checked Unit) (modify (·.set a r)) :=
  fun _ => rfl

theorem tooDeep : Answers (throw .tooDeep : StateT Records Checked α) failure := fun _ => rfl

end Answers

theorem answers_visit (texts : Grid CellText) (depth : Nat) (a : Address) :
    Answers (visit texts depth a) (Records.visit texts depth a) := by
  induction depth generalizing a with
  | zero =>
      rw [visit_zero, Records.visit_zero]
      refine .bind .get fun rs => ?_
      split
      · exact .pure ()
      split
      · exact .write a _
      · exact .tooDeep
  | succ depth ih =>
      have asks (b : Address) : Answers (ask texts depth b) (Records.ask texts depth b) :=
        .bind (ih b) fun _ => .bind .get fun _ => .pure _
      have evaluates : Answers (Records.outcomeOf (ask texts depth) (texts.get a))
          (Records.outcomeOf (Records.ask texts depth) (texts.get a)) :=
        CellText.outcomeOf_related .pure (fun _ _ _ _ => .bind) (texts.get a) asks
      rw [visit_succ, Records.visit_succ]
      refine .bind .get fun rs => ?_
      split
      · exact .pure ()
      split
      · exact .write a _
      · exact .bind (.write a _) fun _ => .bind evaluates fun _ => .write a _

/-! ## Requests -/

/-- Settles a cell; the depth allowed is the number of cells. -/
def settle (texts : Grid CellText) (a : Address) (rs : Records) : Checked Records := do
  let ((), rs) ← (visit texts cellCount a).run rs
  return rs

theorem settle_eq (texts : Grid CellText) (a : Address) (rs : Records) :
    settle texts a rs = .ok (rs.settle texts a) := by
  rw [settle, answers_visit texts cellCount a rs, Records.run_visit texts a rs (Nat.le_refl _)]
  rfl

/-- The outcome of the cell at a row and a column, in this pass. -/
def result (s : Sheet) (row column : Nat) : Checked (Outcome × Sheet) := do
  let a ← locate row column
  let records ← settle s.texts a s.records
  return ((records.get a).outcome, { s with records := records })

/-- What the cell at a row and a column shows, in this pass. -/
def display (s : Sheet) (row column : Nat) : Checked (String × Sheet) := do
  let a ← locate row column
  let records ← settle s.texts a s.records
  return (Worksheet.display (s.texts.get a) (records.get a), { s with records := records })

theorem result_eq (s : Sheet) (a : Address) :
    result s a.row.val a.column.val = .ok (s.result a) := by
  rw [result, locate_address, ok_bind, settle_eq]
  rfl

theorem display_eq (s : Sheet) (a : Address) :
    display s a.row.val a.column.val = .ok (s.display a) := by
  rw [display, locate_address, ok_bind, settle_eq]
  rfl

end Worksheet.Checked
