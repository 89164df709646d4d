import Worksheet.Proofs.Evaluation.Solution
import Mathlib.Data.Fintype.Card

/-!
Visiting cells finds the solution.

`Records.Sound` is what a pass keeps: every record is at some stage of settling the outcome that the
solution gives to its cell. A visit may meet a cell that is under way. The cells under way lead, by
the solution's own demands, to the cell now visited, so that such a cell demands itself; it is a
cycle in the solution too, and marking it early anticipates what its own evaluation will come to.

* `Records.visit_settles`: a visit with enough depth ends, keeps soundness and settles its cell.
* `Records.Idle.settle`: between two requests no cell is under way, and the cell asked for carries
  the outcome of the solution.
* `Records.get_recompute`: so does every cell after a recompute.
-/

namespace Worksheet

open Relation (TransGen)

/-! ## Stages of a record -/

/-- The records that a cell goes through in a pass that gives it `outcome`. -/
inductive Record.Stage (outcome : Outcome) : Record → Prop
  | unvisited : Stage outcome .unvisited
  | begun : Stage outcome Record.unvisited.begun
  | reentered : Stage outcome Record.unvisited.begun.reentered
  | settled : Stage outcome (.settled outcome)

@[simp] theorem Record.outcome_settled (o : Outcome) : (settled o).outcome = o := by
  cases o <;> rfl

@[simp] theorem Record.evaluated_settled (o : Outcome) : (settled o).evaluated = true := by
  cases o <;> rfl

@[simp] theorem Record.evaluating_settled (o : Outcome) : (settled o).evaluating = false := by
  cases o <;> rfl

theorem Record.Stage.eq_unvisited {outcome : Outcome} {r : Record} (stage : r.Stage outcome)
    (evaluated : r.evaluated = false) (evaluating : r.evaluating = false) : r = .unvisited := by
  cases stage with
  | unvisited => rfl
  | begun => cases evaluating
  | reentered => cases evaluated
  | settled =>
      rw [evaluated_settled] at evaluated
      cases evaluated

theorem Record.Stage.eq_begun {outcome : Outcome} {r : Record} (stage : r.Stage outcome)
    (evaluated : r.evaluated = false) (evaluating : r.evaluating = true) :
    r = Record.unvisited.begun := by
  cases stage with
  | unvisited => cases evaluating
  | begun => rfl
  | reentered => cases evaluated
  | settled =>
      rw [evaluated_settled] at evaluated
      cases evaluated

namespace Records

def Sound {texts : Grid CellText} (S : Solution texts) (rs : Records) : Prop :=
  ∀ a, (rs.get a).Stage (S.table a)

/-- Every cell under way leads to `a` by the demands of the solution. -/
def LeadsTo {texts : Grid CellText} (S : Solution texts) (rs : Records) (a : Address) : Prop :=
  ∀ b, (rs.get b).evaluating = true → TransGen (Demands texts S.table) b a

/-- What a visit leaves alone: which cells are under way, and every evaluated record. -/
structure Advance (rs rs' : Records) : Prop where
  evaluating : ∀ a, (rs'.get a).evaluating = (rs.get a).evaluating
  kept : ∀ a, (rs.get a).evaluated = true → rs'.get a = rs.get a

theorem Advance.refl (rs : Records) : Advance rs rs := ⟨fun _ => rfl, fun _ _ => rfl⟩

theorem Advance.trans {rs rs' rs'' : Records} (early : Advance rs rs') (late : Advance rs' rs'') :
    Advance rs rs'' := by
  refine ⟨fun a => (late.evaluating a).trans (early.evaluating a), fun a evaluated => ?_⟩
  have same := early.kept a evaluated
  exact (late.kept a (same ▸ evaluated)).trans same

/-! ## Untouched cells bound the depth -/

def untouched (rs : Records) : Finset Address :=
  {a | (rs.get a).evaluated = false ∧ (rs.get a).evaluating = false}

theorem mem_untouched {rs : Records} {a : Address} :
    a ∈ untouched rs ↔ (rs.get a).evaluated = false ∧ (rs.get a).evaluating = false := by
  simp only [untouched, Finset.mem_filter, Finset.mem_univ, true_and]

theorem card_untouched_le (rs : Records) : (untouched rs).card ≤ cellCount := by
  have injective : Function.Injective Address.index := fun _ _ => Address.index_injective
  have cells : Fintype.card Address ≤ Fintype.card (Fin cellCount) :=
    Fintype.card_le_of_injective _ injective
  rw [Fintype.card_fin] at cells
  exact (Finset.card_le_univ _).trans cells

theorem Advance.untouched_subset {rs rs' : Records} (advance : Advance rs rs') :
    untouched rs' ⊆ untouched rs := by
  intro a member
  obtain ⟨evaluated, evaluating⟩ := mem_untouched.mp member
  refine mem_untouched.mpr ⟨?_, advance.evaluating a ▸ evaluating⟩
  by_contra done
  rw [Bool.not_eq_false] at done
  rw [advance.kept a done, done] at evaluated
  cases evaluated

theorem not_mem_untouched_of_evaluated {rs : Records} {a : Address}
    (evaluated : (rs.get a).evaluated = true) : a ∉ untouched rs := by
  intro member
  have stage := mem_untouched.mp member
  rw [evaluated] at stage
  cases stage.1

theorem not_mem_untouched_begun (rs : Records) (a : Address) :
    a ∉ untouched (rs.set a (rs.get a).begun) := by
  intro member
  have stage := mem_untouched.mp member
  rw [Grid.get_set, if_pos rfl] at stage
  cases stage.2

theorem untouched_begun_subset (rs : Records) (a : Address) :
    untouched (rs.set a (rs.get a).begun) ⊆ untouched rs := by
  intro b member
  have stage := mem_untouched.mp member
  rw [Grid.get_set] at stage
  split at stage
  · cases stage.2
  · exact mem_untouched.mpr stage

theorem card_untouched_begun_lt {rs : Records} {a : Address} (fresh : a ∈ untouched rs) :
    (untouched (rs.set a (rs.get a).begun)).card < (untouched rs).card :=
  Finset.card_lt_card ((Finset.ssubset_iff_of_subset (untouched_begun_subset rs a)).mpr
    ⟨a, fresh, not_mem_untouched_begun rs a⟩)

/-! ## Writing one record -/

section Write

variable {texts : Grid CellText} {S : Solution texts} {rs rs' : Records} {a : Address} {r : Record}

theorem Sound.set (sound : Sound S rs) (stage : r.Stage (S.table a)) : Sound S (rs.set a r) := by
  intro b
  rw [Grid.get_set]
  split
  · next same =>
      subst same
      exact stage
  · exact sound b

theorem Advance.set (evaluated : (rs.get a).evaluated = false)
    (evaluating : r.evaluating = (rs.get a).evaluating) : Advance rs (rs.set a r) := by
  refine ⟨fun b => ?_, fun b done => ?_⟩
  · rw [Grid.get_set]
    split
    · next same =>
        subst same
        exact evaluating
    · rfl
  · rw [Grid.get_set, if_neg]
    rintro rfl
    rw [evaluated] at done
    cases done

/-- The mark set at the beginning is gone once the cell is settled. -/
theorem Advance.settle (fresh : a ∈ untouched rs)
    (advance : Advance (rs.set a (rs.get a).begun) rs') (outcome : Outcome) :
    Advance rs (rs'.set a (.settled outcome)) := by
  obtain ⟨evaluated, evaluating⟩ := mem_untouched.mp fresh
  refine ⟨fun b => ?_, fun b done => ?_⟩
  · have same := advance.evaluating b
    rw [Grid.get_set] at same ⊢
    split
    · next here =>
        subst here
        rw [evaluating, Record.evaluating_settled]
    · next elsewhere => rw [same, if_neg elsewhere]
  · have elsewhere : a ≠ b := by
      rintro rfl
      rw [evaluated] at done
      cases done
    have same := advance.kept b
    rw [Grid.get_set, if_neg elsewhere] at same ⊢
    exact same done

/-- An evaluated record holds the cell's outcome, also where the cell was met again on the way to
itself. -/
theorem Sound.outcome_of_evaluated (sound : Sound S rs) (path : LeadsTo S rs a)
    (evaluated : (rs.get a).evaluated = true) : (rs.get a).outcome = S.table a := by
  have stage := sound a
  have loop := path a
  generalize rs.get a = record at stage loop evaluated ⊢
  cases stage with
  | unvisited => cases evaluated
  | begun => cases evaluated
  | reentered => exact (S.cycle_of_transGen (loop rfl)).symm
  | settled => exact Record.outcome_settled _

theorem LeadsTo.begun (path : LeadsTo S rs a) {b : Address}
    (demanded : Demands texts S.table a b) : LeadsTo S (rs.set a (rs.get a).begun) b := by
  intro c underWay
  rw [Grid.get_set] at underWay
  split at underWay
  · next here =>
      subst here
      exact .single demanded
  · exact (path c underWay).tail demanded

theorem LeadsTo.advance (path : LeadsTo S rs a) (advance : Advance rs rs') : LeadsTo S rs' a := by
  intro b underWay
  rw [advance.evaluating] at underWay
  exact path b underWay

end Write

/-! ## One visit -/

section Noting

variable {m : Type → Type} [Monad m] [MonadState Records m] (note : Call → m Unit)
  (tooDeep : m Unit) (texts : Grid CellText) (depth : Nat) (outer : List Address) (a : Address)

/-- Visits a cell, noting every call, and reads the outcome of the cell. -/
def askNoting : m Outcome := do
  visitNoting note tooDeep texts depth outer a
  return ((← get).get a).outcome

/-- A visit with no depth left settles no text. -/
theorem visitNoting_zero : visitNoting note tooDeep texts 0 outer a = (do
    let rs ← get
    if (rs.get a).evaluated then note ⟨outer, a, false⟩
    else if (rs.get a).evaluating then
      note ⟨outer, a, false⟩
      modify (·.set a (rs.get a).reentered)
    else tooDeep) := by
  unfold visitNoting
  rfl

theorem visitNoting_succ : visitNoting note tooDeep texts (depth + 1) outer a = (do
    let rs ← get
    if (rs.get a).evaluated then note ⟨outer, a, false⟩
    else if (rs.get a).evaluating then
      note ⟨outer, a, false⟩
      modify (·.set a (rs.get a).reentered)
    else
      note ⟨outer, a, true⟩
      modify (·.set a (rs.get a).begun)
      let outcome ← outcomeOf (askNoting note tooDeep texts depth (a :: outer)) (texts.get a)
      modify (·.set a (.settled outcome))) := by
  conv_lhs => unfold visitNoting
  rfl

end Noting

/-- Visits a cell and reads its outcome. -/
def ask (texts : Grid CellText) (depth : Nat) (a : Address) : StateT Records Option Outcome := do
  visit texts depth a
  return ((← get).get a).outcome

section Quiet

variable (texts : Grid CellText) (depth : Nat) (a : Address)

/-- Where nothing is noted, it makes no difference which cells are around a visit. -/
theorem visitNoting_quiet (outer : List Address) :
    visitNoting (fun _ => pure ()) failure texts depth outer a = visit texts depth a := by
  induction depth generalizing outer a with
  | zero => rw [visit, visitNoting_zero, visitNoting_zero]
  | succ depth ih =>
      have same : askNoting (m := StateT Records Option) (fun _ => pure ()) failure texts depth
            (a :: outer) =
          askNoting (fun _ => pure ()) failure texts depth [a] := by
        funext b
        rw [askNoting, askNoting, ih, ih]
      rw [visit, visitNoting_succ, visitNoting_succ, same]

theorem askNoting_quiet (outer : List Address) :
    askNoting (fun _ => pure ()) failure texts depth outer a = ask texts depth a := by
  rw [askNoting, visitNoting_quiet, ask]

theorem visit_zero : visit texts 0 a = (do
    let rs ← get
    if (rs.get a).evaluated then return
    else if (rs.get a).evaluating then modify (·.set a (rs.get a).reentered)
    else failure) := by
  rw [visit, visitNoting_zero]
  rfl

theorem visit_succ : visit texts (depth + 1) a = (do
    let rs ← get
    if (rs.get a).evaluated then return
    else if (rs.get a).evaluating then modify (·.set a (rs.get a).reentered)
    else
      modify (·.set a (rs.get a).begun)
      let outcome ← outcomeOf (ask texts depth) (texts.get a)
      modify (·.set a (.settled outcome))) := by
  have asks : askNoting (fun _ => pure ()) failure texts depth [a] = ask texts depth :=
    funext fun b => askNoting_quiet texts depth b [a]
  rw [visit, visitNoting_succ, asks]
  rfl

end Quiet

section Visit

variable {texts : Grid CellText} {depth : Nat} {a : Address} {rs rs' : Records}

theorem run_ask (run : (visit texts depth a).run rs = some ((), rs')) :
    (ask texts depth a).run rs = some ((rs'.get a).outcome, rs') := by
  unfold ask
  rw [StateT.run_bind, run]
  rfl

theorem visit_of_evaluated (evaluated : (rs.get a).evaluated = true) :
    (visit texts depth a).run rs = some ((), rs) := by
  unfold visit visitNoting
  rw [StateT.run_bind, StateT.run_get, pure_bind, if_pos evaluated]
  rfl

theorem visit_of_evaluating (evaluated : (rs.get a).evaluated = false)
    (evaluating : (rs.get a).evaluating = true) :
    (visit texts depth a).run rs = some ((), rs.set a (rs.get a).reentered) := by
  unfold visit visitNoting
  rw [StateT.run_bind, StateT.run_get, pure_bind, if_neg (ne_true_of_eq_false evaluated),
    if_pos evaluating]
  rfl

theorem visit_of_untouched {outcome : Outcome} (fresh : a ∈ untouched rs)
    (evaluation : (outcomeOf (ask texts depth) (texts.get a)).run (rs.set a (rs.get a).begun) =
      some (outcome, rs')) :
    (visit texts (depth + 1) a).run rs = some ((), rs'.set a (.settled outcome)) := by
  obtain ⟨evaluated, evaluating⟩ := mem_untouched.mp fresh
  rw [visit_succ, StateT.run_bind, StateT.run_get, pure_bind,
    if_neg (ne_true_of_eq_false evaluated), if_neg (ne_true_of_eq_false evaluating),
    StateT.run_bind, StateT.run_modify, pure_bind, StateT.run_bind, evaluation]
  rfl

/-- A visit to a cell that is evaluated or under way looks no further than its record. -/
theorem visit_of_touched (texts : Grid CellText) (depth : Nat) (touched : a ∉ untouched rs) :
    ∃ rs', (visit texts depth a).run rs = some ((), rs') ∧ Advance rs rs' ∧
      (rs'.get a).evaluated = true ∧
      (rs' = rs ∨ (rs.get a).evaluated = false ∧ (rs.get a).evaluating = true ∧
        rs' = rs.set a (rs.get a).reentered) := by
  cases evaluated : (rs.get a).evaluated with
  | true => exact ⟨rs, visit_of_evaluated evaluated, .refl rs, evaluated, .inl rfl⟩
  | false =>
      have evaluating : (rs.get a).evaluating = true := by
        by_contra idle
        exact touched (mem_untouched.mpr ⟨evaluated, eq_false_of_ne_true idle⟩)
      refine ⟨_, visit_of_evaluating evaluated evaluating, .set evaluated rfl, ?_,
        .inr ⟨rfl, evaluating, rfl⟩⟩
      rw [Grid.get_set, if_pos rfl]
      rfl

theorem visit_settles_of_touched {S : Solution texts} (sound : Sound S rs)
    (touched : a ∉ untouched rs) :
    ∃ rs', (visit texts depth a).run rs = some ((), rs') ∧
      Sound S rs' ∧ Advance rs rs' ∧ (rs'.get a).evaluated = true := by
  obtain ⟨rs', run, advance, done, rfl | ⟨evaluated, evaluating, rfl⟩⟩ :=
    visit_of_touched texts depth touched
  · exact ⟨rs', run, sound, advance, done⟩
  · refine ⟨_, run, sound.set ?_, advance, done⟩
    rw [(sound a).eq_begun evaluated evaluating]
    exact .reentered

/-- A visit ends if the depth allowed is no less than the number of untouched cells, and then its cell
is evaluated. -/
theorem visit_settles {S : Solution texts} (sound : Sound S rs) (path : LeadsTo S rs a)
    (room : (untouched rs).card ≤ depth) :
    ∃ rs', (visit texts depth a).run rs = some ((), rs') ∧
      Sound S rs' ∧ Advance rs rs' ∧ (rs'.get a).evaluated = true := by
  induction depth generalizing a rs with
  | zero =>
      refine visit_settles_of_touched sound fun fresh => ?_
      exact absurd (Finset.card_pos.mpr ⟨a, fresh⟩) (Nat.not_lt.mpr room)
  | succ depth ih =>
      by_cases fresh : a ∈ untouched rs
      swap
      · exact visit_settles_of_touched sound fresh
      let begun := rs.set a (rs.get a).begun
      have soundBegun : Sound S begun := by
        obtain ⟨evaluated, evaluating⟩ := mem_untouched.mp fresh
        refine sound.set ?_
        rw [(sound a).eq_unvisited evaluated evaluating]
        exact .begun
      have roomBegun : (untouched begun).card ≤ depth :=
        Nat.le_of_lt_succ ((card_untouched_begun_lt fresh).trans_le room)
      -- each cell that the text asks for is one demand further on, and one cell fewer is untouched
      have answers : ∀ b ∈ ((texts.get a).evaluateIn S.table).2, ∀ s,
          Sound S s ∧ Advance begun s →
          ∃ t, (ask texts depth b).run s = some (S.table b, t) ∧ Sound S t ∧ Advance begun t := by
        rintro b demanded s ⟨soundBefore, advanceBefore⟩
        have pathBefore : LeadsTo S s b := (path.begun demanded).advance advanceBefore
        have roomBefore := (Finset.card_le_card advanceBefore.untouched_subset).trans roomBegun
        obtain ⟨t, run, soundAfter, advance, done⟩ := ih soundBefore pathBefore roomBefore
        refine ⟨t, ?_, soundAfter, advanceBefore.trans advance⟩
        rw [run_ask run, soundAfter.outcome_of_evaluated (pathBefore.advance advance) done]
      obtain ⟨after, evaluation, soundAfter, advance⟩ :=
        CellText.run_outcomeOf (texts.get a) answers ⟨soundBegun, .refl begun⟩
      rw [← S.solves a] at evaluation
      refine ⟨_, visit_of_untouched fresh evaluation, soundAfter.set .settled,
        advance.settle fresh _, ?_⟩
      rw [Grid.get_set, if_pos rfl, Record.evaluated_settled]

end Visit

/-! ## Requests -/

/-- What one request keeps, and what it says of the cell asked for, goes for a list of requests: a
record once evaluated stays. -/
theorem foldl_settle {texts : Grid CellText} (Keeps : Records → Prop)
    (Done : Address → Record → Prop) (evaluated : ∀ a r, Done a r → r.evaluated = true)
    (step : ∀ rs a, Keeps rs → Keeps (settle texts a rs) ∧ Advance rs (settle texts a rs) ∧
      Done a ((settle texts a rs).get a))
    (cells : List Address) {rs : Records} (keeps : Keeps rs) :
    Keeps (cells.foldl (fun rs a => settle texts a rs) rs) ∧
      Advance rs (cells.foldl (fun rs a => settle texts a rs) rs) ∧
      ∀ a ∈ cells, Done a ((cells.foldl (fun rs a => settle texts a rs) rs).get a) := by
  induction cells generalizing rs with
  | nil => exact ⟨keeps, .refl rs, nofun⟩
  | cons a cells ih =>
      obtain ⟨keepsFirst, advanceFirst, first⟩ := step rs a keeps
      obtain ⟨keepsRest, advanceRest, rest⟩ := ih keepsFirst
      refine ⟨keepsRest, advanceFirst.trans advanceRest, fun b member => ?_⟩
      rcases List.mem_cons.mp member with rfl | member
      · rw [List.foldl_cons, advanceRest.kept b (evaluated b _ first)]
        exact first
      · exact rest b member

/-- The records between two requests: no cell is under way. -/
structure Idle {texts : Grid CellText} (S : Solution texts) (rs : Records) : Prop where
  sound : Sound S rs
  evaluating : ∀ a, (rs.get a).evaluating = false

section Requests

variable {texts : Grid CellText} {S : Solution texts} {rs : Records}

theorem Idle.unvisited : Idle S unvisited := by
  refine ⟨fun a => ?_, fun a => ?_⟩
  · rw [Records.unvisited, Grid.get_fill]
    exact .unvisited
  · rw [Records.unvisited, Grid.get_fill]
    rfl

theorem Idle.get_of_evaluated (idle : Idle S rs) {a : Address}
    (evaluated : (rs.get a).evaluated = true) : rs.get a = .settled (S.table a) := by
  have stage := idle.sound a
  have evaluating := idle.evaluating a
  generalize rs.get a = record at stage evaluated evaluating ⊢
  cases stage with
  | unvisited => cases evaluated
  | begun => cases evaluated
  | reentered => cases evaluating
  | settled => rfl

/-- A request keeps what is settled and settles the cell asked for. -/
theorem Idle.settle (idle : Idle S rs) (a : Address) :
    Idle S (settle texts a rs) ∧ Advance rs (settle texts a rs) ∧
      (settle texts a rs).get a = .settled (S.table a) := by
  have path : LeadsTo S rs a := by
    intro b underWay
    rw [idle.evaluating b] at underWay
    cases underWay
  obtain ⟨rs', run, sound, advance, evaluated⟩ :=
    visit_settles idle.sound path (card_untouched_le rs)
  have settled : Records.settle texts a rs = rs' := by
    unfold Records.settle
    rw [run]
  have idleAfter : Idle S rs' :=
    ⟨sound, fun b => (advance.evaluating b).trans (idle.evaluating b)⟩
  rw [settled]
  exact ⟨idleAfter, advance, idleAfter.get_of_evaluated evaluated⟩

theorem Idle.settleAll (idle : Idle S rs) (cells : List Address) :
    Idle S (cells.foldl (fun rs a => Records.settle texts a rs) rs) ∧
      ∀ a ∈ cells, (cells.foldl (fun rs a => Records.settle texts a rs) rs).get a =
        .settled (S.table a) := by
  have evaluated (b : Address) (r : Record) (done : r = .settled (S.table b)) :
      r.evaluated = true := by
    rw [done, Record.evaluated_settled]
  obtain ⟨after, -, settled⟩ := foldl_settle (Idle S) (fun b r => r = .settled (S.table b)) evaluated
    (fun _ b idle => idle.settle b) cells idle
  exact ⟨after, settled⟩

theorem get_recompute (S : Solution texts) (a : Address) :
    (recompute texts).get a = .settled (S.table a) :=
  (Idle.unvisited.settleAll Address.all).2 a a.mem_all

end Requests

end Records

end Worksheet
