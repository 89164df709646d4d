import Worksheet.Proofs.Evaluation.Visit
import Worksheet.Proofs.Numeral.Finite

/-!
What visits keep, whatever the records hold.

Texts may change in the middle of a pass, so that records of old and new texts stand side by side and
no solution describes them. What can still be said is said record by record. An invariant names the
records it keeps and the outcomes that evaluated ones have; it needs no more than that evaluation
cannot leave those outcomes and that each write to a record stays within it.

* `Records.visit_keeps`: a visit with enough depth ends and keeps every invariant.
* `Records.Rest.settle`, `Records.Rest.recompute`: so do requests and recomputes, which also leave no
  cell under way.
* `Record.lawful`: the invariant that a value is finite and an error goes with the value zero.
-/

namespace Worksheet

/-! ## Outcomes -/

/-- Outcomes that evaluation cannot leave. -/
structure Outcome.Closed (Gives : Outcome → Prop) : Prop where
  zero : Gives (.ok 0.0)
  finite (x : Float) : Gives (finite x)
  negate (x : Float) : Gives (.ok x) → Gives (.ok (-x))
  error (k : CellError) : k ≠ .dependency → Gives (.error k)

section Closed

variable {Gives : Outcome → Prop}

theorem Outcome.Closed.apply (closed : Closed Gives) (op : Operator) (x y : Float) :
    Gives (op.apply x y) := by
  cases op with
  | add | subtract | multiply => exact closed.finite _
  | divide =>
      simp only [Operator.apply]
      split
      · exact closed.error _ (by decide)
      · exact closed.finite _

theorem Outcome.Closed.ok_of_isFinite (closed : Closed Gives) {x : Float}
    (isFinite : x.isFinite = true) : Gives (.ok x) := by
  have gives := closed.finite x
  rw [Worksheet.finite, if_pos isFinite] at gives
  exact gives

/-- If every answer lies within the closed outcomes, then so does what becomes of a tree. -/
theorem Expr.run_evaluate_closed {σ : Type} {resolve : Address → StateT σ Option Outcome}
    {Good : σ → Prop} (closed : Outcome.Closed Gives)
    (answers : ∀ a s, Good s → ∃ o t, (resolve a).run s = some (o, t) ∧ Gives o ∧ Good t)
    (e : Expr) {s : σ} (good : Good s) :
    ∃ o t, (e.evaluate resolve).run s = some (o, t) ∧ Gives o ∧ Good t := by
  induction e generalizing s with
  | number value => exact ⟨_, s, rfl, closed.finite value, good⟩
  | outside | missing => exact ⟨_, s, rfl, closed.error _ nofun, good⟩
  | reference a => exact answers a s good
  | negate operand ih =>
      obtain ⟨o, t, run, gives, after⟩ := ih good
      rw [evaluate_negate, StateT.run_bind, run]
      cases o with
      | error k => exact ⟨_, t, rfl, gives, after⟩
      | ok x => exact ⟨_, t, rfl, closed.negate x gives, after⟩
  | binary op left right ihLeft ihRight =>
      obtain ⟨o, t, run, gives, between⟩ := ihLeft good
      rw [evaluate_binary, StateT.run_bind, run]
      cases o with
      | error k => exact ⟨_, t, rfl, gives, between⟩
      | ok x =>
          obtain ⟨p, u, runRight, givesRight, after⟩ := ihRight between
          change ∃ o v, (right.evaluate resolve >>= fun outcome =>
            pure (outcome.bind (op.apply x))).run t = some (o, v) ∧ Gives o ∧ Good v
          rw [StateT.run_bind, runRight]
          cases p with
          | error k => exact ⟨_, u, rfl, givesRight, after⟩
          | ok y => exact ⟨_, u, rfl, closed.apply op x y, after⟩
  | broken tree ih =>
      obtain ⟨o, t, run, gives, after⟩ := ih good
      rw [evaluate_broken, StateT.run_bind, run]
      cases o with
      | error k => exact ⟨_, t, rfl, gives, after⟩
      | ok x => exact ⟨_, t, rfl, closed.error _ nofun, after⟩

theorem CellText.run_outcomeOf_closed {σ : Type} {resolve : Address → StateT σ Option Outcome}
    {Good : σ → Prop} (closed : Outcome.Closed Gives)
    (answers : ∀ a s, Good s → ∃ o t, (resolve a).run s = some (o, t) ∧ Gives o ∧ Good t)
    (t : CellText) {s : σ} (good : Good s) :
    ∃ o s', (Records.outcomeOf resolve t).run s = some (o, s') ∧ Gives o ∧ Good s' := by
  rw [outcomeOf_eq]
  split
  · exact Expr.run_evaluate_closed closed answers _ good
  · refine ⟨_, s, rfl, ?_, good⟩
    cases literal : Numeral.literal? t.chars with
    | none => exact closed.zero
    | some x => exact closed.ok_of_isFinite (Numeral.isFinite_literal literal)

end Closed

/-! ## Records -/

/-- A property of records that every write of a visit keeps, where evaluated records have outcomes
that evaluation cannot leave. -/
structure Record.Invariant (Keeps : Record → Prop) (Gives : Outcome → Prop) : Prop where
  closed : Outcome.Closed Gives
  begun (r : Record) : Keeps r → r.evaluated = false → r.evaluating = false → Keeps r.begun
  reentered (r : Record) : Keeps r → r.evaluated = false → r.evaluating = true → Keeps r.reentered
  settled (o : Outcome) : Gives o → Keeps (.settled o)
  outcome (r : Record) : Keeps r → r.evaluated = true → Gives r.outcome

namespace Records

/-- Every record has the property. -/
def All (Keeps : Record → Prop) (rs : Records) : Prop := ∀ a, Keeps (rs.get a)

section Visit

variable {Keeps : Record → Prop} {Gives : Outcome → Prop} {texts : Grid CellText} {depth : Nat}
  {a : Address} {rs : Records}

theorem All.set (all : All Keeps rs) {r : Record} (keeps : Keeps r) : All Keeps (rs.set a r) := by
  intro b
  rw [Grid.get_set]
  split
  · exact keeps
  · exact all b

theorem visit_keeps_of_touched (inv : Record.Invariant Keeps Gives) (all : All Keeps rs)
    (touched : a ∉ untouched rs) :
    ∃ rs', (visit texts depth a).run rs = some ((), rs') ∧
      All Keeps rs' ∧ Advance rs rs' ∧ (rs'.get a).evaluated = true := by
  obtain ⟨rs', run, advance, done, rfl | ⟨evaluated, evaluating, rfl⟩⟩ :=
    visit_of_touched texts depth touched
  · exact ⟨rs', run, all, advance, done⟩
  · exact ⟨_, run, all.set (inv.reentered _ (all a) evaluated evaluating), advance, done⟩

/-- From any records that an invariant keeps, a visit ends if the depth allowed is no less than the
number of untouched cells, and the invariant is kept. -/
theorem visit_keeps (inv : Record.Invariant Keeps Gives) (texts : Grid CellText) (a : Address)
    (all : All Keeps rs) (room : (untouched rs).card ≤ depth) :
    ∃ rs', (visit texts depth a).run rs = some ((), rs') ∧
      All Keeps rs' ∧ Advance rs rs' ∧ (rs'.get a).evaluated = true := by
  induction depth generalizing a rs with
  | zero =>
      refine visit_keeps_of_touched inv all fun fresh => ?_
      exact absurd (Finset.card_pos.mpr ⟨a, fresh⟩) (Nat.not_lt.mpr room)
  | succ depth ih =>
      by_cases fresh : a ∈ untouched rs
      swap
      · exact visit_keeps_of_touched inv all fresh
      let begun := rs.set a (rs.get a).begun
      have allBegun : All Keeps begun := by
        obtain ⟨evaluated, evaluating⟩ := mem_untouched.mp fresh
        exact all.set (inv.begun _ (all a) evaluated evaluating)
      have roomBegun : (untouched begun).card ≤ depth :=
        Nat.le_of_lt_succ ((card_untouched_begun_lt fresh).trans_le room)
      have answers : ∀ b s, All Keeps s ∧ Advance begun s →
          ∃ o t, (ask texts depth b).run s = some (o, t) ∧ Gives o ∧
            All Keeps t ∧ Advance begun t := by
        rintro b s ⟨allBefore, advanceBefore⟩
        have roomBefore := (Finset.card_le_card advanceBefore.untouched_subset).trans roomBegun
        obtain ⟨t, run, allAfter, advance, done⟩ := ih b allBefore roomBefore
        exact ⟨_, t, run_ask run, inv.outcome _ (allAfter b) done, allAfter,
          advanceBefore.trans advance⟩
      obtain ⟨o, after, evaluation, gives, allAfter, advance⟩ :=
        CellText.run_outcomeOf_closed inv.closed answers (texts.get a) ⟨allBegun, .refl begun⟩
      refine ⟨_, visit_of_untouched fresh evaluation, allAfter.set (inv.settled o gives),
        advance.settle fresh o, ?_⟩
      rw [Grid.get_set, if_pos rfl, Record.evaluated_settled]

end Visit

/-! ## Requests -/

/-- Between two requests every record has the property, and no cell is under way. -/
structure Rest (Keeps : Record → Prop) (rs : Records) : Prop where
  all : All Keeps rs
  evaluating : ∀ a, (rs.get a).evaluating = false

section Requests

variable {Keeps : Record → Prop} {Gives : Outcome → Prop} {rs : Records}

theorem Rest.unvisited (initial : Keeps .unvisited) : Rest Keeps unvisited := by
  refine ⟨fun a => ?_, fun a => ?_⟩
  · rw [Records.unvisited, Grid.get_fill]
    exact initial
  · rw [Records.unvisited, Grid.get_fill]
    rfl

theorem Rest.settle (inv : Record.Invariant Keeps Gives) (texts : Grid CellText)
    (rest : Rest Keeps rs) (a : Address) :
    Rest Keeps (settle texts a rs) ∧ Advance rs (settle texts a rs) ∧
      ((settle texts a rs).get a).evaluated = true := by
  obtain ⟨rs', run, all, advance, done⟩ :=
    visit_keeps inv texts a rest.all (card_untouched_le rs)
  have settled : Records.settle texts a rs = rs' := by
    unfold Records.settle
    rw [run]
  rw [settled]
  exact ⟨⟨all, fun b => (advance.evaluating b).trans (rest.evaluating b)⟩, advance, done⟩

theorem Rest.recompute (inv : Record.Invariant Keeps Gives) (initial : Keeps .unvisited)
    (texts : Grid CellText) :
    Rest Keeps (recompute texts) ∧ ∀ a, ((Records.recompute texts).get a).evaluated = true := by
  obtain ⟨rest, -, evaluated⟩ :=
    foldl_settle (Rest Keeps) (fun _ r => r.evaluated = true) (fun _ _ done => done)
      (fun _ b rest => rest.settle inv texts b) Address.all (.unvisited initial)
  exact ⟨rest, fun a => evaluated a a.mem_all⟩

end Requests

end Records

/-! ## Lawful records -/

/-- A finite value, or an error other than the one in reserve. -/
def Outcome.Lawful : Outcome → Prop
  | .ok x => x.isFinite = true
  | .error k => k ≠ .dependency

theorem Outcome.Lawful.closed : Outcome.Closed Lawful where
  zero := by
    change (0.0 : Float).isFinite = true
    decide +kernel
  finite x := by
    unfold Worksheet.finite
    split
    · assumption
    · exact nofun
  negate _ := isFinite_neg
  error _ := id

/-- A record at some stage of settling a lawful outcome. -/
def Record.Lawful (r : Record) : Prop := ∃ o : Outcome, o.Lawful ∧ r.Stage o

theorem Record.lawful_unvisited : unvisited.Lawful :=
  ⟨.ok 0.0, Outcome.Lawful.closed.zero, .unvisited⟩

theorem Record.lawful : Invariant Lawful Outcome.Lawful where
  closed := Outcome.Lawful.closed
  begun r := by
    rintro ⟨o, lawful, stage⟩ evaluated evaluating
    rw [stage.eq_unvisited evaluated evaluating]
    exact ⟨o, lawful, .begun⟩
  reentered r := by
    rintro ⟨o, lawful, stage⟩ evaluated evaluating
    rw [stage.eq_begun evaluated evaluating]
    exact ⟨o, lawful, .reentered⟩
  settled o lawful := ⟨o, lawful, .settled⟩
  outcome r := by
    rintro ⟨o, lawful, stage⟩ evaluated
    cases stage with
    | unvisited | begun => cases evaluated
    | reentered => exact nofun
    | settled =>
        rw [outcome_settled]
        exact lawful

/-- A lawful record that is not under way is unvisited or settled. -/
theorem Record.Lawful.cases {r : Record} (lawful : r.Lawful) (idle : r.evaluating = false) :
    r = .unvisited ∨ ∃ o : Outcome, o.Lawful ∧ r = .settled o := by
  obtain ⟨o, lawful, stage⟩ := lawful
  cases stage with
  | unvisited => exact .inl rfl
  | begun | reentered => cases idle
  | settled => exact .inr ⟨o, lawful, rfl⟩

/-- The value in a lawful record is finite, also beside an error. -/
theorem Record.Lawful.isFinite_value {r : Record} (lawful : r.Lawful) : r.value.isFinite = true := by
  have zero : (0.0 : Float).isFinite = true := Outcome.Lawful.closed.zero
  obtain ⟨o, gives, stage⟩ := lawful
  cases stage with
  | unvisited | begun | reentered => exact zero
  | settled =>
      cases o with
      | ok x => exact gives
      | error k => exact zero

end Worksheet
