import Worksheet.Proofs.Evaluation.Invariants
import Worksheet.Proofs.Evaluation.Locality

/-!
The calls that a visit is made of.

`visitTraced` is a visit that writes down the calls it notes: the cell, the cells whose texts are being
evaluated around the call, and whether the call evaluates the text of its own cell. Nothing else is
changed (`erases_visitTraced`). Each mark of a cell under way stands for a call
around the present one, and marks and settled records both keep a text from being evaluated again;
so the calls that evaluate a text are for different cells, whether they stand inside each other or
side by side (`Records.Passage`). None of this depends on what the records held at first.
-/

namespace Worksheet

/-- The cells whose texts are evaluated, in the order in which that begins. -/
def Call.evaluated (calls : List Call) : List Address :=
  (calls.filter Call.evaluates).map Call.cell

theorem Call.evaluated_append (calls more : List Call) :
    evaluated (calls ++ more) = evaluated calls ++ evaluated more := by
  rw [evaluated, List.filter_append, List.map_append, evaluated, evaluated]

namespace Records

/-- Next to the records, the state has the calls made so far. -/
instance : MonadState Records (StateT (Records × List Call) Option) where
  get := return (← getThe (Records × List Call)).1
  set rs := modifyThe (Records × List Call) fun s => (rs, s.2)
  modifyGet f := modifyGetThe (Records × List Call) fun s => ((f s.1).1, (f s.1).2, s.2)

/-- Writes down a call, after those made so far. -/
def writeDown (call : Call) : StateT (Records × List Call) Option Unit :=
  modifyThe (Records × List Call) fun s => (s.1, s.2 ++ [call])

theorem run_get_bind {α : Type} (f : Records → StateT (Records × List Call) Option α) (rs : Records)
    (calls : List Call) : (get >>= f).run (rs, calls) = (f rs).run (rs, calls) :=
  rfl

/-- A visit that writes down its calls. -/
def visitTraced (texts : Grid CellText) (depth : Nat) (outer : List Address) (a : Address) :
    StateT (Records × List Call) Option Unit :=
  visitNoting writeDown failure texts depth outer a

/-- A traced visit that reads the outcome of its cell. -/
def askTraced (texts : Grid CellText) (depth : Nat) (outer : List Address) (a : Address) :
    StateT (Records × List Call) Option Outcome :=
  askNoting writeDown failure texts depth outer a

section Equations

variable (texts : Grid CellText) (depth : Nat) (outer : List Address) (a : Address)

theorem visitTraced_zero : visitTraced texts 0 outer a = (do
    let rs ← get
    if (rs.get a).evaluated then writeDown ⟨outer, a, false⟩
    else if (rs.get a).evaluating then
      writeDown ⟨outer, a, false⟩
      modify (·.set a (rs.get a).reentered)
    else failure) :=
  visitNoting_zero writeDown failure texts outer a

theorem visitTraced_succ : visitTraced texts (depth + 1) outer a = (do
    let rs ← get
    if (rs.get a).evaluated then writeDown ⟨outer, a, false⟩
    else if (rs.get a).evaluating then
      writeDown ⟨outer, a, false⟩
      modify (·.set a (rs.get a).reentered)
    else
      writeDown ⟨outer, a, true⟩
      modify (·.set a (rs.get a).begun)
      let outcome ← outcomeOf (askTraced texts depth (a :: outer)) (texts.get a)
      modify (·.set a (.settled outcome))) :=
  visitNoting_succ writeDown failure texts depth outer a

end Equations

end Records

/-! ## Forgetting the calls -/

/-- Apart from the calls it writes down, the first computation does what the second does. -/
def Erases {α : Type} (x : StateT (Records × List Call) Option α) (y : StateT Records Option α) :
    Prop :=
  ∀ rs calls, (x.run (rs, calls)).map (fun p => (p.1, p.2.1)) = y.run rs

namespace Erases

variable {α β : Type}

theorem pure (r : α) : Erases (Pure.pure r) (Pure.pure r) := fun _ _ => rfl

theorem bind {x : StateT (Records × List Call) Option α} {y : StateT Records Option α}
    {f : α → StateT (Records × List Call) Option β} {g : α → StateT Records Option β}
    (first : Erases x y) (rest : ∀ r, Erases (f r) (g r)) : Erases (x >>= f) (y >>= g) := by
  intro rs calls
  have same := first rs calls
  rw [StateT.run_bind, StateT.run_bind, ← same]
  rcases x.run (rs, calls) with _ | ⟨r, rs', calls'⟩
  · rfl
  · exact rest r rs' calls'

theorem get {f : Records → StateT (Records × List Call) Option α}
    {g : Records → StateT Records Option α} (rest : ∀ rs, Erases (f rs) (g rs)) :
    Erases (MonadState.get >>= f) (MonadState.get >>= g) :=
  fun rs calls => rest rs rs calls

theorem note (call : Call) : Erases (Records.writeDown call) (Pure.pure ()) :=
  fun _ _ => rfl

theorem note_bind {x : StateT (Records × List Call) Option α} {y : StateT Records Option α}
    (call : Call) (rest : Erases x y) : Erases (Records.writeDown call >>= fun _ => x) y :=
  fun rs calls => rest rs (calls ++ [call])

theorem write (a : Address) (r : Record) :
    Erases (modify (·.set a r)) (modify (·.set a r)) :=
  fun _ _ => rfl

theorem failure : Erases (Alternative.failure : StateT (Records × List Call) Option α) failure :=
  fun _ _ => rfl

end Erases

namespace Records

theorem erases_visitTraced (texts : Grid CellText) (depth : Nat) (outer : List Address)
    (a : Address) : Erases (visitTraced texts depth outer a) (visit texts depth a) := by
  induction depth generalizing outer a with
  | zero =>
      rw [visitTraced_zero, visit_zero]
      refine .get fun rs => ?_
      split
      · exact .note _
      split
      · exact .note_bind _ (.write a _)
      · exact .failure
  | succ depth ih =>
      have asks (b : Address) : Erases (askTraced texts depth (a :: outer) b) (ask texts depth b) :=
        .bind (ih (a :: outer) b) fun _ => .get fun _ => .pure _
      have evaluates : Erases (outcomeOf (askTraced texts depth (a :: outer)) (texts.get a))
          (outcomeOf (ask texts depth) (texts.get a)) :=
        CellText.outcomeOf_related .pure (fun _ _ _ _ => .bind) (texts.get a) asks
      rw [visitTraced_succ, visit_succ]
      refine .get fun rs => ?_
      split
      · exact .note _
      split
      · exact .note_bind _ (.write a _)
      · exact .note_bind _ (.bind (.write a _) fun _ => .bind evaluates fun _ => .write a _)

end Records

/-! ## More depth than needed -/

/-- Where the first computation ends, the second ends in the same way. -/
def Sustains {σ α : Type} (x y : StateT σ Option α) : Prop :=
  ∀ s r, x.run s = some r → y.run s = some r

namespace Sustains

variable {σ α β : Type}

theorem refl (x : StateT σ Option α) : Sustains x x := fun _ _ run => run

theorem bind {x y : StateT σ Option α} {f g : α → StateT σ Option β} (first : Sustains x y)
    (rest : ∀ r, Sustains (f r) (g r)) : Sustains (x >>= f) (y >>= g) := by
  intro s r run
  rw [StateT.run_bind] at run ⊢
  obtain ⟨⟨r₁, s₁⟩, run₁, run₂⟩ := Option.bind_eq_some_iff.mp run
  rw [first s _ run₁]
  exact rest r₁ s₁ r run₂

theorem failure (x : StateT σ Option α) : Sustains Alternative.failure x := nofun

end Sustains

namespace Records

theorem sustains_visitTraced_succ (texts : Grid CellText) (depth : Nat) (outer : List Address)
    (a : Address) :
    Sustains (visitTraced texts depth outer a) (visitTraced texts (depth + 1) outer a) := by
  induction depth generalizing outer a with
  | zero =>
      rw [visitTraced_zero, visitTraced_succ]
      refine .bind (.refl _) fun rs => ?_
      split
      · exact .refl _
      split
      · exact .refl _
      · exact .failure _
  | succ depth ih =>
      have asks (b : Address) : Sustains (askTraced texts depth (a :: outer) b)
          (askTraced texts (depth + 1) (a :: outer) b) :=
        .bind (ih (a :: outer) b) fun _ => .refl _
      have evaluates := CellText.outcomeOf_related (fun o => .refl (pure o))
        (fun _ _ _ _ => .bind) (texts.get a) asks
      rw [visitTraced_succ texts depth, visitTraced_succ texts (depth + 1)]
      refine .bind (.refl _) fun rs => ?_
      split
      · exact .refl _
      split
      · exact .refl _
      · exact .bind (.refl _) fun _ => .bind (.refl _) fun _ => .bind evaluates fun _ => .refl _

theorem sustains_visitTraced (texts : Grid CellText) (outer : List Address) (a : Address)
    {depth deeper : Nat} (le : depth ≤ deeper) :
    Sustains (visitTraced texts depth outer a) (visitTraced texts deeper outer a) := by
  induction le with
  | refl => exact .refl _
  | step _ ih => exact fun s r run => sustains_visitTraced_succ texts _ outer a s r (ih s r run)

end Records

/-! ## What the calls are like -/

theorem Outcome.closed_true : Closed fun _ => True :=
  ⟨trivial, fun _ => trivial, fun _ _ => trivial, fun _ _ => trivial⟩

namespace Records

/-- The calls on the way from some records to later ones. No cell is its own surrounding, and a text is
evaluated only for a cell that was untouched, once, and then no more. -/
structure Passage (rs : Records) (calls : List Call) (rs' : Records) : Prop where
  advance : Advance rs rs'
  outer : ∀ call ∈ calls, call.outer.Nodup
  inner : ∀ call ∈ calls, call.evaluates = true → call.cell ∉ call.outer
  fresh : ∀ a ∈ Call.evaluated calls, a ∈ untouched rs
  done : ∀ a ∈ Call.evaluated calls, a ∉ untouched rs'
  once : (Call.evaluated calls).Nodup

section Passage

variable {rs rs' rs'' : Records} {calls more : List Call} {outer : List Address} {a : Address}

theorem Passage.refl (rs : Records) : Passage rs [] rs :=
  ⟨.refl rs, nofun, nofun, nofun, nofun, List.nodup_nil⟩

theorem Passage.trans (early : Passage rs calls rs') (late : Passage rs' more rs'') :
    Passage rs (calls ++ more) rs'' where
  advance := early.advance.trans late.advance
  outer call member := (List.mem_append.mp member).elim (early.outer call) (late.outer call)
  inner call member := (List.mem_append.mp member).elim (early.inner call) (late.inner call)
  fresh a member := by
    rw [Call.evaluated_append] at member
    rcases List.mem_append.mp member with here | there
    · exact early.fresh a here
    · exact early.advance.untouched_subset (late.fresh a there)
  done a member := by
    rw [Call.evaluated_append] at member
    rcases List.mem_append.mp member with here | there
    · exact fun untouched => early.done a here (late.advance.untouched_subset untouched)
    · exact late.done a there
  once := by
    rw [Call.evaluated_append]
    refine early.once.append late.once fun a here there => ?_
    exact early.done a here (late.fresh a there)

/-- A call that evaluates no text. -/
theorem Passage.of_touched (advance : Advance rs rs') (distinct : outer.Nodup) :
    Passage rs [⟨outer, a, false⟩] rs' where
  advance := advance
  outer := List.forall_mem_singleton.mpr distinct
  inner := List.forall_mem_singleton.mpr nofun
  fresh := nofun
  done := nofun
  once := List.nodup_nil

/-- A call that evaluates a text, with the calls made on the way. -/
theorem Passage.around (passage : Passage (rs.set a (rs.get a).begun) calls rs')
    (fresh : a ∈ untouched rs) (distinct : (a :: outer).Nodup) (outcome : Outcome) :
    Passage rs (⟨outer, a, true⟩ :: calls) (rs'.set a (.settled outcome)) where
  advance := passage.advance.settle fresh outcome
  outer := List.forall_mem_cons.mpr ⟨distinct.of_cons, passage.outer⟩
  inner := List.forall_mem_cons.mpr ⟨fun _ => List.Nodup.notMem distinct, passage.inner⟩
  fresh := List.forall_mem_cons.mpr
    ⟨fresh, fun b member => untouched_begun_subset rs a (passage.fresh b member)⟩
  done := by
    have settled : ((rs'.set a (.settled outcome)).get a).evaluated = true := by
      rw [Grid.get_set, if_pos rfl, Record.evaluated_settled]
    refine List.forall_mem_cons.mpr ⟨not_mem_untouched_of_evaluated settled, fun b member => ?_⟩
    intro untouched
    have stage := mem_untouched.mp untouched
    rw [Grid.get_set] at stage
    split at stage
    · rw [Record.evaluated_settled] at stage
      cases stage.1
    · exact passage.done b member (mem_untouched.mpr stage)
  once := by
    refine List.nodup_cons.mpr ⟨fun member => ?_, passage.once⟩
    exact not_mem_untouched_begun rs a (passage.fresh a member)

end Passage

section Traced

variable (texts : Grid CellText) {depth : Nat} {outer : List Address} {a : Address} {rs : Records}

theorem run_visitTraced_of_evaluated (evaluated : (rs.get a).evaluated = true)
    (before : List Call) : (visitTraced texts depth outer a).run (rs, before) =
      some ((), rs, before ++ [⟨outer, a, false⟩]) := by
  unfold visitTraced visitNoting
  rw [run_get_bind, if_pos evaluated]
  rfl

theorem run_visitTraced_of_evaluating (evaluated : (rs.get a).evaluated = false)
    (evaluating : (rs.get a).evaluating = true) (before : List Call) :
    (visitTraced texts depth outer a).run (rs, before) =
      some ((), rs.set a (rs.get a).reentered, before ++ [⟨outer, a, false⟩]) := by
  unfold visitTraced visitNoting
  rw [run_get_bind, if_neg (ne_true_of_eq_false evaluated), if_pos evaluating]
  rfl

theorem visitTraced_of_touched (touched : a ∉ untouched rs) (before : List Call) :
    ∃ rs', (visitTraced texts depth outer a).run (rs, before) =
        some ((), rs', before ++ [⟨outer, a, false⟩]) ∧
      Advance rs rs' ∧ (rs'.get a).evaluated = true := by
  cases evaluated : (rs.get a).evaluated with
  | true =>
      exact ⟨rs, run_visitTraced_of_evaluated texts evaluated before, .refl rs, evaluated⟩
  | false =>
      have evaluating : (rs.get a).evaluating = true := by
        by_contra idle
        exact touched (mem_untouched.mpr ⟨evaluated, eq_false_of_ne_true idle⟩)
      refine ⟨_, run_visitTraced_of_evaluating texts evaluated evaluating before,
        .set evaluated rfl, ?_⟩
      rw [Grid.get_set, if_pos rfl]
      rfl

theorem visitTraced_of_untouched {rs' : Records} {outcome : Outcome} {before calls : List Call}
    (fresh : a ∈ untouched rs)
    (evaluation : (outcomeOf (askTraced texts depth (a :: outer)) (texts.get a)).run
      (rs.set a (rs.get a).begun, before ++ [⟨outer, a, true⟩]) = some (outcome, rs', calls)) :
    (visitTraced texts (depth + 1) outer a).run (rs, before) =
      some ((), rs'.set a (.settled outcome), calls) := by
  obtain ⟨evaluated, evaluating⟩ := mem_untouched.mp fresh
  have step : (visitTraced texts (depth + 1) outer a).run (rs, before) =
      (outcomeOf (askTraced texts depth (a :: outer)) (texts.get a)).run
        (rs.set a (rs.get a).begun, before ++ [⟨outer, a, true⟩]) >>= fun p =>
          some ((), p.2.1.set a (.settled p.1), p.2.2) := by
    rw [visitTraced_succ, run_get_bind, if_neg (ne_true_of_eq_false evaluated),
      if_neg (ne_true_of_eq_false evaluating)]
    rfl
  rw [step, evaluation]
  rfl

theorem run_askTraced {rs' : Records} {before calls : List Call}
    (run : (visitTraced texts depth outer a).run (rs, before) = some ((), rs', calls)) :
    (askTraced texts depth outer a).run (rs, before) = some ((rs'.get a).outcome, rs', calls) := by
  unfold visitTraced at run
  unfold askTraced askNoting
  rw [StateT.run_bind, run]
  rfl

/-- From any records, with enough depth, a traced visit ends, and the calls it adds, the visit itself in
front, make a passage. The cells around the visit have to be under way and different from each other. -/
theorem visitTraced_passage (a : Address) (room : (untouched rs).card ≤ depth)
    (under : ∀ b ∈ outer, (rs.get b).evaluating = true) (distinct : outer.Nodup)
    (before : List Call) :
    ∃ rs' calls, (visitTraced texts depth outer a).run (rs, before) =
        some ((), rs', before ++ calls) ∧
      calls.head? = some ⟨outer, a, decide (a ∈ untouched rs)⟩ ∧
      Passage rs calls rs' ∧ (rs'.get a).evaluated = true := by
  induction depth generalizing a outer rs before with
  | zero =>
      have touched : a ∉ untouched rs := fun fresh =>
        absurd (Finset.card_pos.mpr ⟨a, fresh⟩) (Nat.not_lt.mpr room)
      obtain ⟨rs', run, advance, done⟩ := visitTraced_of_touched texts touched before
      refine ⟨rs', _, run, ?_, .of_touched advance distinct, done⟩
      rw [decide_eq_false touched]
      rfl
  | succ depth ih =>
      by_cases fresh : a ∈ untouched rs
      swap
      · obtain ⟨rs', run, advance, done⟩ := visitTraced_of_touched texts fresh before
        refine ⟨rs', _, run, ?_, .of_touched advance distinct, done⟩
        rw [decide_eq_false fresh]
        rfl
      let begun := rs.set a (rs.get a).begun
      have roomBegun : (untouched begun).card ≤ depth :=
        Nat.le_of_lt_succ ((card_untouched_begun_lt fresh).trans_le room)
      have notOuter : a ∉ outer := by
        intro member
        have idle := (mem_untouched.mp fresh).2
        rw [under a member] at idle
        cases idle
      have distinctBegun : (a :: outer).Nodup := List.nodup_cons.mpr ⟨notOuter, distinct⟩
      have underBegun : ∀ b ∈ a :: outer, (begun.get b).evaluating = true := by
        intro b member
        rw [Grid.get_set]
        split
        · rfl
        · next elsewhere =>
            rcases List.mem_cons.mp member with rfl | around
            · exact absurd rfl elsewhere
            · exact under b around
      -- the calls since the text of `a` began to be evaluated
      let Since (s : Records × List Call) : Prop :=
        ∃ calls, s.2 = before ++ ⟨outer, a, true⟩ :: calls ∧ Passage begun calls s.1
      have answers : ∀ b s, Since s →
          ∃ o t, (askTraced texts depth (a :: outer) b).run s = some (o, t) ∧ True ∧ Since t := by
        rintro b ⟨rs₁, before₁⟩ ⟨calls, rfl, passage⟩
        have roomBefore :=
          (Finset.card_le_card passage.advance.untouched_subset).trans roomBegun
        have underBefore : ∀ c ∈ a :: outer, (rs₁.get c).evaluating = true := fun c member =>
          (passage.advance.evaluating c).trans (underBegun c member)
        obtain ⟨rs₂, more, run, -, further, -⟩ :=
          ih b roomBefore underBefore distinctBegun (before ++ ⟨outer, a, true⟩ :: calls)
        rw [List.append_assoc, List.cons_append] at run
        exact ⟨_, _, run_askTraced texts run, trivial, calls ++ more, rfl, passage.trans further⟩
      have start : Since (begun, before ++ [⟨outer, a, true⟩]) := ⟨[], rfl, .refl begun⟩
      obtain ⟨outcome, ⟨rs', after⟩, evaluation, -, calls, rfl, passage⟩ :=
        CellText.run_outcomeOf_closed Outcome.closed_true answers (texts.get a) start
      refine ⟨_, _, visitTraced_of_untouched texts fresh evaluation, ?_,
        passage.around fresh distinctBegun outcome, ?_⟩
      · rw [decide_eq_true fresh]
        rfl
      · rw [Grid.get_set, if_pos rfl, Record.evaluated_settled]

end Traced

/-! ## Requests -/

section Requests

variable (texts : Grid CellText) (a : Address) (rs : Records)

/-- The calls by which a request settles a cell. -/
def calls : List Call :=
  match (visitTraced texts cellCount [] a).run (rs, []) with
  | some ((), _, calls) => calls
  | none => []

theorem exists_passage : ∃ rs' made, (visitTraced texts cellCount [] a).run (rs, []) =
      some ((), rs', made) ∧ made.head? = some ⟨[], a, decide (a ∈ untouched rs)⟩ ∧
      Passage rs made rs' ∧ (rs'.get a).evaluated = true := by
  have under : ∀ b ∈ ([] : List Address), (rs.get b).evaluating = true := nofun
  exact visitTraced_passage texts a (card_untouched_le rs) under List.nodup_nil []

/-- With the depth of a request, or any more, a traced visit makes the calls of the request. -/
theorem run_visitTraced {depth : Nat} (room : cellCount ≤ depth) :
    (visitTraced texts depth [] a).run (rs, []) =
      some ((), settle texts a rs, calls texts a rs) := by
  obtain ⟨rs', made, run, -, -, -⟩ := exists_passage texts a rs
  have plain := erases_visitTraced texts cellCount [] a rs []
  rw [run, Option.map_some] at plain
  have settled : settle texts a rs = rs' := by
    unfold settle
    rw [← plain]
  have written : calls texts a rs = made := by
    unfold calls
    rw [run]
  rw [settled, written]
  exact sustains_visitTraced texts [] a room _ _ run

theorem run_visit {depth : Nat} (room : cellCount ≤ depth) :
    (visit texts depth a).run rs = some ((), settle texts a rs) := by
  rw [← erases_visitTraced texts depth [] a rs [], run_visitTraced texts a rs room, Option.map_some]

/-- From any records a request makes a passage, beginning with the call for its cell, and settles the
cell. -/
theorem settle_passage :
    (calls texts a rs).head? = some ⟨[], a, decide (a ∈ untouched rs)⟩ ∧
      Passage rs (calls texts a rs) (settle texts a rs) ∧
      ((settle texts a rs).get a).evaluated = true := by
  obtain ⟨rs', made, run, first, passage, done⟩ := exists_passage texts a rs
  rw [run_visitTraced texts a rs (Nat.le_refl _)] at run
  cases run
  exact ⟨first, passage, done⟩

end Requests

end Records

end Worksheet
