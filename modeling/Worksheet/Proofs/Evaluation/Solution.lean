import Worksheet.Proofs.Formula.Demand
import Mathlib.Data.Finset.Lattice.Fold
import Mathlib.Data.Fintype.Pigeonhole
import Mathlib.Logic.Relation
import Mathlib.Order.Monotone.Basic

/-!
The outcomes that the texts of a grid determine.

Each text is an equation: the outcome of its cell is what the text comes to in the table of all
outcomes. A `Solution` is a table that satisfies every equation and in which a cell counts as a cycle
unless following its demands, and the demands of those, must come to an end.

* `Solution.cycle_of_transGen`: a cell that demands itself, over however many steps, is a cycle.
* `exists_solution`: every grid of texts has a solution. `outcomeWithin` follows references to a
  bounded depth and calls whatever lies deeper a cycle; each cell changes at most once as the bound
  grows, so that the tables come to rest.

How a pass finds the solution is not the matter of this module.
-/

namespace Worksheet

open Relation (TransGen)

instance : Fintype Address where
  elems := Address.all.toFinset
  complete a := List.mem_toFinset.mpr a.mem_all

/-! ## Solutions -/

/-- The text of `a` asks the table for `b`. -/
def Demands (texts : Grid CellText) (table : Address → Outcome) (a b : Address) : Prop :=
  b ∈ ((texts.get a).evaluateIn table).2

/-- A table that satisfies the equation of every cell, with no cycle that the demands do not force. -/
structure Solution (texts : Grid CellText) where
  table : Address → Outcome
  solves : ∀ a, table a = ((texts.get a).evaluateIn table).1
  grounded : ∀ a, table a ≠ .error .cycle → Acc (fun b c => Demands texts table c b) a

namespace Solution

variable {texts : Grid CellText} (S : Solution texts)

/-- A cell that demands a failed cell fails likewise. -/
theorem error_of_demands {a b : Address} {k : CellError} (demanded : Demands texts S.table a b)
    (failed : S.table b = .error k) : S.table a = .error k :=
  (S.solves a).trans (CellText.error_of_mem_asked demanded failed)

theorem error_of_transGen {a b : Address} {k : CellError}
    (path : TransGen (Demands texts S.table) a b) (failed : S.table b = .error k) :
    S.table a = .error k := by
  induction path using TransGen.head_induction_on with
  | single demanded => exact S.error_of_demands demanded failed
  | head demanded _ ih => exact S.error_of_demands demanded ih

/-- A cell that demands itself, over however many steps, is a cycle. -/
theorem cycle_of_transGen {a : Address} (loop : TransGen (Demands texts S.table) a a) :
    S.table a = .error .cycle := by
  by_contra known
  -- the demands below `a` are well-founded, and the loop leads below `a` and round again
  induction S.grounded a known with
  | intro a _ ih =>
      obtain ⟨b, demanded, back⟩ := TransGen.head'_iff.mp loop
      exact ih b demanded (TransGen.tail' back demanded) fun failed =>
        known (S.error_of_demands demanded failed)

/-- A cycle demands a cycle. -/
theorem exists_demands_of_cycle {a : Address} (cycle : S.table a = .error .cycle) :
    ∃ b, Demands texts S.table a b ∧ S.table b = .error .cycle :=
  CellText.mem_asked_of_cycle ((S.solves a).symm.trans cycle)

/-- A cycle has a loop at its end: walking from cycle to cycle in a finite grid returns to a cell that
was met before. -/
theorem exists_loop_of_cycle {a : Address} (cycle : S.table a = .error .cycle) :
    ∃ b, TransGen (Demands texts S.table) a b ∧ TransGen (Demands texts S.table) b b := by
  choose next demanded failed using fun b => S.exists_demands_of_cycle (a := b)
  let step (c : {b // S.table b = .error .cycle}) : {b // S.table b = .error .cycle} :=
    ⟨next c.1 c.2, failed c.1 c.2⟩
  let walk (n : Nat) : Address := (step^[n] ⟨a, cycle⟩).1
  have walks (n : Nat) : TransGen (Demands texts S.table) (walk n) (walk (n + 1)) := by
    simp only [walk, Function.iterate_succ_apply']
    exact .single (demanded _ _)
  have ahead {i j : Nat} (less : i < j) : TransGen (Demands texts S.table) (walk i) (walk j) :=
    Nat.rel_of_forall_rel_succ_of_lt _ walks less
  obtain ⟨i, j, different, same⟩ := Finite.exists_ne_map_eq_of_infinite walk
  rcases Nat.lt_or_gt_of_ne different with less | greater
  · have loop := ahead less
    rw [same] at loop
    exact ⟨walk j, ahead (Nat.zero_lt_of_lt less), loop⟩
  · have loop := ahead greater
    rw [← same] at loop
    exact ⟨walk i, ahead (Nat.zero_lt_of_lt greater), loop⟩

theorem cycle_iff {a : Address} : S.table a = .error .cycle ↔
    ∃ b, TransGen (Demands texts S.table) a b ∧ TransGen (Demands texts S.table) b b := by
  constructor
  · exact S.exists_loop_of_cycle
  · rintro ⟨b, path, loop⟩
    exact S.error_of_transGen path (S.cycle_of_transGen loop)

end Solution

/-! ## Tables that know less -/

/-- What `table` knows, `other` knows as well; the cells that are cycles in `table` are free. -/
def Refines (table other : Address → Outcome) : Prop :=
  ∀ a, table a ≠ .error .cycle → other a = table a

namespace Refines

theorem trans {first second third : Address → Outcome} (early : Refines first second)
    (late : Refines second third) : Refines first third := by
  intro a known
  have same := early a known
  exact (late a (same ▸ known)).trans same

/-- An evaluation that does not end in a cycle has met known cells only, so that a table that knows
more repeats it. -/
theorem evaluateIn_eq {table other : Address → Outcome} (refines : Refines table other)
    {t : CellText} (known : (t.evaluateIn table).1 ≠ .error .cycle) :
    t.evaluateIn other = t.evaluateIn table := by
  refine CellText.evaluateIn_congr fun a asked => refines a fun failed => ?_
  exact known (CellText.error_of_mem_asked asked failed)

end Refines

/-! ## Following references to a bounded depth -/

/-- The outcome of a cell when references are followed `depth` times at most. -/
def outcomeWithin (texts : Grid CellText) : Nat → Address → Outcome
  | 0, _ => .error .cycle
  | depth + 1, a => ((texts.get a).evaluateIn (outcomeWithin texts depth)).1

section Depth

variable (texts : Grid CellText)

theorem outcomeWithin_refines_succ (depth : Nat) :
    Refines (outcomeWithin texts depth) (outcomeWithin texts (depth + 1)) := by
  induction depth with
  | zero => exact fun a known => absurd rfl known
  | succ depth ih => exact fun a known => congrArg Prod.fst (ih.evaluateIn_eq known)

theorem outcomeWithin_refines {shallow deep : Nat} (le : shallow ≤ deep) :
    Refines (outcomeWithin texts shallow) (outcomeWithin texts deep) := by
  induction le with
  | refl => exact fun _ _ => rfl
  | step _ ih => exact ih.trans (outcomeWithin_refines_succ texts _)

/-- Each cell comes to rest: once known it stays, and if never known it is a cycle throughout. -/
theorem exists_outcomeWithin_rest (a : Address) :
    ∃ depth, ∀ deeper, depth ≤ deeper →
      outcomeWithin texts deeper a = outcomeWithin texts depth a := by
  by_cases known : ∃ depth, outcomeWithin texts depth a ≠ .error .cycle
  · obtain ⟨depth, known⟩ := known
    exact ⟨depth, fun deeper le => outcomeWithin_refines texts le a known⟩
  · simp only [not_exists, not_not] at known
    exact ⟨0, fun deeper _ => (known deeper).trans (known 0).symm⟩

/-- The grid is finite, so that one depth does for all its cells. -/
theorem exists_outcomeWithin_limit :
    ∃ depth, ∀ deeper, depth ≤ deeper →
      outcomeWithin texts deeper = outcomeWithin texts depth := by
  choose depth rest using exists_outcomeWithin_rest texts
  refine ⟨Finset.univ.sup depth, fun deeper le => funext fun a => ?_⟩
  have reached : depth a ≤ Finset.univ.sup depth := Finset.le_sup (Finset.mem_univ a)
  rw [rest a deeper (reached.trans le), rest a _ reached]

/-- Every grid of texts has a solution. -/
theorem exists_solution : Nonempty (Solution texts) := by
  obtain ⟨depth, limit⟩ := exists_outcomeWithin_limit texts
  have solves (a : Address) : outcomeWithin texts depth a =
      ((texts.get a).evaluateIn (outcomeWithin texts depth)).1 :=
    congrFun (limit (depth + 1) (Nat.le_succ depth)).symm a
  have below (n : Nat) : Refines (outcomeWithin texts n) (outcomeWithin texts depth) := by
    rcases Nat.le_total n depth with le | le
    · exact outcomeWithin_refines texts le
    · exact fun a _ => congrFun (limit n le).symm a
  -- a cell known within `n + 1` demands cells known within `n` only
  have grounded (n : Nat) : ∀ a, outcomeWithin texts n a ≠ .error .cycle →
      Acc (fun b c => Demands texts (outcomeWithin texts depth) c b) a := by
    induction n with
    | zero => exact fun a known => absurd rfl known
    | succ n ih =>
        intro a known
        refine Acc.intro a fun b demanded => ih b fun failed => ?_
        unfold Demands at demanded
        rw [(below n).evaluateIn_eq known] at demanded
        exact known (CellText.error_of_mem_asked demanded failed)
  exact ⟨⟨outcomeWithin texts depth, solves, grounded depth⟩⟩

end Depth

end Worksheet
