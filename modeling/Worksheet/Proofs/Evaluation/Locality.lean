import Worksheet.Proofs.Formula.Mentions
import Worksheet.Proofs.Evaluation.Visit
import Worksheet.Sheet

/-!
What a cell comes to depends on nothing but the cells it mentions, and those that they mention.

A set of cells is closed if it holds whatever the formulas of its cells mention. A visit to such a cell
is one computation for all grids that agree on the set (`Records.visit_congr`), and it writes to no
record outside the set (`Records.visit_within`). Neither needs to know which references an evaluation
gets to before it fails: both follow the references of the whole tree.
-/

namespace Worksheet

/-! ## The text of a cell -/

namespace CellText

/-- The formula of the text, if it is one, mentions the cell. -/
def Mentions (t : CellText) (a : Address) : Prop :=
  ∃ body, t.formula? = some body ∧ Worksheet.Mentions a body

variable {m : Type → Type} [Monad m]

theorem outcomeOf_congr {resolve other : Address → m Outcome} {t : CellText}
    (agree : ∀ a, t.Mentions a → resolve a = other a) :
    Records.outcomeOf resolve t = Records.outcomeOf other t := by
  rw [outcomeOf_eq, outcomeOf_eq]
  cases formula : t.formula? with
  | none => rfl
  | some body =>
      exact Expr.evaluate_congr fun a member =>
        agree a ⟨body, formula, Expr.mentions_of_mem_references member⟩

theorem outcomeOf_related {n : Type → Type} [Monad n] {Alike : m Outcome → n Outcome → Prop}
    (alikePure : ∀ o, Alike (Pure.pure o) (Pure.pure o))
    (alikeBind : ∀ x y f g, Alike x y → (∀ o, Alike (f o) (g o)) → Alike (x >>= f) (y >>= g))
    {resolve : Address → m Outcome} {other : Address → n Outcome} (t : CellText)
    (answers : ∀ a, Alike (resolve a) (other a)) :
    Alike (Records.outcomeOf resolve t) (Records.outcomeOf other t) := by
  rw [outcomeOf_eq, outcomeOf_eq]
  cases t.formula? with
  | none => exact alikePure _
  | some body => exact Expr.evaluate_related alikePure alikeBind fun a _ => answers a

theorem outcomeOf_closed {Holds : m Outcome → Prop} (holdsPure : ∀ o, Holds (pure o))
    (holdsBind : ∀ x f, Holds x → (∀ o, Holds (f o)) → Holds (x >>= f))
    {resolve : Address → m Outcome} {t : CellText}
    (answers : ∀ a, t.Mentions a → Holds (resolve a)) : Holds (Records.outcomeOf resolve t) := by
  rw [outcomeOf_eq]
  cases formula : t.formula? with
  | none => exact holdsPure _
  | some body =>
      exact Expr.evaluate_closed holdsPure holdsBind fun a member =>
        answers a ⟨body, formula, Expr.mentions_of_mem_references member⟩

end CellText

/-- With each cell, the set has every cell that its formula mentions. -/
def Grid.ClosedUnderMention (texts : Grid CellText) (cells : Set Address) : Prop :=
  ∀ a ∈ cells, ∀ b, (texts.get a).Mentions b → b ∈ cells

/-! ## Computations that write within a set -/

/-- A computation on records that changes none outside the set. -/
def WritesWithin {α : Type} (cells : Set Address) (x : StateT Records Option α) : Prop :=
  ∀ rs r rs', x.run rs = some (r, rs') → ∀ b ∉ cells, rs'.get b = rs.get b

namespace WritesWithin

variable {α β : Type} {cells : Set Address}

theorem pure (r : α) : WritesWithin cells (Pure.pure r) := by
  rintro rs _ _ ⟨⟩ b outside
  rfl

theorem bind {x : StateT Records Option α} {f : α → StateT Records Option β}
    (first : WritesWithin cells x) (rest : ∀ r, WritesWithin cells (f r)) :
    WritesWithin cells (x >>= f) := by
  intro rs r rs' run b outside
  rw [StateT.run_bind] at run
  obtain ⟨⟨r₁, rs₁⟩, run₁, run₂⟩ := Option.bind_eq_some_iff.mp run
  rw [rest r₁ rs₁ r rs' run₂ b outside, first rs r₁ rs₁ run₁ b outside]

theorem get : WritesWithin cells (MonadState.get : StateT Records Option Records) := by
  rintro rs _ _ ⟨⟩ b outside
  rfl

theorem failure : WritesWithin cells (failure : StateT Records Option α) := by
  rintro rs _ _ ⟨⟩

theorem write {a : Address} (member : a ∈ cells) (r : Record) :
    WritesWithin cells (modify (·.set a r) : StateT Records Option Unit) := by
  rintro rs _ _ ⟨⟩ b outside
  rw [Grid.get_set, if_neg]
  rintro rfl
  exact outside member

end WritesWithin

/-! ## Visits -/

namespace Records

section Closed

variable {texts other : Grid CellText} {cells : Set Address}

/-- By the depth: the two grids have the same text at every cell that the visit comes to. -/
theorem visit_congr (closed : texts.ClosedUnderMention cells)
    (agree : ∀ a ∈ cells, texts.get a = other.get a) (depth : Nat) {a : Address}
    (member : a ∈ cells) : visit texts depth a = visit other depth a := by
  induction depth generalizing a with
  | zero => rw [visit_zero, visit_zero]
  | succ depth ih =>
      have asked (b : Address) (mentioned : (texts.get a).Mentions b) :
          ask texts depth b = ask other depth b := by
        unfold ask
        rw [ih (closed a member b mentioned)]
      rw [visit_succ, visit_succ, CellText.outcomeOf_congr asked, agree a member]

theorem visit_within (closed : texts.ClosedUnderMention cells) (depth : Nat) {a : Address}
    (member : a ∈ cells) : WritesWithin cells (visit texts depth a) := by
  induction depth generalizing a with
  | zero =>
      rw [visit_zero]
      refine .bind .get fun rs => ?_
      split
      · exact .pure ()
      split
      · exact .write member _
      · exact .failure
  | succ depth ih =>
      have asked (b : Address) (mentioned : (texts.get a).Mentions b) :
          WritesWithin cells (ask texts depth b) :=
        .bind (ih (closed a member b mentioned)) fun _ => .bind .get fun _ => .pure _
      rw [visit_succ]
      refine .bind .get fun rs => ?_
      split
      · exact .pure ()
      split
      · exact .write member _
      refine .bind (.write member _) fun _ => ?_
      exact .bind (CellText.outcomeOf_closed .pure (fun _ _ => .bind) asked)
        fun _ => .write member _

theorem settle_congr (closed : texts.ClosedUnderMention cells)
    (agree : ∀ a ∈ cells, texts.get a = other.get a) {a : Address} (member : a ∈ cells) :
    settle texts a = settle other a := by
  funext rs
  unfold settle
  rw [visit_congr closed agree cellCount member]

theorem get_settle_of_not_mem (closed : texts.ClosedUnderMention cells) {a b : Address}
    (member : a ∈ cells) (outside : b ∉ cells) (rs : Records) :
    (settle texts a rs).get b = rs.get b := by
  unfold settle
  split
  · next rs' run => exact visit_within closed cellCount member rs () rs' run b outside
  · rfl

end Closed

end Records

theorem Grid.ClosedUnderMention.of_agree {texts other : Grid CellText} {cells : Set Address}
    (closed : texts.ClosedUnderMention cells) (agree : ∀ a ∈ cells, texts.get a = other.get a) :
    other.ClosedUnderMention cells := by
  intro a member b mentioned
  exact closed a member b (agree a member ▸ mentioned)

/-! ## One request -/

/-- If the texts of two sheets agree on a closed set, then a cell of the set comes to the same in a pass
over either, and the request changes no text and no record outside the set. -/
theorem Sheet.result_beginPass_congr {s t : Sheet} {cells : Set Address}
    (closed : s.texts.ClosedUnderMention cells)
    (agree : ∀ a ∈ cells, s.texts.get a = t.texts.get a) {a : Address} (member : a ∈ cells) :
    (s.beginPass.result a).1 = (t.beginPass.result a).1 ∧
      (∀ u ∈ [s, t], (u.beginPass.result a).2.texts = u.texts ∧
        ∀ b ∉ cells, (u.beginPass.result a).2.record b = u.beginPass.record b) := by
  have same : Records.settle s.texts a = Records.settle t.texts a :=
    Records.settle_congr closed agree member
  refine ⟨?_, fun u either => ⟨rfl, fun b outside => ?_⟩⟩
  · change ((Records.settle s.texts a .unvisited).get a).outcome =
      ((Records.settle t.texts a .unvisited).get a).outcome
    rw [same]
  · have closedEither : u.texts.ClosedUnderMention cells := by
      rcases List.mem_pair.mp either with rfl | rfl
      · exact closed
      · exact closed.of_agree agree
    exact Records.get_settle_of_not_mem closedEither member outside .unvisited

/-- Half of what stands to the right of the first cell is in the first cell. -/
def Sheet.halved : Sheet :=
  Sheet.empty.store .origin "=b01/2"

/-- The first two cells of the first row. -/
def firstPair : List Address :=
  [.origin, { Address.origin with column := ⟨1, by decide⟩ }]

theorem closedUnderMention_halved : Sheet.halved.texts.ClosedUnderMention (· ∈ firstPair) := by
  rintro a - b ⟨body, formula, mentions⟩
  rw [Sheet.halved, Sheet.store, Grid.get_set] at formula
  split at formula
  · have parts : (CellText.ofString "=b01/2").formula? = some ['b', '0', '1', '/', '2'] := by decide
    cases parts.symm.trans formula
    have named : b ∈ mentioned ['b', '0', '1', '/', '2'] := mem_mentioned_iff.mpr mentions
    exact List.mem_cons_of_mem _ named
  · rw [Sheet.empty, Grid.get_fill] at formula
    cases formula

/-- A text below the two cells leaves the outcome of the first alone. -/
theorem Sheet.result_beginPass_congr_of_halved :
    let below : Address := ⟨⟨1, by decide⟩, ⟨0, by decide⟩⟩
    let other := halved.store below "=A1"
    halved.texts.ClosedUnderMention (· ∈ firstPair) ∧
      (∀ a ∈ firstPair, halved.texts.get a = other.texts.get a) ∧ Address.origin ∈ firstPair ∧
      (halved.beginPass.result .origin).1 = (other.beginPass.result .origin).1 ∧
      ∀ u ∈ [halved, other], (u.beginPass.result .origin).2.texts = u.texts ∧
        ∀ b ∉ firstPair, (u.beginPass.result .origin).2.record b = u.beginPass.record b := by
  intro below other
  have agree : ∀ a ∈ firstPair, halved.texts.get a = other.texts.get a := by
    intro a member
    have elsewhere : below ≠ a := by
      rintro rfl
      exact absurd member (by decide)
    exact (if_neg elsewhere ▸ Grid.get_set halved.texts below a _).symm
  have member : Address.origin ∈ firstPair := List.mem_cons_self
  exact ⟨closedUnderMention_halved, agree, member,
    result_beginPass_congr closedUnderMention_halved agree member⟩

end Worksheet
