import Worksheet.Proofs.Formula.Reading

/-!
A formula comes to what its steps come to.

* `Step.run_steps`: the steps of a formula leave its value on the stack, or end with its error.
* `Expr.evaluate_ofChars`: so does reading and evaluating its text. A text outside the grammar is an
  error.
-/

namespace Worksheet

namespace Step

variable {m : Type → Type} [Monad m] (resolve : Address → m Outcome)

/-- Goes on with the steps behind a formula. -/
def resume (later : List Step) (stack : List Float) : Outcome → m Outcome
  | .ok x => run resolve later (x :: stack)
  | .error k => pure (.error k)

theorem run_push (value : Float) (later : List Step) (stack : List Float) :
    run resolve (push value :: later) stack = resume resolve later stack (finite value) := by
  rw [run, finite]
  split <;> rfl

theorem run_fetch (a : Address) (later : List Step) (stack : List Float) :
    run resolve (fetch (some a) :: later) stack = resolve a >>= resume resolve later stack := by
  rw [run]
  refine bind_congr fun outcome => ?_
  cases outcome <;> rfl

theorem run_apply (op : Operator) (x y : Float) (later : List Step) (stack : List Float) :
    run resolve (apply op :: later) (y :: x :: stack) =
      resume resolve later stack (op.apply x y) := by
  have computed (plain : ¬(op = .divide ∧ (y == 0.0) = true)) :
      run resolve (apply op :: later) (y :: x :: stack) =
        resume resolve later stack (finite (op.compute x y)) := by
    rw [run, if_neg plain, finite]
    split <;> rfl
  cases op with
  | add | subtract | multiply => exact computed nofun
  | divide =>
      by_cases zero : (y == 0.0) = true
      · rw [run, if_pos ⟨rfl, zero⟩, Operator.apply, if_pos zero]
        rfl
      · rw [Operator.apply, if_neg zero]
        exact computed fun divided => zero divided.2

theorem run_steps [LawfulMonad m] (f : Formula) (later : List Step) (stack : List Float) :
    run resolve (f.steps ++ later) stack =
      f.toExpr.evaluate resolve >>= resume resolve later stack := by
  induction f generalizing later stack with
  | number value =>
      rw [Formula.toExpr, Expr.evaluate, pure_bind]
      exact run_push resolve value later stack
  | label a =>
      cases a with
      | none =>
          rw [Formula.toExpr, Expr.evaluate, pure_bind]
          rfl
      | some a => exact run_fetch resolve a later stack
  | plus operand ih => exact ih later stack
  | minus operand ih =>
      rw [Formula.steps, List.append_assoc, ih, Formula.toExpr, Expr.evaluate_negate, bind_assoc]
      refine bind_congr fun outcome => ?_
      rw [pure_bind]
      cases outcome <;> rfl
  | binary op left right ihLeft ihRight =>
      rw [Formula.steps, List.append_assoc, List.append_assoc, ihLeft, Formula.toExpr,
        Expr.evaluate_binary, bind_assoc]
      refine bind_congr fun outcome => ?_
      cases outcome with
      | error k =>
          dsimp only
          rw [pure_bind]
          rfl
      | ok x =>
          dsimp only
          rw [resume, ihRight, bind_assoc]
          refine bind_congr fun outcome => ?_
          rw [pure_bind]
          cases outcome with
          | error k => rfl
          | ok y => exact run_apply resolve op x y later stack

end Step

namespace Expr

/-- Reading and evaluating a text of the grammar is running the steps of its formula: the outcome is
the same, and so is whatever the resolver does, in the same order. Any other text is an error. -/
theorem evaluate_ofChars {m : Type → Type} [Monad m] [LawfulMonad m]
    (resolve : Address → m Outcome) (cs : List Char) :
    (∀ f : Formula, f.WrittenAs cs →
      (ofChars cs).evaluate resolve = Step.run resolve f.steps []) ∧
    ((¬∃ f : Formula, f.WrittenAs cs) →
      ∃ k : m CellError, (ofChars cs).evaluate resolve = Except.error <$> k) := by
  constructor
  · intro f written
    have steps := Step.run_steps resolve f [] []
    have left : Step.resume resolve [] [] = pure := by
      funext outcome
      cases outcome <;> rfl
    rw [List.append_nil, left, bind_pure] at steps
    rw [ofChars_of_writtenAs written]
    exact steps.symm
  · intro unwritten
    exact (fails_of_not_writtenAs unwritten).evaluate resolve

end Expr

end Worksheet
