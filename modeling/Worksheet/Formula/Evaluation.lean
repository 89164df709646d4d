import Worksheet.Formula.Expr
import Worksheet.Outcome

/-!
The value of a formula.

A tree is evaluated from left to right, operands before their operator, and the first error ends it.
What a reference stands for is asked of a resolver, which may keep state; `Expr.evaluateIn` asks a
table and lists the references in the order they were asked for.
-/

namespace Worksheet

/-- Applies an operator to two numbers. A divisor equal to zero is an error before any division. -/
def Operator.apply (op : Operator) (x y : Float) : Outcome :=
  match op with
  | .add => finite (x + y)
  | .subtract => finite (x - y)
  | .multiply => finite (x * y)
  | .divide => if y == 0.0 then .error .divisionByZero else finite (x / y)

namespace Expr

/-- Evaluates a tree, asking `resolve` for the references. -/
def evaluate {m : Type → Type} [Monad m] (resolve : Address → m Outcome) : Expr → m Outcome
  | .number value => pure (finite value)
  | .reference a => resolve a
  | .outside => pure (.error .badReference)
  | .missing => pure (.error .parse)
  | .negate operand => do
    match ← operand.evaluate resolve with
    | .ok x => return .ok (-x)
    | .error k => return .error k
  | .binary op left right => do
    match ← left.evaluate resolve with
    | .error k => return .error k
    | .ok x =>
      match ← right.evaluate resolve with
      | .error k => return .error k
      | .ok y => return op.apply x y
  | .broken tree => do
    match ← tree.evaluate resolve with
    | .ok _ => return .error .parse
    | .error k => return .error k

/-- Evaluates a tree against a table and lists the references asked for, in order. -/
def evaluateIn (table : Address → Outcome) (e : Expr) : Outcome × List Address :=
  (e.evaluate (m := StateM (List Address)) fun a => do
    modify (· ++ [a])
    return table a).run []

end Expr

end Worksheet
