import Worksheet.Evaluation

/-!
What an evaluation asks for.

`Expr.evaluateIn` evaluates a tree against a table and lists the references it asks for. This module
says how the list comes about, constructor by constructor, and derives what the evaluation of cells
rests on:

* `Expr.evaluateIn_congr`: only the cells asked for matter.
* `Expr.error_of_mem_asked`: an error that a reference brings is the outcome.
* `Expr.mem_asked_of_cycle`: a formula is a cycle only through a reference.
* `Expr.run_evaluate`: a resolver that keeps a state answers as a table does, provided that it
  answers so for the cells asked for.

`CellText.evaluateIn` carries all four over to the text of a cell.
-/

namespace Worksheet

namespace Expr

/-! ## Equations -/

section Equations

variable {m : Type → Type} [Monad m] (resolve : Address → m Outcome)

theorem evaluate_negate (operand : Expr) : (negate operand).evaluate resolve =
    operand.evaluate resolve >>= fun outcome => pure (outcome.map Neg.neg) := by
  simp only [evaluate]
  refine bind_congr fun outcome => ?_
  cases outcome <;> rfl

theorem evaluate_binary (op : Operator) (left right : Expr) :
    (binary op left right).evaluate resolve =
      left.evaluate resolve >>= fun
        | .error k => pure (.error k)
        | .ok x => right.evaluate resolve >>= fun outcome => pure (outcome.bind (op.apply x)) := by
  simp only [evaluate]
  refine bind_congr fun outcome => ?_
  cases outcome with
  | error k => rfl
  | ok x =>
      refine bind_congr fun outcome => ?_
      cases outcome <;> rfl

theorem evaluate_broken (tree : Expr) : (broken tree).evaluate resolve =
    tree.evaluate resolve >>= fun outcome => pure (outcome.bind fun _ => .error .parse) := by
  simp only [evaluate]
  refine bind_congr fun outcome => ?_
  cases outcome <;> rfl

end Equations

/-- Asks a table and adds the reference to those asked for so far. -/
def listing (table : Address → Outcome) (a : Address) : StateM (List Address) Outcome := do
  modify (· ++ [a])
  return table a

section Listing

variable (table : Address → Outcome)

theorem evaluateIn_eq (e : Expr) : e.evaluateIn table = (e.evaluate (listing table)).run [] :=
  rfl

theorem run_binary_listing (op : Operator) (left right : Expr) (before : List Address) :
    ((binary op left right).evaluate (listing table)).run before =
      match (left.evaluate (listing table)).run before with
      | (.error k, asked) => (.error k, asked)
      | (.ok x, asked) =>
        (((right.evaluate (listing table)).run asked).1.bind (op.apply x),
          ((right.evaluate (listing table)).run asked).2) := by
  rw [evaluate_binary, StateT.run_bind]
  rcases (left.evaluate (listing table)).run before with ⟨k | x, asked⟩ <;> rfl

/-- The list grows at its end, whatever it held before. -/
theorem evaluate_listing (e : Expr) (before : List Address) :
    (e.evaluate (listing table)).run before =
      ((e.evaluateIn table).1, before ++ (e.evaluateIn table).2) := by
  induction e generalizing before with
  | number | outside | missing => exact Prod.ext rfl (List.append_nil before).symm
  | reference a => rfl
  | negate operand ih =>
      rw [evaluateIn_eq, evaluate_negate, StateT.run_bind, StateT.run_bind, ih, ih]
      rfl
  | binary op left right ihLeft ihRight =>
      rw [evaluateIn_eq, run_binary_listing, run_binary_listing, ihLeft, ihLeft []]
      cases (left.evaluateIn table).1 with
      | error k => rfl
      | ok x => simp only [ihRight, List.nil_append, List.append_assoc]
  | broken tree ih =>
      rw [evaluateIn_eq, evaluate_broken, StateT.run_bind, StateT.run_bind, ih, ih]
      rfl

theorem evaluateIn_negate (operand : Expr) : (negate operand).evaluateIn table =
    ((operand.evaluateIn table).1.map Neg.neg, (operand.evaluateIn table).2) := by
  rw [evaluateIn_eq, evaluate_negate, StateT.run_bind, evaluate_listing]
  rfl

theorem evaluateIn_binary (op : Operator) (left right : Expr) :
    (binary op left right).evaluateIn table =
      match left.evaluateIn table with
      | (.error k, asked) => (.error k, asked)
      | (.ok x, asked) =>
        ((right.evaluateIn table).1.bind (op.apply x), asked ++ (right.evaluateIn table).2) := by
  rw [evaluateIn_eq, run_binary_listing, evaluate_listing]
  rcases left.evaluateIn table with ⟨k | x, asked⟩
  · rfl
  · simp only [evaluate_listing, List.nil_append]

theorem evaluateIn_broken (tree : Expr) : (broken tree).evaluateIn table =
    ((tree.evaluateIn table).1.bind fun _ => .error .parse, (tree.evaluateIn table).2) := by
  rw [evaluateIn_eq, evaluate_broken, StateT.run_bind, evaluate_listing]
  rfl

end Listing

/-! ## What an evaluation rests on -/

/-- Only the cells asked for matter: a table that agrees on them gives the same outcome and is asked
for the same cells. -/
theorem evaluateIn_congr {table other : Address → Outcome} {e : Expr}
    (agree : ∀ a ∈ (e.evaluateIn table).2, other a = table a) :
    e.evaluateIn other = e.evaluateIn table := by
  induction e with
  | number | outside | missing => rfl
  | reference a => exact Prod.ext (agree a (List.mem_singleton_self a)) rfl
  | negate operand ih =>
      rw [evaluateIn_negate] at agree
      rw [evaluateIn_negate, evaluateIn_negate, ih agree]
  | binary op left right ihLeft ihRight =>
      rw [evaluateIn_binary] at agree
      rw [evaluateIn_binary, evaluateIn_binary]
      rcases evaluated : left.evaluateIn table with ⟨k | x, asked⟩
      · rw [evaluated] at agree ihLeft
        rw [ihLeft agree]
      · rw [evaluated] at agree ihLeft
        rw [ihLeft fun a member => agree a (List.mem_append_left _ member),
          ihRight fun a member => agree a (List.mem_append_right _ member)]
  | broken tree ih =>
      rw [evaluateIn_broken] at agree
      rw [evaluateIn_broken, evaluateIn_broken, ih agree]

/-- An error that a reference brings ends the evaluation and is its outcome. -/
theorem error_of_mem_asked {table : Address → Outcome} {e : Expr} {a : Address} {k : CellError}
    (asked : a ∈ (e.evaluateIn table).2) (failed : table a = .error k) :
    (e.evaluateIn table).1 = .error k := by
  induction e with
  | number | outside | missing => cases asked
  | reference b =>
      cases List.mem_singleton.mp asked
      exact failed
  | negate operand ih =>
      rw [evaluateIn_negate] at asked ⊢
      rw [ih asked]
      rfl
  | binary op left right ihLeft ihRight =>
      rw [evaluateIn_binary] at asked ⊢
      rcases evaluated : left.evaluateIn table with ⟨l | x, before⟩
      · rw [evaluated] at asked ihLeft
        exact ihLeft asked
      · rw [evaluated] at asked ihLeft
        rcases List.mem_append.mp asked with early | late
        · cases ihLeft early
        · rw [ihRight late]
          rfl
  | broken tree ih =>
      rw [evaluateIn_broken] at asked ⊢
      rw [ih asked]
      rfl

theorem finite_ne_cycle (x : Float) : finite x ≠ .error .cycle := by
  unfold finite
  split <;> nofun

theorem apply_ne_cycle (op : Operator) (x y : Float) : op.apply x y ≠ .error .cycle := by
  cases op with
  | add | subtract | multiply => exact finite_ne_cycle _
  | divide =>
      simp only [Operator.apply]
      split
      · nofun
      · exact finite_ne_cycle _

/-- No formula is a cycle by itself: one of the references asked for is. -/
theorem mem_asked_of_cycle {table : Address → Outcome} {e : Expr}
    (cycle : (e.evaluateIn table).1 = .error .cycle) :
    ∃ a ∈ (e.evaluateIn table).2, table a = .error .cycle := by
  induction e with
  | number value => exact absurd cycle (finite_ne_cycle value)
  | outside | missing => cases cycle
  | reference a => exact ⟨a, List.mem_singleton_self a, cycle⟩
  | negate operand ih =>
      rw [evaluateIn_negate] at cycle ⊢
      rcases evaluated : operand.evaluateIn table with ⟨k | x, asked⟩
      · rw [evaluated] at cycle ih
        exact ih cycle
      · rw [evaluated] at cycle
        cases cycle
  | binary op left right ihLeft ihRight =>
      rw [evaluateIn_binary] at cycle ⊢
      rcases evaluated : left.evaluateIn table with ⟨k | x, asked⟩
      · rw [evaluated] at cycle ihLeft
        exact ihLeft cycle
      · rcases evaluatedRight : right.evaluateIn table with ⟨k | y, more⟩
        · rw [evaluated, evaluatedRight] at cycle
          rw [evaluatedRight] at ihRight
          obtain ⟨a, member, failed⟩ := ihRight cycle
          exact ⟨a, List.mem_append_right _ member, failed⟩
        · rw [evaluated, evaluatedRight] at cycle
          exact absurd cycle (apply_ne_cycle op x y)
  | broken tree ih =>
      rw [evaluateIn_broken] at cycle ⊢
      rcases evaluated : tree.evaluateIn table with ⟨k | x, asked⟩
      · rw [evaluated] at cycle ih
        exact ih cycle
      · rw [evaluated] at cycle
        cases cycle

/-- If a resolver with a state answers as a table does for every cell asked for, from every good
state and into a good state, then the tree evaluates as it does in the table. -/
theorem run_evaluate {σ : Type} {resolve : Address → StateT σ Option Outcome}
    {table : Address → Outcome} {Good : σ → Prop} (e : Expr)
    (answers : ∀ a ∈ (e.evaluateIn table).2, ∀ s, Good s →
      ∃ t, (resolve a).run s = some (table a, t) ∧ Good t)
    {s : σ} (good : Good s) :
    ∃ t, (e.evaluate resolve).run s = some ((e.evaluateIn table).1, t) ∧ Good t := by
  induction e generalizing s with
  | number | outside | missing => exact ⟨s, rfl, good⟩
  | reference a => exact answers a (List.mem_singleton_self a) s good
  | negate operand ih =>
      rw [evaluateIn_negate] at answers ⊢
      obtain ⟨t, run, after⟩ := ih answers good
      rw [evaluate_negate, StateT.run_bind, run]
      exact ⟨t, rfl, after⟩
  | binary op left right ihLeft ihRight =>
      rw [evaluateIn_binary] at answers ⊢
      rcases evaluated : left.evaluateIn table with ⟨k | x, asked⟩
      · rw [evaluated] at answers ihLeft
        obtain ⟨t, run, after⟩ := ihLeft answers good
        rw [evaluate_binary, StateT.run_bind, run]
        exact ⟨t, rfl, after⟩
      · rw [evaluated] at answers ihLeft
        obtain ⟨t, run, between⟩ :=
          ihLeft (fun a member => answers a (List.mem_append_left _ member)) good
        obtain ⟨u, runRight, after⟩ :=
          ihRight (fun a member => answers a (List.mem_append_right _ member)) between
        have step : ((binary op left right).evaluate resolve).run s =
            (right.evaluate resolve >>= fun outcome => pure (outcome.bind (op.apply x))).run t := by
          rw [evaluate_binary, StateT.run_bind, run]
          rfl
        rw [step, StateT.run_bind, runRight]
        exact ⟨u, rfl, after⟩
  | broken tree ih =>
      rw [evaluateIn_broken] at answers ⊢
      obtain ⟨t, run, after⟩ := ih answers good
      rw [evaluate_broken, StateT.run_bind, run]
      exact ⟨t, rfl, after⟩

end Expr

/-! ## The text of a cell -/

namespace CellText

/-- The outcome of a text against a table, and the references it asks for. A text other than a formula
asks for nothing, and counts as zero unless it is a number. -/
def evaluateIn (table : Address → Outcome) (t : CellText) : Outcome × List Address :=
  match t.formula? with
  | some body => (Expr.ofChars body).evaluateIn table
  | none => (.ok ((Numeral.literal? t.chars).getD 0.0), [])

/-- The empty text is no number, so it needs no case of its own. -/
theorem outcomeOf_eq {m : Type → Type} [Monad m] (resolve : Address → m Outcome) (t : CellText) :
    Records.outcomeOf resolve t =
      match t.formula? with
      | some body => (Expr.ofChars body).evaluate resolve
      | none => pure (.ok ((Numeral.literal? t.chars).getD 0.0)) := by
  unfold Records.outcomeOf content formula?
  rcases t.chars with _ | ⟨c, cs⟩
  · rfl
  · by_cases marked : c = '='
    · subst marked
      rfl
    · cases literal : Numeral.literal? (c :: cs) <;> grind

theorem evaluateIn_congr {table other : Address → Outcome} {t : CellText}
    (agree : ∀ a ∈ (t.evaluateIn table).2, other a = table a) :
    t.evaluateIn other = t.evaluateIn table := by
  unfold evaluateIn at agree ⊢
  split
  · next body formula =>
      rw [formula] at agree
      exact Expr.evaluateIn_congr agree
  · rfl

theorem error_of_mem_asked {table : Address → Outcome} {t : CellText} {a : Address}
    {k : CellError} (asked : a ∈ (t.evaluateIn table).2) (failed : table a = .error k) :
    (t.evaluateIn table).1 = .error k := by
  unfold evaluateIn at asked ⊢
  split
  · next body formula =>
      rw [formula] at asked
      exact Expr.error_of_mem_asked asked failed
  · next plain =>
      rw [plain] at asked
      cases asked

theorem mem_asked_of_cycle {table : Address → Outcome} {t : CellText}
    (cycle : (t.evaluateIn table).1 = .error .cycle) :
    ∃ a ∈ (t.evaluateIn table).2, table a = .error .cycle := by
  unfold evaluateIn at cycle ⊢
  split
  · next body formula =>
      rw [formula] at cycle
      exact Expr.mem_asked_of_cycle cycle
  · next plain =>
      rw [plain] at cycle
      cases cycle

theorem run_outcomeOf {σ : Type} {resolve : Address → StateT σ Option Outcome}
    {table : Address → Outcome} {Good : σ → Prop} (t : CellText)
    (answers : ∀ a ∈ (t.evaluateIn table).2, ∀ s, Good s →
      ∃ s', (resolve a).run s = some (table a, s') ∧ Good s')
    {s : σ} (good : Good s) :
    ∃ s', (Records.outcomeOf resolve t).run s = some ((t.evaluateIn table).1, s') ∧ Good s' := by
  rw [outcomeOf_eq]
  unfold evaluateIn at answers ⊢
  split
  · next body formula =>
      rw [formula] at answers
      exact Expr.run_evaluate _ answers good
  · exact ⟨s, rfl, good⟩

end CellText

end Worksheet
