import Worksheet.Formula.Token

/-!
The tree of a formula.

    sum     := product (('+' | '-') product)*
    product := factor (('*' | '/') factor)*
    factor  := '(' sum ')' | ('+' | '-') factor | label | number

Both levels associate to the left. A text outside the grammar has a tree as well: it keeps what
could be read and marks where reading broke off, so that whatever stands before the break is
evaluated first. Reading consumes tokens, which every `Reading` proves of itself.
-/

namespace Worksheet

/-- The tree of a formula, with the places where reading broke off. -/
inductive Expr where
  | number (value : Float)
  | reference (a : Address)
  /-- A label whose row is outside the grid. -/
  | outside
  | negate (operand : Expr)
  | binary (op : Operator) (left right : Expr)
  /-- An operand was due, and none came. -/
  | missing
  /-- The tree is whole, but what follows it does not belong there. -/
  | broken (tree : Expr)

/-- A tree read from the front of `ts`, and the tokens it left. -/
structure Reading (ts : List Token) where
  tree : Expr
  rest : List Token
  rest_le : rest.length ≤ ts.length

namespace Reading

/-- A reading of a later part of the tokens, seen from an earlier start. -/
def since {ts us : List Token} (r : Reading us) (h : us.length ≤ ts.length) : Reading ts :=
  ⟨r.tree, r.rest, Nat.le_trans r.rest_le h⟩

/-- Reading ends here, and the tokens left are dropped. -/
def stop (ts : List Token) (tree : Expr) : Reading ts :=
  ⟨tree, [], Nat.zero_le _⟩

end Reading

namespace Expr

/-! ## Reading -/

mutual

/-- Reads a sum. -/
def readSum (ts : List Token) : Reading ts :=
  let first := readProduct ts
  (readSumRest first.tree first.rest).since first.rest_le
termination_by (ts.length, 4)
decreasing_by
  · exact Prod.Lex.right _ (by decide)
  · rcases Nat.lt_or_eq_of_le first.rest_le with h | h
    · exact Prod.Lex.left _ _ h
    · rw [h]; exact Prod.Lex.right _ (by decide)

/-- Goes on with a sum whose terms so far are `left`. -/
def readSumRest (left : Expr) (ts : List Token) : Reading ts :=
  match ts with
  | .operator op :: us =>
    if op.isAdditive then
      let right := readProduct us
      (readSumRest (.binary op left right.tree) right.rest).since
        (Nat.le_succ_of_le right.rest_le)
    else ⟨left, .operator op :: us, Nat.le_refl _⟩
  | ts => ⟨left, ts, Nat.le_refl _⟩
termination_by (ts.length, 3)
decreasing_by
  · exact Prod.Lex.left _ _ (Nat.lt_succ_self _)
  · exact Prod.Lex.left _ _ (Nat.lt_succ_of_le right.rest_le)

/-- Reads a product. -/
def readProduct (ts : List Token) : Reading ts :=
  let first := readFactor ts
  (readProductRest first.tree first.rest).since first.rest_le
termination_by (ts.length, 2)
decreasing_by
  · exact Prod.Lex.right _ (by decide)
  · rcases Nat.lt_or_eq_of_le first.rest_le with h | h
    · exact Prod.Lex.left _ _ h
    · rw [h]; exact Prod.Lex.right _ (by decide)

/-- Goes on with a product whose factors so far are `left`. -/
def readProductRest (left : Expr) (ts : List Token) : Reading ts :=
  match ts with
  | .operator op :: us =>
    if op.isAdditive then ⟨left, .operator op :: us, Nat.le_refl _⟩
    else
      let right := readFactor us
      (readProductRest (.binary op left right.tree) right.rest).since
        (Nat.le_succ_of_le right.rest_le)
  | ts => ⟨left, ts, Nat.le_refl _⟩
termination_by (ts.length, 1)
decreasing_by
  · exact Prod.Lex.left _ _ (Nat.lt_succ_self _)
  · exact Prod.Lex.left _ _ (Nat.lt_succ_of_le right.rest_le)

/-- Reads a factor. A plus sign in front of a factor has no effect. -/
def readFactor (ts : List Token) : Reading ts :=
  match ts with
  | .number value :: us => ⟨.number value, us, Nat.le_succ _⟩
  | .label (some a) :: us => ⟨.reference a, us, Nat.le_succ _⟩
  | .label none :: us => ⟨.outside, us, Nat.le_succ _⟩
  | .operator .add :: us => (readFactor us).since (Nat.le_succ _)
  | .operator .subtract :: us =>
    let operand := readFactor us
    ⟨.negate operand.tree, operand.rest, Nat.le_succ_of_le operand.rest_le⟩
  | .opening :: us =>
    let inner := readSum us
    match h : inner.rest with
    | .closing :: vs =>
      ⟨inner.tree, vs, by
        have := inner.rest_le
        rw [h] at this
        simp only [List.length_cons] at this ⊢
        omega⟩
    | _ => .stop _ (.broken inner.tree)
  | ts => .stop ts .missing
termination_by (ts.length, 0)
decreasing_by
  all_goals exact Prod.Lex.left _ _ (Nat.lt_succ_self _)

end

/-- The tree of a whole formula; tokens left over break it. -/
def ofTokens (ts : List Token) : Expr :=
  let r := readSum ts
  if r.rest.isEmpty then r.tree else .broken r.tree

/-- The tree of a formula's text. -/
def ofChars (cs : List Char) : Expr :=
  ofTokens (Token.ofChars cs)

end Expr

end Worksheet
