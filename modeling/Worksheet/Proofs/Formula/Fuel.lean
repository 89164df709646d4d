import Worksheet.Proofs.Formula.Reading

/-!
Reading a formula takes time in proportion to its text.

The readers of this module do what those of the grammar do, but each call and each turn of a loop
takes one unit off the fuel it was given, and without fuel it gives up. `Expr.ofCharsWithin_eq` says
that five units for each character, and five more, are always enough: whatever a reader does, it
gets ahead in the text. It also bounds the tree that is read, which an evaluation walks once.
-/

namespace Worksheet

/-! ## Tokens -/

namespace Token

/-- Splits a formula into tokens, in as many turns as there is fuel. -/
def ofCharsWithin : Nat → List Char → Option (List Token)
  | 0, _ => none
  | _ + 1, [] => some []
  | fuel + 1, c :: cs =>
    if Text.isBlank c then ofCharsWithin fuel cs
    else
      match ofSymbol? c with
      | some token => (ofCharsWithin fuel cs).map (token :: ·)
      | none =>
        if c.isAlpha then
          if cs.takeWhile Char.isDigit = [] then (ofCharsWithin fuel cs).map (.stray :: ·)
          else
            (ofCharsWithin fuel (cs.dropWhile Char.isDigit)).map
              (.label (Address.ofParts? c (cs.takeWhile Char.isDigit)) :: ·)
        else
          match Numeral.scan (c :: cs) with
          | some (n, rest) => (ofCharsWithin fuel rest).map (.number n.value :: ·)
          | none => (ofCharsWithin fuel cs).map (.stray :: ·)

/-- The fuel is enough for `cs`, which have at most as many tokens as characters. -/
structure Enough (fuel : Nat) (cs : List Char) : Prop where
  ends : ofCharsWithin fuel cs = some (ofChars cs)
  length_le : (ofChars cs).length ≤ cs.length

/-- What one more turn does that takes a token and leaves `rest`. -/
theorem Enough.cons {fuel : Nat} {rest : List Char} (later : Enough fuel rest) (t : Token)
    {cs : List Char} (taken : rest.length < cs.length) :
    (ofCharsWithin fuel rest).map (t :: ·) = some (t :: ofChars rest) ∧
      (t :: ofChars rest).length ≤ cs.length := by
  refine ⟨?_, Nat.lt_of_le_of_lt later.length_le taken⟩
  rw [later.ends, Option.map_some]

/-- Each turn takes a character at least. -/
theorem enough_of_length_lt {fuel : Nat} {cs : List Char} (room : cs.length < fuel) :
    Enough fuel cs := by
  induction fuel generalizing cs with
  | zero => exact absurd room (Nat.not_lt_zero _)
  | succ fuel ih =>
      have later (rest : List Char) (taken : rest.length < cs.length) : Enough fuel rest :=
        ih (Nat.lt_of_lt_of_le taken (Nat.le_of_lt_succ room))
      suffices goal : ofCharsWithin (fuel + 1) cs = some (ofChars cs) ∧
          (ofChars cs).length ≤ cs.length from ⟨goal.1, goal.2⟩
      fun_cases ofChars cs with
      | case1 => exact ⟨rfl, Nat.le_refl 0⟩
      | case2 c cs blank =>
          have next := later cs (Nat.lt_succ_self _)
          rw [ofCharsWithin, if_pos blank]
          exact ⟨next.ends, Nat.le_succ_of_le next.length_le⟩
      | case3 c cs blank token symbol =>
          rw [ofCharsWithin, if_neg blank, symbol]
          exact (later cs (Nat.lt_succ_self _)).cons token (Nat.lt_succ_self _)
      | case4 c cs blank symbol alpha digits =>
          rw [ofCharsWithin, if_neg blank, symbol]
          dsimp only
          rw [if_pos alpha, if_pos digits]
          exact (later cs (Nat.lt_succ_self _)).cons .stray (Nat.lt_succ_self _)
      | case5 c cs blank symbol alpha digits =>
          have drop := Nat.lt_succ_of_le (Numeral.length_dropWhile_le Char.isDigit cs)
          rw [ofCharsWithin, if_neg blank, symbol]
          dsimp only
          rw [if_pos alpha, if_neg digits]
          exact (later _ drop).cons _ drop
      | case6 c cs blank symbol alpha n rest scanned =>
          have taken := Numeral.length_lt_of_scan scanned
          rw [ofCharsWithin, if_neg blank, symbol]
          dsimp only
          rw [if_neg alpha, scanned]
          exact (later rest taken).cons _ taken
      | case7 c cs blank symbol alpha scanned =>
          rw [ofCharsWithin, if_neg blank, symbol]
          dsimp only
          rw [if_neg alpha, scanned]
          exact (later cs (Nat.lt_succ_self _)).cons .stray (Nat.lt_succ_self _)

end Token

/-! ## Trees -/

namespace Expr

/-- How many nodes a tree has. -/
def size : Expr → Nat
  | number _ | reference _ | outside | missing => 1
  | negate operand => operand.size + 1
  | binary _ left right => left.size + right.size + 1
  | broken tree => tree.size + 1

/-- Takes the closing bracket after a sum; without one the sum is broken, and the tokens left are
dropped. -/
def closeBracket : Expr × List Token → Expr × List Token
  | (tree, .closing :: rest) => (tree, rest)
  | (tree, _) => (.broken tree, [])

mutual

/-- Reads a sum. -/
def readSumWithin : Nat → List Token → Option (Expr × List Token)
  | 0, _ => none
  | fuel + 1, ts => do
    let (tree, rest) ← readProductWithin fuel ts
    readSumRestWithin fuel tree rest

/-- Goes on with a sum whose terms so far are `left`. -/
def readSumRestWithin : Nat → Expr → List Token → Option (Expr × List Token)
  | 0, _, _ => none
  | fuel + 1, left, ts =>
    match ts with
    | .operator op :: us =>
      if op.isAdditive then do
        let (right, rest) ← readProductWithin fuel us
        readSumRestWithin fuel (.binary op left right) rest
      else some (left, .operator op :: us)
    | ts => some (left, ts)

/-- Reads a product. -/
def readProductWithin : Nat → List Token → Option (Expr × List Token)
  | 0, _ => none
  | fuel + 1, ts => do
    let (tree, rest) ← readFactorWithin fuel ts
    readProductRestWithin fuel tree rest

/-- Goes on with a product whose factors so far are `left`. -/
def readProductRestWithin : Nat → Expr → List Token → Option (Expr × List Token)
  | 0, _, _ => none
  | fuel + 1, left, ts =>
    match ts with
    | .operator op :: us =>
      if op.isAdditive then some (left, .operator op :: us)
      else do
        let (right, rest) ← readFactorWithin fuel us
        readProductRestWithin fuel (.binary op left right) rest
    | ts => some (left, ts)

/-- Reads a factor. -/
def readFactorWithin : Nat → List Token → Option (Expr × List Token)
  | 0, _ => none
  | fuel + 1, ts =>
    match ts with
    | .number value :: us => some (.number value, us)
    | .label (some a) :: us => some (.reference a, us)
    | .label none :: us => some (.outside, us)
    | .operator .add :: us => readFactorWithin fuel us
    | .operator .subtract :: us => (readFactorWithin fuel us).map (Prod.map .negate id)
    | .opening :: us => (readSumWithin fuel us).map closeBracket
    | _ => some (.missing, [])

end

/-- The tree of a formula's text, read with bounded fuel. -/
def ofCharsWithin (fuel : Nat) (cs : List Char) : Option Expr := do
  let ts ← Token.ofCharsWithin fuel cs
  let (tree, rest) ← readSumWithin fuel ts
  return if rest.isEmpty then tree else .broken tree

/-- Fuel that is enough for a text of `n` characters. -/
def readingFuel (n : Nat) : Nat := 5 * n + 5

/-! ## The fuel is enough -/

/-- A reader comes to an end if it is given five units for each token of `ts` and `extra` units
more. What it has read, which was `size` nodes large before, has grown by at most two nodes for each
token taken. -/
structure ReadsWithin (ts : List Token) (extra size : Nat)
    (bounded : Nat → Option (Expr × List Token)) (out : Expr × List Token) : Prop where
  ends : ∀ fuel, 5 * ts.length + extra ≤ fuel → bounded fuel = some out
  size_le : out.1.size + 2 * out.2.length ≤ size + 2 * ts.length

theorem closeBracket_unclosed {tree : Expr} {rest : List Token}
    (unclosed : ∀ us, rest = .closing :: us → False) :
    closeBracket (tree, rest) = (.broken tree, []) := by
  rw [closeBracket]
  exact unclosed

theorem size_closeBracket_le (p : Expr × List Token) :
    (closeBracket p).1.size + 2 * (closeBracket p).2.length ≤ p.1.size + 2 * p.2.length + 2 := by
  unfold closeBracket
  split
  · dsimp only [List.length_cons]
    omega
  · dsimp only [size, List.length_nil]
    omega

section Turns

variable {ts us : List Token} {extra units more size grown : Nat} {r : Reading us}
  {out : Expr × List Token} {whole first : Nat → Option (Expr × List Token)}

/-- A reader that is done after one turn. -/
theorem ReadsWithin.of_turn (turn : ∀ fuel, whole (fuel + 1) = some out) (units : 0 < extra)
    (bound : out.1.size + 2 * out.2.length ≤ size + 2 * ts.length) :
    ReadsWithin ts extra size whole out := by
  refine ⟨fun fuel room => ?_, bound⟩
  obtain ⟨fuel, rfl⟩ : ∃ m, fuel = m + 1 := ⟨fuel - 1, by omega⟩
  exact turn fuel

/-- A reader that calls one reader on `us` and goes on with another on what is left. -/
theorem ReadsWithin.of_turn_then (next : Nat → Expr → List Token → Option (Expr × List Token))
    (read : ReadsWithin us units 1 first r.out)
    (later : ReadsWithin r.rest more grown (next · r.tree r.rest) out)
    (turn : ∀ fuel, whole (fuel + 1) = (first fuel).bind fun p => next fuel p.1 p.2)
    (room : 5 * us.length + units < 5 * ts.length + extra)
    (roomLater : 5 * us.length + more < 5 * ts.length + extra)
    (bound : r.tree.size + 2 * r.rest.length ≤ 1 + 2 * us.length →
      grown + 2 * r.rest.length ≤ size + 2 * ts.length) :
    ReadsWithin ts extra size whole out := by
  have shorter := r.rest_le
  refine ⟨fun fuel enough => ?_, Nat.le_trans later.size_le (bound read.size_le)⟩
  obtain ⟨fuel, rfl⟩ : ∃ m, fuel = m + 1 := ⟨fuel - 1, by omega⟩
  rw [turn, read.ends fuel (by omega), Option.bind_some]
  exact later.ends fuel (by omega)

/-- A reader that goes on with a tree after an operator and its right operand. -/
theorem ReadsWithin.of_operand {op : Operator} {left : Expr}
    (next : Nat → Expr → List Token → Option (Expr × List Token))
    (read : ReadsWithin us units 1 first r.out)
    (later : ReadsWithin r.rest extra (binary op left r.tree).size
      (fun fuel => next fuel (binary op left r.tree) r.rest) out)
    (turn : ∀ fuel, whole (fuel + 1) =
      (first fuel).bind fun p => next fuel (binary op left p.1) p.2)
    (room : units < extra + 5) :
    ReadsWithin (.operator op :: us) extra left.size whole out := by
  refine .of_turn_then (fun fuel right => next fuel (binary op left right)) read later turn ?_ ?_
    fun bound => ?_
  · rw [List.length_cons]
    omega
  · rw [List.length_cons]
    omega
  · rw [Expr.size, List.length_cons]
    omega

/-- A reader that calls one reader on `us`, after a token, and changes no more than the tree it gets. -/
theorem ReadsWithin.of_inner {t : Token} {p : Expr × List Token}
    (read : ReadsWithin us units 1 first p) (finish : Expr × List Token → Expr × List Token)
    (turn : ∀ fuel, whole (fuel + 1) = (first fuel).map finish) (room : units ≤ 5)
    (bound : (finish p).1.size + 2 * (finish p).2.length ≤ p.1.size + 2 * p.2.length + 2) :
    ReadsWithin (t :: us) 1 1 whole (finish p) := by
  have size := read.size_le
  constructor
  · intro fuel enough
    rw [List.length_cons] at enough
    obtain ⟨fuel, rfl⟩ : ∃ m, fuel = m + 1 := ⟨fuel - 1, by omega⟩
    rw [turn, read.ends fuel (by omega), Option.map_some]
  · rw [List.length_cons]
    omega

end Turns

/-- One case for each equation of the readers. The units of a reader exceed those of the readers that it
calls on the same tokens, and five units come free with each token taken. -/
theorem readsWithin_readSum (ts : List Token) :
    ReadsWithin ts 5 1 (readSumWithin · ts) (readSum ts).out := by
  refine (readSum.mutual_induct
    (fun ts => ReadsWithin ts 5 1 (readSumWithin · ts) (readSum ts).out)
    (fun left ts => ReadsWithin ts 4 left.size (readSumRestWithin · left ts) (readSumRest left ts).out)
    (fun ts => ReadsWithin ts 3 1 (readProductWithin · ts) (readProduct ts).out)
    (fun left ts =>
      ReadsWithin ts 2 left.size (readProductRestWithin · left ts) (readProductRest left ts).out)
    (fun ts => ReadsWithin ts 1 1 (readFactorWithin · ts) (readFactor ts).out)
    ?sum ?sumRest ?sumEnds ?sumOther ?product ?productEnds ?productRest ?productOther
    ?number ?reference ?outside ?plus ?minus ?bracket ?unclosed ?stopped).1 ts
  case sum =>
    intro ts first ihFirst ihRest
    rw [readSum_of_product rfl]
    exact .of_turn_then readSumRestWithin ihFirst ihRest (fun _ => rfl) (by omega) (by omega) id
  case sumRest =>
    intro left op us additive right ihRight ihRest
    rw [readSumRest_of_additive additive rfl]
    refine .of_operand readSumRestWithin ihRight ihRest (fun fuel => ?_) (by decide)
    rw [readSumRestWithin, if_pos additive]
    rfl
  case sumEnds =>
    intro left op us factor
    rw [readSumRest_of_factor factor]
    refine .of_turn (fun fuel => ?_) (by decide) (Nat.le_refl _)
    rw [readSumRestWithin, if_neg factor]
  case sumOther =>
    intro left ts other
    rw [readSumRest_of_other other]
    refine .of_turn (fun fuel => ?_) (by decide) (Nat.le_refl _)
    rw [readSumRestWithin]
    exact other
  case product =>
    intro ts first ihFirst ihRest
    rw [readProduct_of_factor rfl]
    exact .of_turn_then readProductRestWithin ihFirst ihRest (fun _ => rfl) (by omega) (by omega) id
  case productEnds =>
    intro left op us additive
    rw [readProductRest_of_additive additive]
    refine .of_turn (fun fuel => ?_) (by decide) (Nat.le_refl _)
    rw [readProductRestWithin, if_pos additive]
  case productRest =>
    intro left op us factor right ihRight ihRest
    rw [readProductRest_of_factor factor rfl]
    refine .of_operand readProductRestWithin ihRight ihRest (fun fuel => ?_) (by decide)
    rw [readProductRestWithin, if_neg factor]
    rfl
  case productOther =>
    intro left ts other
    rw [readProductRest_of_other other]
    refine .of_turn (fun fuel => ?_) (by decide) (Nat.le_refl _)
    rw [readProductRestWithin]
    exact other
  case number =>
    intro value us
    rw [readFactor]
    exact .of_turn (fun _ => rfl) (by decide) (Nat.add_le_add_left (Nat.le_add_right _ 2) 1)
  case reference =>
    intro a us
    rw [readFactor]
    exact .of_turn (fun _ => rfl) (by decide) (Nat.add_le_add_left (Nat.le_add_right _ 2) 1)
  case outside =>
    intro us
    rw [readFactor]
    exact .of_turn (fun _ => rfl) (by decide) (Nat.add_le_add_left (Nat.le_add_right _ 2) 1)
  case plus =>
    intro us ih
    rw [readFactor_plus rfl]
    refine .of_inner ih id (fun fuel => ?_) (by decide) (Nat.le_add_right _ 2)
    rw [Option.map_id]
    rfl
  case minus =>
    intro us ih
    rw [readFactor_minus rfl]
    refine .of_inner ih (Prod.map .negate id) (fun _ => rfl) (by decide) ?_
    rw [Prod.map_fst, Prod.map_snd, size, id]
    omega
  case bracket =>
    intro us inner vs closed ih
    have out : inner.out = (inner.tree, .closing :: vs) := Reading.out_eq_iff.mpr ⟨rfl, closed⟩
    have taken : closeBracket inner.out = (inner.tree, vs) := by
      rw [out, closeBracket]
    rw [readFactor_bracket out, ← taken]
    exact .of_inner ih closeBracket (fun _ => rfl) (by decide) (size_closeBracket_le _)
  case unclosed =>
    intro us inner unclosed ih
    rw [readFactor_unclosed unclosed, ← closeBracket_unclosed unclosed]
    exact .of_inner ih closeBracket (fun _ => rfl) (by decide) (size_closeBracket_le _)
  case stopped =>
    intro ts h₁ h₂ h₃ h₄ h₅ h₆
    rw [readFactor.eq_7 ts h₁ h₂ h₃ h₄ h₅ h₆]
    refine .of_turn (fun fuel => ?_) (by decide) (Nat.le_add_right 1 _)
    rw [readFactorWithin]
    · rfl
    all_goals assumption

/-- Reading a text ends within the fuel for its length, with the tree that it is read as, and that
tree has at most two nodes for each character, and two more. -/
theorem ofCharsWithin_eq {fuel : Nat} {cs : List Char} (enough : readingFuel cs.length ≤ fuel) :
    ofCharsWithin fuel cs = some (ofChars cs) ∧ (ofChars cs).size ≤ 2 * cs.length + 2 := by
  unfold readingFuel at enough
  have tokens := Token.enough_of_length_lt (show cs.length < fuel by omega)
  have fewer := tokens.length_le
  have read := readsWithin_readSum (Token.ofChars cs)
  have size : (readSum (Token.ofChars cs)).tree.size +
      2 * (readSum (Token.ofChars cs)).rest.length ≤ 1 + 2 * (Token.ofChars cs).length := read.size_le
  constructor
  · rw [ofCharsWithin, tokens.ends, Option.bind_eq_bind, Option.bind_some,
      read.ends fuel (by omega)]
    rfl
  · rw [ofChars, ofTokens]
    split
    · omega
    · rw [Expr.size]
      omega

end Expr

end Worksheet
