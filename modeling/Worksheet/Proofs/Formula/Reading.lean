import Worksheet.Proofs.Formula.Demand
import Worksheet.Proofs.Formula.Tokens

/-!
Reading tokens, against the grammar.

* `Expr.ofChars_of_writtenAs`: a text of the grammar is read as its tree.
* `Expr.fails_of_not_writtenAs`: any other text is read as a tree that no value comes of.
-/

namespace Worksheet

/-- The tree that a formula is read as; a plus sign in front of a factor leaves no trace. -/
def Formula.toExpr : Formula → Expr
  | number value => .number value
  | label none => .outside
  | label (some a) => .reference a
  | plus operand => operand.toExpr
  | minus operand => .negate operand.toExpr
  | binary op left right => .binary op left.toExpr right.toExpr

theorem Operator.isAdditive_iff {op : Operator} :
    op.isAdditive = true ↔ op = .add ∨ op = .subtract := by
  cases op <;> decide

theorem Operator.not_isAdditive_iff {op : Operator} :
    ¬op.isAdditive = true ↔ op = .multiply ∨ op = .divide := by
  cases op <;> decide

/-! ## Reading by equations -/

/-- A reading without its proof. -/
def Reading.out {ts : List Token} (r : Reading ts) : Expr × List Token := (r.tree, r.rest)

theorem Reading.out_eq_iff {ts rest : List Token} {r : Reading ts} {tree : Expr} :
    r.out = (tree, rest) ↔ r.tree = tree ∧ r.rest = rest :=
  Prod.ext_iff

namespace Expr

section Equations

variable {left tree : Expr} {op : Operator} {ts us rest : List Token}

theorem readSum_of_product (read : (readProduct ts).out = (tree, rest)) :
    (readSum ts).out = (readSumRest tree rest).out := by
  obtain ⟨rfl, rfl⟩ := Reading.out_eq_iff.mp read
  rw [readSum]
  rfl

theorem readSumRest_of_additive (additive : op.isAdditive = true)
    (read : (readProduct us).out = (tree, rest)) :
    (readSumRest left (.operator op :: us)).out =
      (readSumRest (.binary op left tree) rest).out := by
  obtain ⟨rfl, rfl⟩ := Reading.out_eq_iff.mp read
  rw [readSumRest, if_pos additive]
  rfl

theorem readSumRest_of_factor (factor : ¬op.isAdditive = true) :
    (readSumRest left (.operator op :: us)).out = (left, .operator op :: us) := by
  rw [readSumRest, if_neg factor]
  rfl

theorem readSumRest_of_other (other : ∀ op us, ts = .operator op :: us → False) :
    (readSumRest left ts).out = (left, ts) := by
  rw [readSumRest.eq_2 left ts other]
  rfl

theorem readProduct_of_factor (read : (readFactor ts).out = (tree, rest)) :
    (readProduct ts).out = (readProductRest tree rest).out := by
  obtain ⟨rfl, rfl⟩ := Reading.out_eq_iff.mp read
  rw [readProduct]
  rfl

theorem readProductRest_of_factor (factor : ¬op.isAdditive = true)
    (read : (readFactor us).out = (tree, rest)) :
    (readProductRest left (.operator op :: us)).out =
      (readProductRest (.binary op left tree) rest).out := by
  obtain ⟨rfl, rfl⟩ := Reading.out_eq_iff.mp read
  rw [readProductRest, if_neg factor]
  rfl

theorem readProductRest_of_additive (additive : op.isAdditive = true) :
    (readProductRest left (.operator op :: us)).out = (left, .operator op :: us) := by
  rw [readProductRest, if_pos additive]
  rfl

theorem readProductRest_of_other (other : ∀ op us, ts = .operator op :: us → False) :
    (readProductRest left ts).out = (left, ts) := by
  rw [readProductRest.eq_2 left ts other]
  rfl

theorem readFactor_number (value : Float) : (readFactor (.number value :: us)).out = (.number value, us) := by
  rw [readFactor]
  rfl

theorem readFactor_label (a : Option Address) :
    (readFactor (.label a :: us)).out = (a.elim .outside .reference, us) := by
  cases a with
  | none =>
      rw [readFactor]
      rfl
  | some a =>
      rw [readFactor]
      rfl

theorem readFactor_nil : (readFactor []).out = (.missing, []) := by
  rw [readFactor]
  · rfl
  all_goals simp

theorem readFactor_stray : (readFactor (.stray :: us)).out = (.missing, []) := by
  rw [readFactor]
  · rfl
  all_goals simp

theorem readFactor_plus (read : (readFactor us).out = (tree, rest)) :
    (readFactor (.operator .add :: us)).out = (tree, rest) := by
  rw [readFactor]
  exact read

theorem readFactor_minus (read : (readFactor us).out = (tree, rest)) :
    (readFactor (.operator .subtract :: us)).out = (.negate tree, rest) := by
  obtain ⟨rfl, rfl⟩ := Reading.out_eq_iff.mp read
  rw [readFactor]
  rfl

theorem readFactor_bracket (read : (readSum us).out = (tree, .closing :: rest)) :
    (readFactor (.opening :: us)).out = (tree, rest) := by
  obtain ⟨rfl, closed⟩ := Reading.out_eq_iff.mp read
  rw [readFactor]
  split
  · next vs closed' =>
      obtain ⟨-, rfl⟩ := List.cons.inj (closed.symm.trans closed')
      rfl
  · next unclosed => exact absurd closed (unclosed rest)

theorem readFactor_unclosed (unclosed : ∀ vs, (readSum us).rest = .closing :: vs → False) :
    (readFactor (.opening :: us)).out = (.broken (readSum us).tree, []) := by
  rw [readFactor]
  split
  · next vs closed => exact absurd closed (unclosed vs)
  · rfl

end Equations

/-! ## Phrases are read whole -/

/-- Tokens that no product goes on with. -/
def EndsProduct (ts : List Token) : Prop :=
  ∀ op us, ts = .operator op :: us → op.isAdditive = true

theorem endsProduct_nil : EndsProduct [] := by
  intro op us same
  cases same

theorem readProductRest_of_ends {left : Expr} {ts : List Token} (ends : EndsProduct ts) :
    (readProductRest left ts).out = (left, ts) := by
  by_cases operator : ∃ op us, ts = .operator op :: us
  · obtain ⟨op, us, rfl⟩ := operator
    exact readProductRest_of_additive (ends op us rfl)
  · exact readProductRest_of_other fun op us same => operator ⟨op, us, same⟩

/-- What the reader of a category makes of a phrase with something behind it. A sum or product
goes on from there as from any first operand. -/
def ReadsAs (ts : List Token) (tree : Expr) : Category → Prop
  | .sum => ∀ rest, EndsProduct rest →
    (readSum (ts ++ rest)).out = (readSumRest tree rest).out
  | .product => ∀ rest, (readProduct (ts ++ rest)).out = (readProductRest tree rest).out
  | .factor => ∀ rest, (readFactor (ts ++ rest)).out = (tree, rest)

theorem readsAs_of_derives {c : Category} {ts : List Token} {f : Formula}
    (derives : Derives c ts f) : ReadsAs ts f.toExpr c := by
  induction derives with
  | product derives ih =>
      intro rest ends
      exact readSum_of_product ((ih rest).trans (readProductRest_of_ends ends))
  | @sum ts us f g op left additive right ihLeft ihRight =>
      intro rest ends
      have additive := Operator.isAdditive_iff.mpr additive
      have endsLeft : EndsProduct (.operator op :: (us ++ rest)) := by
        intro op us same
        cases same
        exact additive
      have readRight : (readProduct (us ++ rest)).out = (g.toExpr, rest) :=
        (ihRight rest).trans (readProductRest_of_ends ends)
      rw [List.append_assoc, List.cons_append, ihLeft _ endsLeft]
      exact readSumRest_of_additive additive readRight
  | factor derives ih =>
      intro rest
      exact readProduct_of_factor (ih rest)
  | @times ts us f g op left factor right ihLeft ihRight =>
      intro rest
      have factor := Operator.not_isAdditive_iff.mpr factor
      rw [List.append_assoc, List.cons_append, ihLeft]
      exact readProductRest_of_factor factor (ihRight rest)
  | @bracket ts f derives ih =>
      intro rest
      have notOperator : ∀ op us, Token.closing :: rest = .operator op :: us → False := nofun
      have readInner : (readSum (ts ++ .closing :: rest)).out = (f.toExpr, .closing :: rest) :=
        (ih _ fun op us same => (notOperator op us same).elim).trans
          (readSumRest_of_other notOperator)
      rw [List.cons_append, List.append_assoc, List.singleton_append]
      exact readFactor_bracket readInner
  | plus derives ih =>
      intro rest
      exact readFactor_plus (ih rest)
  | minus derives ih =>
      intro rest
      exact readFactor_minus (ih rest)
  | @label a =>
      intro rest
      cases a with
      | none =>
          rw [List.singleton_append, readFactor]
          rfl
      | some a =>
          rw [List.singleton_append, readFactor]
          rfl
  | number =>
      intro rest
      rw [List.singleton_append, readFactor]
      rfl

theorem ofTokens_of_derives {ts : List Token} {f : Formula} (derives : Derives .sum ts f) :
    ofTokens ts = f.toExpr := by
  have read := readsAs_of_derives derives [] endsProduct_nil
  rw [List.append_nil, readSumRest_of_other fun op us same => by cases same] at read
  obtain ⟨tree, rest⟩ := Reading.out_eq_iff.mp read
  rw [ofTokens, rest, if_pos List.isEmpty_nil, tree]

/-! ## What is no phrase comes to nothing -/

/-- Trees with a part that fails whatever the references stand for. -/
inductive Fails : Expr → Prop
  | missing : Fails .missing
  | broken {tree : Expr} : Fails (.broken tree)
  | negate {operand : Expr} : Fails operand → Fails (.negate operand)
  | left {op : Operator} {left right : Expr} : Fails left → Fails (.binary op left right)
  | right {op : Operator} {left right : Expr} : Fails right → Fails (.binary op left right)

/-- The error of an outcome, or else the next one. -/
def errorOr {m : Type → Type} [Monad m] (next : m CellError) : Outcome → m CellError
  | .ok _ => next
  | .error k => pure k

theorem Fails.evaluate {m : Type → Type} [Monad m] [LawfulMonad m] {e : Expr} (fails : Fails e)
    (resolve : Address → m Outcome) :
    ∃ k : m CellError, e.evaluate resolve = Except.error <$> k := by
  induction fails with
  | missing => exact ⟨pure .parse, (map_pure _ _).symm⟩
  | @broken tree =>
      refine ⟨tree.evaluate resolve >>= errorOr (pure .parse), ?_⟩
      rw [evaluate_broken, map_bind]
      refine bind_congr fun outcome => ?_
      cases outcome with
      | error k => exact (map_pure Except.error k).symm
      | ok x => exact (map_pure Except.error CellError.parse).symm
  | @negate operand fails ih =>
      obtain ⟨k, evaluated⟩ := ih
      refine ⟨k, ?_⟩
      rw [evaluate_negate, evaluated, bind_map_left, map_eq_pure_bind]
      rfl
  | @left op left right fails ih =>
      obtain ⟨k, evaluated⟩ := ih
      refine ⟨k, ?_⟩
      rw [evaluate_binary, evaluated, bind_map_left, map_eq_pure_bind]
  | @right op left right fails ih =>
      obtain ⟨k, evaluated⟩ := ih
      refine ⟨left.evaluate resolve >>= errorOr k, ?_⟩
      rw [evaluate_binary, map_bind]
      refine bind_congr fun outcome => ?_
      cases outcome with
      | error k => exact (map_pure _ _).symm
      | ok x =>
          dsimp only
          rw [evaluated, bind_map_left, map_eq_pure_bind]
          rfl

/-- The tree is that of a phrase of these tokens, unless it fails. -/
def PhraseOrFails (c : Category) (ts : List Token) (e : Expr) : Prop :=
  e.Fails ∨ ∃ f : Formula, Derives c ts f ∧ e = f.toExpr

section Phrases

variable {b c d : Category} {ts us vs : List Token} {e whole left right : Expr} {op : Operator}

theorem PhraseOrFails.unary (phrase : PhraseOrFails c ts e) (fails : e.Fails → whole.Fails)
    (derives : ∀ f : Formula, Derives c ts f → e = f.toExpr →
      ∃ g : Formula, Derives d us g ∧ whole = g.toExpr) :
    PhraseOrFails d us whole := by
  rcases phrase with failing | ⟨f, phrase, same⟩
  · exact .inl (fails failing)
  · exact .inr (derives f phrase same)

theorem PhraseOrFails.binary (phraseLeft : PhraseOrFails c ts left)
    (phraseRight : PhraseOrFails d us right)
    (derives : ∀ f g : Formula, Derives c ts f → Derives d us g → Derives b vs (.binary op f g)) :
    PhraseOrFails b vs (.binary op left right) := by
  rcases phraseLeft with fails | ⟨f, derivesLeft, rfl⟩
  · exact .inl (.left fails)
  rcases phraseRight with fails | ⟨g, derivesRight, rfl⟩
  · exact .inl (.right fails)
  · exact .inr ⟨.binary op f g, derives f g derivesLeft derivesRight, rfl⟩

theorem PhraseOrFails.sum (phrase : PhraseOrFails .product ts e) : PhraseOrFails .sum ts e :=
  phrase.unary id fun f derives same => ⟨f, .product derives, same⟩

theorem PhraseOrFails.product (phrase : PhraseOrFails .factor ts e) :
    PhraseOrFails .product ts e :=
  phrase.unary id fun f derives same => ⟨f, .factor derives, same⟩

theorem PhraseOrFails.additive (additive : op.isAdditive = true)
    (phraseLeft : PhraseOrFails .sum ts left) (phraseRight : PhraseOrFails .product us right) :
    PhraseOrFails .sum (ts ++ .operator op :: us) (.binary op left right) :=
  phraseLeft.binary phraseRight fun _ _ derivesLeft derivesRight =>
    .sum derivesLeft (Operator.isAdditive_iff.mp additive) derivesRight

theorem PhraseOrFails.multiplicative (factor : ¬op.isAdditive = true)
    (phraseLeft : PhraseOrFails .product ts left) (phraseRight : PhraseOrFails .factor us right) :
    PhraseOrFails .product (ts ++ .operator op :: us) (.binary op left right) :=
  phraseLeft.binary phraseRight fun _ _ derivesLeft derivesRight =>
    .times derivesLeft (Operator.not_isAdditive_iff.mp factor) derivesRight

theorem PhraseOrFails.plus (phrase : PhraseOrFails .factor ts e) :
    PhraseOrFails .factor (.operator .add :: ts) e :=
  phrase.unary id fun f derives same => ⟨.plus f, .plus derives, same⟩

theorem PhraseOrFails.minus (phrase : PhraseOrFails .factor ts e) :
    PhraseOrFails .factor (.operator .subtract :: ts) (.negate e) :=
  phrase.unary .negate fun f derives same => ⟨.minus f, .minus derives, congrArg negate same⟩

theorem PhraseOrFails.bracket (phrase : PhraseOrFails .sum ts e) :
    PhraseOrFails .factor (.opening :: (ts ++ [.closing])) e :=
  phrase.unary id fun f derives same => ⟨f, .bracket derives, same⟩

end Phrases

/-- A reader takes a phrase from the front of the tokens, or it fails. -/
def Takes (c : Category) (ts : List Token) (out : Expr × List Token) : Prop :=
  ∃ us, ts = us ++ out.2 ∧ PhraseOrFails c us out.1

/-- One case for each equation of the readers. A reader that goes on with `left` answers for the
tokens `before` that `left` was made of. -/
theorem takes_readSum (ts : List Token) : Takes .sum ts (readSum ts).out := by
  refine (readSum.mutual_induct
    (fun ts => Takes .sum ts (readSum ts).out)
    (fun left ts => ∀ before, PhraseOrFails .sum before left →
      Takes .sum (before ++ ts) (readSumRest left ts).out)
    (fun ts => Takes .product ts (readProduct ts).out)
    (fun left ts => ∀ before, PhraseOrFails .product before left →
      Takes .product (before ++ ts) (readProductRest left ts).out)
    (fun ts => Takes .factor ts (readFactor ts).out)
    ?sum ?sumRest ?sumEnds ?sumOther ?product ?productEnds ?productRest ?productOther
    ?number ?reference ?outside ?plus ?minus ?bracket ?unclosed ?stopped).1 ts
  case sum =>
    intro ts first ihFirst ihRest
    obtain ⟨us, taken, phrase⟩ := ihFirst
    have taken : us ++ first.rest = ts := taken.symm
    have later := ihRest us phrase.sum
    rw [taken] at later
    rw [readSum_of_product rfl]
    exact later
  case sumRest =>
    intro left op us additive right ihRight ihRest before phrase
    obtain ⟨vs, taken, phraseRight⟩ := ihRight
    have taken : vs ++ right.rest = us := taken.symm
    have later := ihRest _ (phrase.additive additive phraseRight)
    rw [List.append_assoc, List.cons_append, taken] at later
    rw [readSumRest_of_additive additive rfl]
    exact later
  case sumEnds =>
    intro left op us factor before phrase
    rw [readSumRest_of_factor factor]
    exact ⟨before, rfl, phrase⟩
  case sumOther =>
    intro left ts other before phrase
    rw [readSumRest_of_other other]
    exact ⟨before, rfl, phrase⟩
  case product =>
    intro ts first ihFirst ihRest
    obtain ⟨us, taken, phrase⟩ := ihFirst
    have taken : us ++ first.rest = ts := taken.symm
    have later := ihRest us phrase.product
    rw [taken] at later
    rw [readProduct_of_factor rfl]
    exact later
  case productEnds =>
    intro left op us additive before phrase
    rw [readProductRest_of_additive additive]
    exact ⟨before, rfl, phrase⟩
  case productRest =>
    intro left op us factor right ihRight ihRest before phrase
    obtain ⟨vs, taken, phraseRight⟩ := ihRight
    have taken : vs ++ right.rest = us := taken.symm
    have later := ihRest _ (phrase.multiplicative factor phraseRight)
    rw [List.append_assoc, List.cons_append, taken] at later
    rw [readProductRest_of_factor factor rfl]
    exact later
  case productOther =>
    intro left ts other before phrase
    rw [readProductRest_of_other other]
    exact ⟨before, rfl, phrase⟩
  case number =>
    intro value us
    rw [readFactor]
    exact ⟨[.number value], rfl, .inr ⟨_, .number, rfl⟩⟩
  case reference =>
    intro a us
    rw [readFactor]
    exact ⟨[.label (some a)], rfl, .inr ⟨_, .label, rfl⟩⟩
  case outside =>
    intro us
    rw [readFactor]
    exact ⟨[.label none], rfl, .inr ⟨_, .label, rfl⟩⟩
  case plus =>
    intro us ih
    obtain ⟨vs, taken, phrase⟩ := ih
    rw [readFactor_plus rfl]
    exact ⟨_, congrArg (List.cons _) taken, phrase.plus⟩
  case minus =>
    intro us ih
    obtain ⟨vs, taken, phrase⟩ := ih
    rw [readFactor_minus rfl]
    exact ⟨_, congrArg (List.cons _) taken, phrase.minus⟩
  case bracket =>
    intro us inner vs closed ih
    obtain ⟨inside, taken, phrase⟩ := ih
    have taken : us = inside ++ inner.rest := taken
    rw [closed] at taken
    rw [readFactor_bracket (Reading.out_eq_iff.mpr ⟨rfl, closed⟩)]
    refine ⟨_, ?_, phrase.bracket⟩
    rw [List.cons_append, List.append_assoc, List.singleton_append]
    exact congrArg (List.cons _) taken
  case unclosed =>
    intro us inner unclosed ih
    rw [readFactor_unclosed unclosed]
    exact ⟨_, (List.append_nil _).symm, .inl .broken⟩
  case stopped =>
    intro ts h₁ h₂ h₃ h₄ h₅ h₆
    rw [readFactor.eq_7 ts h₁ h₂ h₃ h₄ h₅ h₆]
    exact ⟨_, (List.append_nil _).symm, .inl .missing⟩

theorem ofTokens_phrase (ts : List Token) : PhraseOrFails .sum ts (ofTokens ts) := by
  obtain ⟨us, taken, phrase⟩ := takes_readSum ts
  unfold ofTokens
  by_cases whole : (readSum ts).rest.isEmpty = true
  · have rest : (readSum ts).out.2 = [] := List.isEmpty_iff.mp whole
    rw [rest, List.append_nil] at taken
    rw [if_pos whole]
    rw [← taken] at phrase
    exact phrase
  · rw [if_neg whole]
    exact .inl .broken

/-! ## Texts -/

theorem ofChars_of_writtenAs {cs : List Char} {f : Formula} (written : f.WrittenAs cs) :
    ofChars cs = f.toExpr :=
  ofTokens_of_derives (Formula.writtenAs_iff.mp written)

theorem fails_of_not_writtenAs {cs : List Char} (unwritten : ¬∃ f : Formula, f.WrittenAs cs) :
    (ofChars cs).Fails := by
  rcases ofTokens_phrase (Token.ofChars cs) with fails | ⟨f, derives, -⟩
  · exact fails
  · exact absurd ⟨f, Formula.writtenAs_iff.mpr derives⟩ unwritten

end Expr

end Worksheet
