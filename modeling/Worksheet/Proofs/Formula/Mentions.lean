import Worksheet.Proofs.Formula.Reading

/-!
The cells that a formula's text mentions.

A text mentions a cell if somewhere in it stands a letter that, with all the digits behind it, is the
cell's label. `Expr.mentions_of_mem_references` says that a formula refers to no other cells: each
reference comes from a token, and each token from a place in the text. What refers to a cell only within
its references is evaluated alike by two resolvers that agree on these (`Expr.evaluate_congr`), and
whatever holds of the answers for these holds of the whole evaluation (`Expr.evaluate_closed`).
-/

namespace Worksheet

/-! ## Labels in a text -/

/-- A label of the cell stands at the front of the text or further on. The digits of a label are all
that follow its letter. -/
inductive Mentions (a : Address) : List Char → Prop
  | front {letter : Char} {digits cs : List Char} :
    letter = Address.columnLetter a.column ∨ letter = (Address.columnLetter a.column).toLower →
    Numeral.AllDigits digits → (∀ c, cs.head? = some c → c.isDigit = false) →
    Nat.ofDigitChars 10 digits 0 = a.row + 1 → Mentions a (letter :: (digits ++ cs))
  | later {c : Char} {cs : List Char} : Mentions a cs → Mentions a (c :: cs)

namespace Mentions

variable {a : Address} {c letter : Char} {cs : List Char}

theorem of_ofParts?
    (parts : Address.ofParts? letter (cs.takeWhile Char.isDigit) = some a) :
    Mentions a (letter :: cs) := by
  obtain ⟨column, row⟩ := Address.ofParts?_eq_some_iff.mp parts
  have ends : ∀ c, (cs.dropWhile Char.isDigit).head? = some c → c.isDigit = false := by
    intro c first
    have stops := List.head?_dropWhile_not Char.isDigit cs
    rwa [first] at stops
  have front := Mentions.front (Address.columnOfLetter?_eq_some_iff.mp column)
    (Numeral.allDigits_takeWhile cs) ends (Address.rowOfDigits?_eq_some_iff.mp row)
  rwa [List.takeWhile_append_dropWhile] at front

theorem cons_iff : Mentions a (c :: cs) ↔
    Address.ofParts? c (cs.takeWhile Char.isDigit) = some a ∨ Mentions a cs := by
  constructor
  · intro mentions
    generalize whole : c :: cs = text at mentions
    cases mentions with
    | @front letter digits rest column all ends row =>
        obtain ⟨rfl, rfl⟩ := List.cons.inj whole
        rw [Numeral.takeWhile_digits all ends]
        exact .inl (Address.ofParts?_eq_some_iff.mpr
          ⟨Address.columnOfLetter?_eq_some_iff.mpr column, Address.rowOfDigits?_eq_some_iff.mpr row⟩)
    | later mentions =>
        obtain ⟨rfl, rfl⟩ := List.cons.inj whole
        exact .inr mentions
  · rintro (parts | mentions)
    · exact .of_ofParts? parts
    · exact .later mentions

theorem append_left (before : List Char) (mentions : Mentions a cs) : Mentions a (before ++ cs) := by
  induction before with
  | nil => exact mentions
  | cons c before ih => exact .later ih

end Mentions

/-- The cells that a text mentions, in order. -/
def mentioned : List Char → List Address
  | [] => []
  | c :: cs => (Address.ofParts? c (cs.takeWhile Char.isDigit)).toList ++ mentioned cs

theorem mem_mentioned_iff {a : Address} {cs : List Char} : a ∈ mentioned cs ↔ Mentions a cs := by
  induction cs with
  | nil => exact iff_of_false List.not_mem_nil nofun
  | cons c cs ih => rw [mentioned, List.mem_append, Option.mem_toList, Mentions.cons_iff, ih]

instance (a : Address) (cs : List Char) : Decidable (Mentions a cs) :=
  decidable_of_iff _ mem_mentioned_iff

/-! ## Labels among the tokens -/

namespace Token

theorem ofSymbol?_ne_label (c : Char) (label : Option Address) : ofSymbol? c ≠ some (.label label) := by
  unfold ofSymbol?
  split <;> nofun

/-- The induction is that of the splitting. Where it goes on behind a label or a number, what it goes
on with is the end of the text. -/
theorem mentions_of_mem_ofChars {a : Address} {cs : List Char}
    (label : .label (some a) ∈ ofChars cs) : Mentions a cs := by
  induction cs using ofChars.induct with
  | case1 =>
      rw [ofChars] at label
      cases label
  | case2 c cs blank ih =>
      rw [ofChars, if_pos blank] at label
      exact .later (ih label)
  | case3 c cs plain t symbol ih =>
      rw [ofChars_of_symbol plain symbol] at label
      rcases List.mem_cons.mp label with rfl | label
      · exact absurd symbol (ofSymbol?_ne_label c _)
      · exact .later (ih label)
  | case4 c cs plain symbol alpha empty ih =>
      rw [ofChars, if_neg plain, symbol] at label
      dsimp only at label
      rw [if_pos alpha, if_pos empty] at label
      rcases List.mem_cons.mp label with stray | label
      · cases stray
      · exact .later (ih label)
  | case5 c cs plain symbol alpha nonempty ih =>
      rw [ofChars, if_neg plain, symbol] at label
      dsimp only at label
      rw [if_pos alpha, if_neg nonempty] at label
      rcases List.mem_cons.mp label with here | label
      · exact .of_ofParts? (Token.label.inj here).symm
      · have behind := (ih label).append_left (cs.takeWhile Char.isDigit)
        rw [List.takeWhile_append_dropWhile] at behind
        exact .later behind
  | case6 c cs plain symbol notAlpha n rest scanned ih =>
      obtain ⟨text, -, split⟩ := Numeral.writtenAs_of_scan scanned
      rw [ofChars_of_scan scanned] at label
      rcases List.mem_cons.mp label with number | label
      · cases number
      · rw [split]
        exact (ih label).append_left text
  | case7 c cs plain symbol notAlpha failed ih =>
      rw [ofChars, if_neg plain, symbol] at label
      dsimp only at label
      rw [if_neg notAlpha] at label
      split at label
      · next scanned =>
          rw [failed] at scanned
          cases scanned
      · rcases List.mem_cons.mp label with stray | label
        · cases stray
        · exact .later (ih label)

end Token

/-! ## References of a tree -/

namespace Expr

/-- The cells that a tree refers to, from left to right. -/
def references : Expr → List Address
  | number _ | outside | missing => []
  | reference a => [a]
  | negate operand => operand.references
  | binary _ left right => left.references ++ right.references
  | broken tree => tree.references

/-- Every reference is to a cell with a property. -/
def RefersWithin (P : Address → Prop) (e : Expr) : Prop := ∀ a ∈ e.references, P a

/-- Every label in the grid names a cell with a property. -/
def LabelsWithin (P : Address → Prop) (ts : List Token) : Prop := ∀ a, .label (some a) ∈ ts → P a

section Reading

variable {P : Address → Prop} {left right : Expr} {op : Operator} {t : Token} {ts : List Token}

theorem RefersWithin.binary (withinLeft : left.RefersWithin P) (withinRight : right.RefersWithin P) :
    (binary op left right).RefersWithin P := by
  intro a member
  rcases List.mem_append.mp member with member | member
  · exact withinLeft a member
  · exact withinRight a member

theorem refersWithin_of_none {e : Expr} (none : e.references = []) : e.RefersWithin P := by
  intro a member
  rw [none] at member
  exact absurd member List.not_mem_nil

theorem labelsWithin_nil : LabelsWithin P [] :=
  fun _ label => absurd label List.not_mem_nil

theorem LabelsWithin.tail (within : LabelsWithin P (t :: ts)) : LabelsWithin P ts :=
  fun a label => within a (List.mem_cons_of_mem t label)

/-- What a reader makes of tokens refers to their labels only, and leaves some of the tokens. A reader
that goes on with `left` adds to the references of `left`. -/
theorem refersWithin_readSum (within : LabelsWithin P ts) :
    (readSum ts).tree.RefersWithin P ∧ LabelsWithin P (readSum ts).rest := by
  let Goal (out : Expr × List Token) : Prop := out.1.RefersWithin P ∧ LabelsWithin P out.2
  suffices goal : LabelsWithin P ts → Goal (readSum ts).out from goal within
  refine (readSum.mutual_induct
    (fun ts => LabelsWithin P ts → Goal (readSum ts).out)
    (fun left ts => left.RefersWithin P → LabelsWithin P ts → Goal (readSumRest left ts).out)
    (fun ts => LabelsWithin P ts → Goal (readProduct ts).out)
    (fun left ts => left.RefersWithin P → LabelsWithin P ts → Goal (readProductRest left ts).out)
    (fun ts => LabelsWithin P ts → Goal (readFactor ts).out)
    ?sum ?sumRest ?sumEnds ?sumOther ?product ?productEnds ?productRest ?productOther
    ?number ?reference ?outside ?plus ?minus ?bracket ?unclosed ?stopped).1 ts
  case sum =>
    intro ts first ihFirst ihRest within
    obtain ⟨tree, rest⟩ := ihFirst within
    rw [readSum_of_product rfl]
    exact ihRest tree rest
  case sumRest =>
    intro left op us additive right ihRight ihRest refers within
    obtain ⟨tree, rest⟩ := ihRight within.tail
    rw [readSumRest_of_additive additive rfl]
    exact ihRest (refers.binary tree) rest
  case sumEnds =>
    intro left op us factor refers within
    rw [readSumRest_of_factor factor]
    exact ⟨refers, within⟩
  case sumOther =>
    intro left ts other refers within
    rw [readSumRest_of_other other]
    exact ⟨refers, within⟩
  case product =>
    intro ts first ihFirst ihRest within
    obtain ⟨tree, rest⟩ := ihFirst within
    rw [readProduct_of_factor rfl]
    exact ihRest tree rest
  case productEnds =>
    intro left op us additive refers within
    rw [readProductRest_of_additive additive]
    exact ⟨refers, within⟩
  case productRest =>
    intro left op us factor right ihRight ihRest refers within
    obtain ⟨tree, rest⟩ := ihRight within.tail
    rw [readProductRest_of_factor factor rfl]
    exact ihRest (refers.binary tree) rest
  case productOther =>
    intro left ts other refers within
    rw [readProductRest_of_other other]
    exact ⟨refers, within⟩
  case number =>
    intro value us within
    rw [readFactor]
    exact ⟨refersWithin_of_none rfl, within.tail⟩
  case reference =>
    intro a us within
    rw [readFactor]
    refine ⟨fun b member => ?_, within.tail⟩
    cases List.mem_singleton.mp member
    exact within a List.mem_cons_self
  case outside =>
    intro us within
    rw [readFactor]
    exact ⟨refersWithin_of_none rfl, within.tail⟩
  case plus =>
    intro us ih within
    rw [readFactor_plus rfl]
    exact ih within.tail
  case minus =>
    intro us ih within
    rw [readFactor_minus rfl]
    exact ih within.tail
  case bracket =>
    intro us inner vs closed ih within
    obtain ⟨tree, rest⟩ := ih within.tail
    rw [readFactor_bracket (Reading.out_eq_iff.mpr ⟨rfl, closed⟩)]
    refine ⟨tree, ?_⟩
    have rest : LabelsWithin P inner.rest := rest
    rw [closed] at rest
    exact rest.tail
  case unclosed =>
    intro us inner unclosed ih within
    rw [readFactor_unclosed unclosed]
    exact ⟨(ih within.tail).1, labelsWithin_nil⟩
  case stopped =>
    intro ts h₁ h₂ h₃ h₄ h₅ h₆ within
    rw [readFactor.eq_7 ts h₁ h₂ h₃ h₄ h₅ h₆]
    exact ⟨refersWithin_of_none rfl, labelsWithin_nil⟩

end Reading

theorem mentions_of_mem_references {a : Address} {cs : List Char}
    (member : a ∈ (ofChars cs).references) : Mentions a cs := by
  have within : LabelsWithin (Mentions · cs) (Token.ofChars cs) :=
    fun a label => Token.mentions_of_mem_ofChars label
  have refers := (refersWithin_readSum within).1
  unfold ofChars ofTokens at member
  dsimp only at member
  split at member
  · exact refers a member
  · exact refers a member

/-! ## What an evaluation rests on -/

section Evaluation

variable {m : Type → Type} [Monad m]

/-- Only the answers for the references matter. -/
theorem evaluate_congr {resolve other : Address → m Outcome} {e : Expr}
    (agree : ∀ a ∈ e.references, resolve a = other a) : e.evaluate resolve = e.evaluate other := by
  induction e with
  | number | outside | missing => rfl
  | reference a => exact agree a (List.mem_singleton_self a)
  | negate operand ih => rw [evaluate_negate, evaluate_negate, ih agree]
  | binary op left right ihLeft ihRight =>
      rw [evaluate_binary, evaluate_binary,
        ihLeft fun a member => agree a (List.mem_append_left _ member),
        ihRight fun a member => agree a (List.mem_append_right _ member)]
  | broken tree ih => rw [evaluate_broken, evaluate_broken, ih agree]

/-- Two evaluations are alike, in any sense in which answering without effect is alike and which going on
keeps, if the answers for the references are alike. -/
theorem evaluate_related {n : Type → Type} [Monad n] {Alike : m Outcome → n Outcome → Prop}
    (alikePure : ∀ o, Alike (pure o) (pure o))
    (alikeBind : ∀ x y f g, Alike x y → (∀ o, Alike (f o) (g o)) → Alike (x >>= f) (y >>= g))
    {resolve : Address → m Outcome} {other : Address → n Outcome} {e : Expr}
    (answers : ∀ a ∈ e.references, Alike (resolve a) (other a)) :
    Alike (e.evaluate resolve) (e.evaluate other) := by
  induction e with
  | number | outside | missing => exact alikePure _
  | reference a => exact answers a (List.mem_singleton_self a)
  | negate operand ih =>
      rw [evaluate_negate, evaluate_negate]
      exact alikeBind _ _ _ _ (ih answers) fun o => alikePure _
  | binary op left right ihLeft ihRight =>
      have answersLeft := ihLeft fun a member => answers a (List.mem_append_left _ member)
      have answersRight := ihRight fun a member => answers a (List.mem_append_right _ member)
      rw [evaluate_binary, evaluate_binary]
      refine alikeBind _ _ _ _ answersLeft fun o => ?_
      cases o with
      | error k => exact alikePure _
      | ok x => exact alikeBind _ _ _ _ answersRight fun o => alikePure _
  | broken tree ih =>
      rw [evaluate_broken, evaluate_broken]
      exact alikeBind _ _ _ _ (ih answers) fun o => alikePure _

/-- A property of computations that answering without effect has, and that going on keeps, holds of an
evaluation if it holds of the answers for the references. -/
theorem evaluate_closed {Holds : m Outcome → Prop} (holdsPure : ∀ o, Holds (pure o))
    (holdsBind : ∀ x f, Holds x → (∀ o, Holds (f o)) → Holds (x >>= f))
    {resolve : Address → m Outcome} {e : Expr} (answers : ∀ a ∈ e.references, Holds (resolve a)) :
    Holds (e.evaluate resolve) :=
  @evaluate_related m _ m _ (fun x _ => Holds x) holdsPure (fun x _ f _ => holdsBind x f) resolve resolve
    e answers

end Evaluation

end Expr

end Worksheet
