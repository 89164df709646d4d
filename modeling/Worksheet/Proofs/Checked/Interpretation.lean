import Worksheet.Evaluation
import Worksheet.Proofs.Checked.Formulas

/-!
Evaluating while reading, against reading a tree first.

A reader of bytes and a reader of tokens go side by side (`Checked.Reads`): where the one stops, the tokens stand
that the other leaves, and the one comes to what the other's tree comes to.

* `Checked.interpret_eq`: a formula is evaluated as its tree is.
* `Checked.interpret_by_steps`: so it comes to what the steps of its phrase come to, or to an error if it is
  no phrase.
-/

namespace Worksheet.Checked

open Worksheet.Expr (readSum readSumRest readProduct readProductRest readFactor)
open Text (Bytes encodeChars)

/-! ## What trees come to -/

section Values

variable {m : Type → Type} [Monad m] (resolve : Address → m Outcome)

/-- What a tree comes to. -/
def value (e : Expr) : ExceptT CellError m Float := ExceptT.mk (e.evaluate resolve)

theorem value_negate (e : Expr) : value resolve (.negate e) = value resolve e >>= fun x => pure (-x) := by
  refine ExceptT.ext ?_
  rw [ExceptT.run_bind, value, ExceptT.run_mk, Expr.evaluate_negate]
  refine bind_congr fun outcome => ?_
  cases outcome <;> rfl

theorem value_binary (op : Operator) (left right : Expr) : value resolve (.binary op left right) =
    value resolve left >>= fun x => value resolve right >>= fun y => ExceptT.mk (pure (op.apply x y)) := by
  refine ExceptT.ext ?_
  rw [ExceptT.run_bind, value, ExceptT.run_mk, Expr.evaluate_binary]
  refine bind_congr fun outcome => ?_
  cases outcome with
  | error k => rfl
  | ok x =>
      dsimp only
      rw [ExceptT.run_bind]
      refine bind_congr fun outcome => ?_
      cases outcome <;> rfl

theorem value_broken (e : Expr) :
    value resolve (.broken e) = value resolve e >>= fun _ => throw .parse := by
  refine ExceptT.ext ?_
  rw [ExceptT.run_bind, value, ExceptT.run_mk, Expr.evaluate_broken]
  refine bind_congr fun outcome => ?_
  cases outcome <;> rfl

end Values

/-! ## Side by side -/

/-- The computation comes to what the tree comes to, and stops where the tokens left stand. -/
def Reads {m : Type → Type} [Monad m] (resolve : Address → m Outcome) (src : Bytes) (place : Nat)
    (x : ExceptT CellError m (Passed place)) (out : Expr × List Token) : Prop :=
  ∃ (stop : Nat) (le : place ≤ stop), Sees src stop out.2 ∧
    x = value resolve out.1 >>= fun v => pure ⟨v, stop, le⟩

section Rules

variable {m : Type → Type} [Monad m] {resolve : Address → m Outcome} {src : Bytes} {start place stop : Nat}
  {out : Expr × List Token} {tree left right : Expr} {ts : List Token} {op : Operator}
  {next : Float → (p : Nat) → ExceptT CellError m (Passed p)}

theorem Reads.ends (sees : Sees src place ts) : Reads resolve src place
    (value resolve left >>= fun x => pure ⟨x, blanksEnd src place, le_blanksEnd src place⟩) (left, ts) :=
  ⟨_, le_blanksEnd src place, sees.blanksEnd, rfl⟩

variable [LawfulMonad m]

theorem Reads.since {x : ExceptT CellError m (Passed place)} (reads : Reads resolve src place x out)
    (le : start ≤ place) : Reads resolve src start (x >>= fun r => pure (r.since le)) out := by
  obtain ⟨stop, placeLe, sees, rfl⟩ := reads
  refine ⟨stop, Nat.le_trans le placeLe, sees, ?_⟩
  rw [bind_assoc]
  simp only [pure_bind]
  rfl

/-- Once reading breaks off, it is as well to have stopped at the end. -/
theorem Reads.broken {α : Type} {x : ExceptT CellError m α} (sees : Sees src place ts)
    (fails : value resolve tree = x >>= fun _ => throw .parse) :
    Reads resolve src place (x >>= fun _ => throw .parse) (tree, []) := by
  refine ⟨src.length, sees.place_le, sees_nothing src, ?_⟩
  rw [fails, bind_assoc]
  simp only [ExceptT.bind_throw]

theorem reads_missing (sees : Sees src place ts) : Reads resolve src place (throw .parse) (.missing, []) :=
  ⟨src.length, sees.place_le, sees_nothing src, (ExceptT.bind_throw _).symm⟩

/-- A reader, and then the one that goes on from where it stops. -/
theorem Reads.chain {first : ExceptT CellError m (Passed place)} (reads : Reads resolve src place first (tree, ts))
    (later : ∀ stop, Sees src stop ts →
      Reads resolve src stop (value resolve tree >>= fun x => next x stop) out) :
    Reads resolve src place
      (first >>= fun f => next f.value f.stop >>= fun r => pure (r.since f.place_le)) out := by
  obtain ⟨stop, le, sees, rfl⟩ := reads
  have goesOn := (later stop sees).since le
  rw [bind_assoc] at goesOn ⊢
  simp only [pure_bind]
  exact goesOn

/-- What stands in front of an operator, the operand behind it, and then the one that goes on. -/
theorem Reads.operate {operand : ExceptT CellError m (Passed stop)} (le : place ≤ stop)
    (reads : Reads resolve src stop operand (right, ts))
    (later : ∀ stop, Sees src stop ts →
      Reads resolve src stop (value resolve (.binary op left right) >>= fun x => next x stop) out) :
    Reads resolve src place (value resolve left >>= fun x => operand >>= fun y =>
      ExceptT.mk (pure (op.apply x y.value)) >>= fun z =>
        next z y.stop >>= fun r => pure (r.since (Nat.le_trans le y.place_le))) out := by
  obtain ⟨behind, further, sees, rfl⟩ := reads
  have goesOn := (later behind sees).since (Nat.le_trans le further)
  rw [value_binary] at goesOn
  simp only [bind_assoc, pure_bind] at goesOn ⊢
  exact goesOn

end Rules

/-! ## Operands -/

section Operands

variable {m : Type → Type} [Monad m] [MonadLiftT Checked m] {resolve : Address → m Outcome} {src : Bytes}
  {place : Nat} {c : Char} {cs back : List Char} {ts : List Token}

theorem reads_number {n : Numeral} {rest : List Char} (standing : At src place back)
    (scanned : Numeral.scan back = some (n, rest)) :
    Reads resolve src place (number src place) (readFactor (.number n.value :: Token.ofChars rest)).out := by
  have bytes := Numeral.scan_latin_encodeChars back
  rw [scanned, ← standing.drop_eq] at bytes
  obtain ⟨stop, longest, conserves, -, ran⟩ := scanNumber_of_some bytes
  obtain ⟨text, -, rfl⟩ := Numeral.writtenAs_of_scan scanned
  have behind : At src stop rest := by
    have place : stop = place + (encodeChars text).length := by
      rw [standing.drop_eq, Text.length_latin, Text.length_latin, Text.encodeChars_append,
        List.length_append] at conserves
      omega
    rw [place]
    exact standing.behind
  rw [Expr.readFactor_number]
  refine ⟨stop, longest.isAt.start_le, ⟨rest, behind, rfl⟩, ?_⟩
  unfold number
  split
  · next failed => cases ran.symm.trans failed
  · next failed => cases ran.symm.trans failed
  · next again =>
      cases ran.symm.trans again
      rfl

theorem number_of_failed (standing : At src place back) (failed : Numeral.scan back = none) :
    (number src place : ExceptT CellError m (Passed place)) = throw .parse := by
  have bytes := Numeral.scan_latin_encodeChars back
  rw [failed, ← standing.drop_eq] at bytes
  have ran := (scanNumber_of_none bytes).2.2
  unfold number
  split
  · next fault => cases ran.symm.trans fault
  · rfl
  · next found => cases ran.symm.trans found

theorem operand_of_beyond (inside : place < src.length)
    (beyond : 0x80 ≤ (Char.ofNat src[place].toNat).toNat) : operand resolve src place = throw .parse := by
  have notAlpha : ¬ (Char.ofNat src[place].toNat).isAlpha = true := fun alpha =>
    Nat.not_lt.mpr beyond (ascii_of_isAlpha alpha)
  have notOpening : ¬ ((Char.ofNat src[place].toNat).isDigit = true ∨ Char.ofNat src[place].toNat = '.') := by
    rintro (digit | point)
    · exact Nat.not_lt.mpr beyond (ascii_of_isDigit digit)
    · rw [point] at beyond
      exact absurd beyond (by decide)
  rw [operand, List.getElem?_eq_getElem inside, Option.map_some]
  dsimp only
  rw [if_neg notAlpha, if_neg notOpening]

variable [LawfulMonad m] [LawfulMonadLiftT Checked m]

theorem liftM_ok {α : Type} (r : α) : (liftM (Except.ok r : Checked α) : ExceptT CellError m α) = pure r :=
  liftM_pure r

theorem reads_reference (standing : At src place (c :: cs)) (alpha : c.isAlpha = true)
    (digits : cs.takeWhile Char.isDigit ≠ []) :
    Reads resolve src place (reference resolve src c place) (readFactor
      (.label (Address.ofParts? c (cs.takeWhile Char.isDigit)) ::
        Token.ofChars (cs.dropWhile Char.isDigit))).out := by
  obtain ⟨ends, bytes, behind⟩ := standing.digits alpha
  obtain ⟨column, found⟩ := Address.columnOfLetter?_of_isAlpha alpha
  have some : digitsEnd src (place + 1) ≠ place + 1 := by
    have some := List.length_pos_iff.mpr digits
    omega
  rw [Expr.readFactor_label]
  refine ⟨_, Nat.le_of_succ_le (le_digitsEnd src (place + 1)), ⟨_, behind, rfl⟩, ?_⟩
  rw [reference, column?_eq, found, Option.map_some, liftM_ok, pure_bind]
  dsimp only
  rw [if_neg some, bytes, liftM_ok, pure_bind, Text.decode?_encode]
  dsimp only
  rw [String.toList_ofList, row?_eq, Address.ofParts?, found]
  cases Address.rowOfDigits? (cs.takeWhile Char.isDigit) with
  | none => exact (ExceptT.bind_throw _).symm
  | some row =>
      rw [Option.map_some]
      dsimp only
      rw [locate_of_lt row.isLt column.isLt, liftM_ok, pure_bind]
      rfl

theorem reference_of_bare (standing : At src place (c :: cs)) (alpha : c.isAlpha = true)
    (bare : cs.takeWhile Char.isDigit = []) : reference resolve src c place = throw .parse := by
  obtain ⟨ends, -⟩ := standing.digits alpha
  obtain ⟨column, found⟩ := Address.columnOfLetter?_of_isAlpha alpha
  rw [bare, List.length_nil, Nat.add_zero] at ends
  rw [reference, column?_eq, found, Option.map_some, liftM_ok, pure_bind]
  exact if_pos ends

/-- What stands at the place is read as the reader of tokens reads it. -/
theorem reads_operand (standing : At src place back) (front : Operand back ts) :
    Reads resolve src place (operand resolve src place) (readFactor ts).out := by
  have sees : Sees src place (Token.ofChars back) := ⟨back, standing, rfl⟩
  cases back with
  | nil =>
      cases front
      have outside : src[place]? = none := List.getElem?_eq_none standing.eq_length.ge
      rw [operand, outside, Expr.readFactor_nil]
      exact reads_missing sees
  | cons c cs =>
      obtain ⟨inside, ⟨same, -⟩ | ⟨low, beyond⟩⟩ := standing.cons
      · rw [operand, List.getElem?_eq_getElem inside, Option.map_some, same]
        dsimp only
        cases front with
        | label alpha digits =>
            rw [if_pos alpha]
            exact reads_reference standing alpha digits
        | number notAlpha scanned =>
            rw [if_neg notAlpha, if_pos (Token.opens_of_scan scanned)]
            exact reads_number standing scanned
        | letter alpha digits =>
            rw [if_pos alpha, Expr.readFactor_stray, reference_of_bare standing alpha digits]
            exact reads_missing sees
        | stray notAlpha failed =>
            rw [if_neg notAlpha, Expr.readFactor_stray, number_of_failed standing failed, ite_self]
            exact reads_missing sees
      · rw [operand_of_beyond inside beyond]
        cases front with
        | label alpha | letter alpha => exact absurd (ascii_of_isAlpha alpha) (Nat.not_lt.mpr low)
        | number notAlpha scanned =>
            rcases Token.opens_of_scan scanned with digit | rfl
            · exact absurd (ascii_of_isDigit digit) (Nat.not_lt.mpr low)
            · exact absurd low (by decide)
        | stray notAlpha failed =>
            rw [Expr.readFactor_stray]
            exact reads_missing sees

end Operands

/-! ## Readers -/

section Readers

variable {m : Type → Type} [Monad m] [LawfulMonad m] [MonadLiftT Checked m] {resolve : Address → m Outcome}
  {src : Bytes} {place : Nat} {ts : List Token}

/-- Reading and evaluating both break off at a symbol that begins no factor. -/
theorem reads_of_symbol {t : Token} {us : List Token} (sees : Sees src place (t :: us)) (symbol : t.IsSymbol)
    (missing : (readFactor (t :: us)).out = (.missing, []))
    (fails : ∀ {stop within}, symbol? src place = some ⟨t, stop, within⟩ →
      interpretFactor resolve src place = throw .parse) :
    Reads resolve src place (interpretFactor resolve src place) (readFactor (t :: us)).out := by
  obtain ⟨stop, within, found, -⟩ := sees.symbol? symbol
  rw [missing, fails found]
  exact reads_missing sees

variable [LawfulMonadLiftT Checked m]

theorem reads_interpretFactor (sees : Sees src place ts) (noSymbol : ∀ t ∈ ts.head?, ¬ t.IsSymbol) :
    Reads resolve src place (interpretFactor resolve src place) (readFactor ts).out := by
  cases sees.front with
  | symbol symbol => exact absurd symbol (noSymbol _ rfl)
  | operand none standing front =>
      rw [interpretFactor, none]
      exact (reads_operand standing front).since (le_blanksEnd src place)

/-- One case for each equation of the readers of tokens. A reader that goes on with `left` is given what
`left` comes to. -/
theorem reads_readSum (resolve : Address → m Outcome) (src : Bytes) (ts : List Token) : ∀ place,
    Sees src place ts → Reads resolve src place (interpretSum resolve src place) (readSum ts).out := by
  refine (Expr.readSum.mutual_induct
    (fun ts => ∀ place, Sees src place ts →
      Reads resolve src place (interpretSum resolve src place) (readSum ts).out)
    (fun left ts => ∀ place, Sees src place ts → Reads resolve src place
      (value resolve left >>= fun x => interpretSumRest resolve src x place) (readSumRest left ts).out)
    (fun ts => ∀ place, Sees src place ts →
      Reads resolve src place (interpretProduct resolve src place) (readProduct ts).out)
    (fun left ts => ∀ place, Sees src place ts → Reads resolve src place
      (value resolve left >>= fun x => interpretProductRest resolve src x place) (readProductRest left ts).out)
    (fun ts => ∀ place, Sees src place ts →
      Reads resolve src place (interpretFactor resolve src place) (readFactor ts).out)
    ?sum ?sumRest ?sumEnds ?sumOther ?product ?productEnds ?productRest ?productOther
    ?number ?reference ?outside ?plus ?minus ?bracket ?unclosed ?stopped).1 ts
  case sum =>
    intro ts first ihFirst ihRest place sees
    rw [Expr.readSum_of_product rfl, interpretSum]
    exact (ihFirst place sees).chain ihRest
  case sumRest =>
    intro left op us additive right ihRight ihRest place sees
    obtain ⟨stop, within, found, behind⟩ := sees.symbol? trivial
    rw [Expr.readSumRest_of_additive additive rfl]
    simp only [interpretSumRest_of_additive _ found additive]
    exact (ihRight stop behind).operate (Nat.le_of_lt within.1) ihRest
  case sumEnds =>
    intro left op us factor place sees
    have ends : ∀ other vs, Token.operator op :: us = .operator other :: vs → ¬ other.isAdditive = true := by
      rintro other vs ⟨⟩
      exact factor
    rw [Expr.readSumRest_of_factor factor]
    simp only [interpretSumRest_of_other _ (sees.forall_operator ends)]
    exact .ends sees
  case sumOther =>
    intro left ts other place sees
    rw [Expr.readSumRest_of_other other]
    simp only [interpretSumRest_of_other _ (sees.forall_operator fun op us same => (other op us same).elim)]
    exact .ends sees
  case product =>
    intro ts first ihFirst ihRest place sees
    rw [Expr.readProduct_of_factor rfl, interpretProduct]
    exact (ihFirst place sees).chain ihRest
  case productEnds =>
    intro left op us additive place sees
    have ends : ∀ other vs, Token.operator op :: us = .operator other :: vs → other.isAdditive = true := by
      rintro other vs ⟨⟩
      exact additive
    rw [Expr.readProductRest_of_additive additive]
    simp only [interpretProductRest_of_other _ (sees.forall_operator ends)]
    exact .ends sees
  case productRest =>
    intro left op us factor right ihRight ihRest place sees
    obtain ⟨stop, within, found, behind⟩ := sees.symbol? trivial
    rw [Expr.readProductRest_of_factor factor rfl]
    simp only [interpretProductRest_of_factor _ found factor]
    exact (ihRight stop behind).operate (Nat.le_of_lt within.1) ihRest
  case productOther =>
    intro left ts other place sees
    rw [Expr.readProductRest_of_other other]
    simp only [interpretProductRest_of_other _ (sees.forall_operator fun op us same => (other op us same).elim)]
    exact .ends sees
  case number =>
    intro value us place sees
    exact reads_interpretFactor sees (by simp [Token.IsSymbol])
  case reference =>
    intro a us place sees
    exact reads_interpretFactor sees (by simp [Token.IsSymbol])
  case outside =>
    intro us place sees
    exact reads_interpretFactor sees (by simp [Token.IsSymbol])
  case plus =>
    intro us ih place sees
    obtain ⟨stop, within, found, behind⟩ := sees.symbol? trivial
    rw [Expr.readFactor_plus rfl, interpretFactor, found]
    exact (ih stop behind).since (Nat.le_of_lt within.1)
  case minus =>
    intro us ih place sees
    obtain ⟨stop, within, found, behind⟩ := sees.symbol? trivial
    obtain ⟨last, le, later, ran⟩ := ih stop behind
    rw [Expr.readFactor_minus rfl, interpretFactor, found]
    refine ⟨last, Nat.le_trans (Nat.le_of_lt within.1) le, later, ?_⟩
    rw [value_negate]
    dsimp only
    rw [ran]
    simp only [bind_assoc, pure_bind]
    rfl
  case bracket =>
    intro us inner vs closed ih place sees
    obtain ⟨stop, within, found, behind⟩ := sees.symbol? trivial
    obtain ⟨last, le, later, ran⟩ := ih stop behind
    have later : Sees src last inner.rest := later
    rw [closed] at later
    -- where the sum in brackets stops, its closing bracket is met
    obtain ⟨close, further, closing, later⟩ := later.symbol? trivial
    rw [Expr.readFactor_bracket (Reading.out_eq_iff.mpr ⟨rfl, closed⟩), interpretFactor, found]
    refine ⟨close, ?_, later, ?_⟩
    · omega
    · dsimp only
      rw [ran, bind_assoc]
      simp only [pure_bind, closing]
      rfl
  case unclosed =>
    intro us inner unclosed ih place sees
    obtain ⟨stop, within, found, behind⟩ := sees.symbol? trivial
    obtain ⟨last, le, later, ran⟩ := ih stop behind
    have later : Sees src last inner.rest := later
    rw [Expr.readFactor_unclosed unclosed, interpretFactor, found]
    dsimp only
    rw [ran, bind_assoc]
    simp only [pure_bind]
    -- the sum has been evaluated by now, and whatever stands behind it is an error
    rcases symbol : symbol? src last with _ | ⟨t, close, further⟩
    · exact .broken sees (value_broken resolve _)
    · obtain ⟨vs, rest⟩ := later.of_symbol? symbol
      cases t with
      | closing => exact (unclosed vs rest).elim
      | _ => exact .broken sees (value_broken resolve _)
  case stopped =>
    intro ts h₁ h₂ h₃ h₄ h₅ h₆ place sees
    have missing : (readFactor ts).out = (.missing, []) := by
      rw [Expr.readFactor.eq_7 ts h₁ h₂ h₃ h₄ h₅ h₆]
      rfl
    cases ts with
    | nil => exact reads_interpretFactor sees (by simp)
    | cons t us =>
        cases t with
        | number value => exact absurd rfl (h₁ value us)
        | label a =>
            cases a with
            | none => exact absurd rfl (h₃ us)
            | some a => exact absurd rfl (h₂ a us)
        | stray => exact reads_interpretFactor sees (by simp [Token.IsSymbol])
        | opening => exact absurd rfl (h₆ us)
        | closing => exact reads_of_symbol sees trivial missing fun found => by rw [interpretFactor, found]
        | operator op =>
            cases op with
            | add => exact absurd rfl (h₄ us)
            | subtract => exact absurd rfl (h₅ us)
            | multiply | divide =>
                exact reads_of_symbol sees trivial missing fun found => by rw [interpretFactor, found]

/-! ## Whole formulas -/

/-- Evaluating a formula while it is read is evaluating its tree. -/
theorem interpret_eq (resolve : Address → m Outcome) (s : String) :
    interpret resolve (Text.encode s) = (Expr.ofChars s.toList).evaluate resolve := by
  rw [Text.encode_eq]
  have sees : Sees (encodeChars s.toList) 0 (Token.ofChars s.toList) :=
    ⟨s.toList, ⟨rfl, Nat.zero_le _⟩, rfl⟩
  obtain ⟨stop, le, later, ran⟩ := reads_readSum resolve _ _ 0 sees
  have whole := later.blanksEnd_eq_length_iff
  rw [interpret, ran, Expr.ofChars, Expr.ofTokens, bind_assoc]
  simp only [pure_bind]
  by_cases nothing : (readSum (Token.ofChars s.toList)).rest = []
  · rw [if_pos (List.isEmpty_iff.mpr nothing)]
    simp only [if_pos (whole.mpr nothing), bind_pure]
    rfl
  · rw [if_neg (nothing ∘ List.isEmpty_iff.mp)]
    simp only [if_neg (nothing ∘ whole.mp)]
    exact congrArg ExceptT.run (value_broken resolve _).symm

end Readers

/-- A text of the grammar comes to what the steps of its formula come to: the outcome is the same, and so is
whatever the resolver does, in the same order. Any other text is an error. Either way the reader does what
evaluating the tree of the text does, and so what settling a cell with this formula does. -/
theorem interpret_by_steps {m : Type → Type} [Monad m] [LawfulMonad m] [MonadLiftT Checked m]
    [LawfulMonadLiftT Checked m] (resolve : Address → m Outcome) (s : String) :
    (∀ f : Formula, f.WrittenAs s.toList →
      interpret resolve (Text.encode s) = Step.run resolve f.steps []) ∧
    ((¬∃ f : Formula, f.WrittenAs s.toList) →
      ∃ k : m CellError, interpret resolve (Text.encode s) = Except.error <$> k) ∧
    interpret resolve (Text.encode s) = (Expr.ofChars s.toList).evaluate resolve ∧
    ∀ text : CellText, text.content = .formula s.toList →
      Records.outcomeOf resolve text = interpret resolve (Text.encode s) := by
  obtain ⟨written, unwritten⟩ := Expr.evaluate_ofChars resolve s.toList
  rw [interpret_eq]
  refine ⟨written, unwritten, rfl, fun text formula => ?_⟩
  rw [Records.outcomeOf, formula]

/-- `-A1 /b101` asks for one cell and ends at the row outside the grid; `A+1` is no formula. -/
theorem interpret_by_steps_outside :
    let asking (a : Address) : StateT (List Address) Checked Outcome := do
      modify (· ++ [a])
      return .ok 1
    (interpret asking (Text.encode "-A1 /b101")).run [] =
        .ok (.error .badReference, [⟨⟨0, by decide⟩, ⟨0, by decide⟩⟩]) ∧
      ∃ k : StateT (List Address) Checked CellError,
        interpret asking (Text.encode "A+1") = Except.error <$> k := by
  intro asking
  constructor
  · have inside : Lexeme (.label (some ⟨⟨0, by decide⟩, ⟨0, by decide⟩⟩)) ['A', '1'] :=
      .inside (.inl rfl) nofun (by decide) rfl
    have outside : Lexeme (.label none) ['b', '1', '0', '1'] :=
      .outside rfl nofun (by decide) (by decide)
    have spelling : Spelling _ ['-', 'A', '1', ' ', '/', 'b', '1', '0', '1'] :=
      .of_lexeme .subtract <| .of_lexeme inside <|
        @Spelling.token _ _ [' '] ['/'] _ (by decide) .divide <|
        .of_lexeme outside <| .done nofun
    have numerator := @Derives.label (some ⟨⟨0, by decide⟩, ⟨0, by decide⟩⟩)
    have derives := Derives.product <|
      .times (.factor (.minus numerator)) (.inr rfl) (@Derives.label none)
    have same := (interpret_by_steps asking "-A1 /b101").1 _ ⟨_, spelling, derives⟩
    exact congrArg (·.run []) same
  · refine (interpret_by_steps asking "A+1").2.1 ?_
    rintro ⟨f, written⟩
    have noStray := (Formula.writtenAs_iff.mp written).stray_not_mem
    have split : "A+1".toList = ['A', '+', '1'] := by decide
    rw [split, Token.ofChars] at noStray
    exact noStray List.mem_cons_self

end Worksheet.Checked
