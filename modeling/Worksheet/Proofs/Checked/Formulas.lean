import Worksheet.Proofs.Checked.Numbers
import Worksheet.Proofs.Formula.Postorder

/-!
Formulas that are evaluated while their bytes are read.

No tree is made here. The readers of a sum, a product and a factor go from place to place in the bytes of a
formula, each gives the value of what it has read and the place behind it, and a cell is asked for as soon as its
reference has been read. The first error ends all of them (`Checked.interpret`). A reader stops no earlier than it
starts and calls itself only behind a symbol, so that reading ends.

What a reader meets at a place is told by the tokens of the text that stands from there on
(`Checked.Sees.front`).
-/

namespace Worksheet.Checked

open Text (Bytes encodeChars)

/-! ## The reader -/

/-- The place behind the blanks that stand from a place on. -/
def blanksEnd (src : Bytes) (place : Nat) : Nat :=
  runEnd (fun b => Text.isBlank (Char.ofNat b.toNat)) src place

theorem le_blanksEnd (src : Bytes) (place : Nat) : place ≤ blanksEnd src place :=
  le_runEnd _ src place

/-- An operator or a bracket with the blanks in front of it, and the place behind it. -/
structure Symbol (src : Bytes) (place : Nat) where
  token : Token
  stop : Nat
  within : place < stop ∧ stop ≤ src.length

/-- Passes over blanks and looks at the byte behind them. -/
def symbol? (src : Bytes) (place : Nat) : Option (Symbol src place) :=
  if inside : blanksEnd src place < src.length then
    (Token.ofSymbol? (Char.ofNat src[blanksEnd src place].toNat)).map fun token =>
      ⟨token, blanksEnd src place + 1, Nat.lt_succ_of_le (le_blanksEnd src place), inside⟩
  else none

/-- A value, and the place behind what it was read from. -/
structure Passed (place : Nat) where
  value : Float
  stop : Nat
  place_le : place ≤ stop

/-- The same, read from an earlier place on. -/
def Passed.since {start place : Nat} (passed : Passed place) (le : start ≤ place) : Passed start :=
  ⟨passed.value, passed.stop, Nat.le_trans le passed.place_le⟩

theorem le_of_scanNumber {src : Bytes} {place stop : Nat} {v : Float}
    (scanned : scanNumber src place = .ok (some (v, stop))) : place ≤ stop := by
  cases found : Numeral.scan (Text.latin (src.drop place)) with
  | none => cases scanned.symm.trans (scanNumber_of_none found).2.2
  | some numeral =>
      obtain ⟨last, longest, -, -, ran⟩ := scanNumber_of_some found
      cases scanned.symm.trans ran
      exact longest.isAt.start_le

section Termination

variable {length place stop last rank higher : Nat}

theorem lex_of_le (le : place ≤ stop) (less : rank < higher) :
    Prod.Lex (· < ·) (· < ·) (length - stop, rank) (length - place, higher) := by
  rcases Nat.lt_or_eq_of_le (Nat.sub_le_sub_left le length) with nearer | same
  · exact .left _ _ nearer
  · rw [same]
    exact .right _ less

theorem lex_of_lt (within : place < stop ∧ stop ≤ length) (le : stop ≤ last) :
    Prod.Lex (· < ·) (· < ·) (length - last, higher) (length - place, rank) :=
  .left _ _ (by omega)

end Termination

section Reader

variable {m : Type → Type} [Monad m] [MonadLiftT Checked m] (resolve : Address → m Outcome) (src : Bytes)

/-- A reference: its letter stands at the place, and its digits behind that. -/
def reference (letter : Char) (place : Nat) : ExceptT CellError m (Passed place) := do
  match ← column? letter with
  | none => throw .badReference
  | some column =>
    let stop := digitsEnd src (place + 1)
    if stop = place + 1 then throw .parse
    else
      match Text.decode? (← slice src (place + 1) stop) with
      | none => throw .parse
      | some digits =>
        match row? digits.toList with
        | none => throw .badReference
        | some row =>
          let value ← ExceptT.mk (resolve (← locate row column))
          return ⟨value, stop, Nat.le_of_succ_le (le_digitsEnd src (place + 1))⟩

/-- A number, which has to be finite. -/
def number (place : Nat) : ExceptT CellError m (Passed place) :=
  match scanned : scanNumber src place with
  | .error fault => liftM (.error fault : Checked (Passed place))
  | .ok none => throw .parse
  | .ok (some (v, stop)) => do
    let value ← ExceptT.mk (pure (finite v))
    return ⟨value, stop, le_of_scanNumber scanned⟩

/-- What stands at a place that has no symbol. -/
def operand (place : Nat) : ExceptT CellError m (Passed place) :=
  match src[place]?.map fun b => Char.ofNat b.toNat with
  | none => throw .parse
  | some c =>
    if c.isAlpha then reference resolve src c place
    else if c.isDigit ∨ c = '.' then number src place
    else throw .parse

mutual

/-- Evaluates a sum from a place on. -/
def interpretSum (place : Nat) : ExceptT CellError m (Passed place) := do
  let first ← interpretProduct place
  let rest ← interpretSumRest first.value first.stop
  return rest.since first.place_le
termination_by (src.length - place, 4)
decreasing_by
  · exact Prod.Lex.right _ (by decide)
  · exact lex_of_le first.place_le (by decide)

/-- Goes on with a sum that comes to `sum` so far. -/
def interpretSumRest (sum : Float) (place : Nat) : ExceptT CellError m (Passed place) :=
  match symbol? src place with
  | some ⟨.operator op, stop, within⟩ =>
    if op.isAdditive then do
      let right ← interpretProduct stop
      let sum ← ExceptT.mk (pure (op.apply sum right.value))
      let rest ← interpretSumRest sum right.stop
      return rest.since (Nat.le_trans (Nat.le_of_lt within.1) right.place_le)
    else return ⟨sum, blanksEnd src place, le_blanksEnd src place⟩
  | _ => return ⟨sum, blanksEnd src place, le_blanksEnd src place⟩
termination_by (src.length - place, 3)
decreasing_by
  · exact lex_of_lt within (Nat.le_refl _)
  · exact lex_of_lt within right.place_le

/-- Evaluates a product from a place on. -/
def interpretProduct (place : Nat) : ExceptT CellError m (Passed place) := do
  let first ← interpretFactor place
  let rest ← interpretProductRest first.value first.stop
  return rest.since first.place_le
termination_by (src.length - place, 2)
decreasing_by
  · exact Prod.Lex.right _ (by decide)
  · exact lex_of_le first.place_le (by decide)

/-- Goes on with a product that comes to `product` so far. -/
def interpretProductRest (product : Float) (place : Nat) : ExceptT CellError m (Passed place) :=
  match symbol? src place with
  | some ⟨.operator op, stop, within⟩ =>
    if op.isAdditive then return ⟨product, blanksEnd src place, le_blanksEnd src place⟩
    else do
      let right ← interpretFactor stop
      let product ← ExceptT.mk (pure (op.apply product right.value))
      let rest ← interpretProductRest product right.stop
      return rest.since (Nat.le_trans (Nat.le_of_lt within.1) right.place_le)
  | _ => return ⟨product, blanksEnd src place, le_blanksEnd src place⟩
termination_by (src.length - place, 1)
decreasing_by
  · exact lex_of_lt within (Nat.le_refl _)
  · exact lex_of_lt within right.place_le

/-- Evaluates a factor from a place on. -/
def interpretFactor (place : Nat) : ExceptT CellError m (Passed place) :=
  match symbol? src place with
  | some ⟨.opening, stop, within⟩ => do
    let inner ← interpretSum stop
    match symbol? src inner.stop with
    | some ⟨.closing, behind, further⟩ =>
      return ⟨inner.value, behind,
        Nat.le_trans (Nat.le_of_lt within.1) (Nat.le_trans inner.place_le (Nat.le_of_lt further.1))⟩
    | _ => throw .parse
  | some ⟨.operator .add, stop, within⟩ => do
    return (← interpretFactor stop).since (Nat.le_of_lt within.1)
  | some ⟨.operator .subtract, stop, within⟩ => do
    let factor ← interpretFactor stop
    return ⟨-factor.value, factor.stop, Nat.le_trans (Nat.le_of_lt within.1) factor.place_le⟩
  | some _ => throw .parse
  | none => do
    return (← operand resolve src (blanksEnd src place)).since (le_blanksEnd src place)
termination_by (src.length - place, 0)
decreasing_by
  all_goals exact lex_of_lt within (Nat.le_refl _)

end

/-- Evaluates a formula, asking `resolve` for each reference when it is read. The first error ends it, and so
does anything left behind the formula. -/
def interpret : m Outcome := ExceptT.run do
  let sum ← interpretSum resolve src 0
  if blanksEnd src sum.stop = src.length then return sum.value else throw .parse

/-! ## Going on, by equations -/

variable {resolve src} {place stop : Nat} {within : place < stop ∧ stop ≤ src.length} {op : Operator}

theorem interpretSumRest_of_additive (x : Float) (found : symbol? src place = some ⟨.operator op, stop, within⟩)
    (additive : op.isAdditive = true) : interpretSumRest resolve src x place = (do
      let right ← interpretProduct resolve src stop
      let sum ← ExceptT.mk (pure (op.apply x right.value))
      let rest ← interpretSumRest resolve src sum right.stop
      return rest.since (Nat.le_trans (Nat.le_of_lt within.1) right.place_le)) := by
  rw [interpretSumRest, found]
  exact if_pos additive

theorem interpretSumRest_of_other (x : Float) (other : ∀ op stop within,
      symbol? src place = some ⟨.operator op, stop, within⟩ → ¬ op.isAdditive = true) :
    interpretSumRest resolve src x place = pure ⟨x, blanksEnd src place, le_blanksEnd src place⟩ := by
  rw [interpretSumRest]
  split
  · next found => exact if_neg (other _ _ _ found)
  · rfl

theorem interpretProductRest_of_factor (x : Float)
    (found : symbol? src place = some ⟨.operator op, stop, within⟩) (factor : ¬ op.isAdditive = true) :
    interpretProductRest resolve src x place = (do
      let right ← interpretFactor resolve src stop
      let product ← ExceptT.mk (pure (op.apply x right.value))
      let rest ← interpretProductRest resolve src product right.stop
      return rest.since (Nat.le_trans (Nat.le_of_lt within.1) right.place_le)) := by
  rw [interpretProductRest, found]
  exact if_neg factor

theorem interpretProductRest_of_other (x : Float) (other : ∀ op stop within,
      symbol? src place = some ⟨.operator op, stop, within⟩ → op.isAdditive = true) :
    interpretProductRest resolve src x place = pure ⟨x, blanksEnd src place, le_blanksEnd src place⟩ := by
  rw [interpretProductRest]
  split
  · next found => exact if_pos (other _ _ _ found)
  · rfl

end Reader

/-! ## Places in the bytes of a text -/

/-- From the place on stand the bytes of the characters. -/
structure At (src : Bytes) (place : Nat) (back : List Char) : Prop where
  drop_eq : src.drop place = encodeChars back
  place_le : place ≤ src.length

section Places

variable {src : Bytes} {place : Nat} {c : Char} {cs before back : List Char}

theorem ascii_of_isBlank (blank : Text.isBlank c = true) : c.toNat < 0x80 := by
  simp only [Text.isBlank, Bool.or_eq_true, decide_eq_true_eq] at blank
  rcases blank with ((((rfl | rfl) | rfl) | rfl) | rfl) | rfl <;> decide

theorem ascii_of_isDigit (digit : c.isDigit = true) : c.toNat < 0x80 := by
  have bounds : 48 ≤ c.toNat ∧ c.toNat ≤ 57 := Char.isDigit_iff_toNat.mp digit
  omega

theorem ascii_of_isAlpha (alpha : c.isAlpha = true) : c.toNat < 0x80 := by
  have bounds := Address.toNat_of_isAlpha alpha
  omega

theorem ofSymbol?_of_beyond (beyond : 0x80 ≤ c.toNat) : Token.ofSymbol? c = none := by
  unfold Token.ofSymbol?
  split
  case h_7 => rfl
  all_goals exact absurd beyond (by decide)

theorem At.behind (standing : At src place (before ++ back)) :
    At src (place + (encodeChars before).length) back := by
  have split := standing.drop_eq
  have length := congrArg List.length split
  rw [Text.encodeChars_append, List.length_append, List.length_drop] at length
  have le := standing.place_le
  refine ⟨?_, by omega⟩
  rw [← List.drop_drop, split, Text.encodeChars_append, List.drop_left]

theorem At.eq_length (standing : At src place []) : place = src.length := by
  have length := congrArg List.length standing.drop_eq
  rw [List.length_drop, Text.encodeChars_nil, List.length_nil] at length
  have le := standing.place_le
  omega

/-- The byte at the place is the character there, unless both are beyond ASCII. -/
theorem At.cons (standing : At src place (c :: cs)) : ∃ inside : place < src.length,
    (Char.ofNat src[place].toNat = c ∧ At src (place + 1) cs) ∨
      (0x80 ≤ c.toNat ∧ 0x80 ≤ (Char.ofNat src[place].toNat).toNat) := by
  have inside : place < src.length := by
    by_contra outside
    have nothing := standing.drop_eq
    rw [List.drop_eq_nil_of_le (Nat.le_of_not_lt outside), Text.encodeChars_cons] at nothing
    exact String.utf8EncodeChar_ne_nil (List.append_eq_nil_iff.mp nothing.symm).1
  have first := latin_drop_of_lt inside
  rw [standing.drop_eq] at first
  refine ⟨inside, ?_⟩
  rcases Text.latin_encodeChars_cons c cs with ⟨ascii, bytes⟩ | ⟨low, d, ds, beyond, bytes⟩
  · have split : At src place ([c] ++ cs) := standing
    have behind := split.behind
    rw [Text.length_encodeChars_of_ascii (List.forall_mem_singleton.mpr ascii), List.length_singleton] at behind
    rw [bytes] at first
    exact .inl ⟨(List.cons.inj first).1.symm, behind⟩
  · rw [bytes] at first
    rw [← (List.cons.inj first).1]
    exact .inr ⟨low, beyond⟩

/-- A run of a class ends where the run of characters does. -/
theorem At.runEnd {p : Char → Bool} {kind : UInt8 → Bool} (ascii : ∀ c, p c = true → c.toNat < 0x80)
    (same : ∀ b : UInt8, p (Char.ofNat b.toNat) = kind b) (standing : At src place back) :
    runEnd kind src place = place + (encodeChars (back.takeWhile p)).length ∧
      At src (runEnd kind src place) (back.dropWhile p) := by
  have conserves := (reaches_runEnd same src place).conserves
  have taken := fun c member => ascii c (List.mem_takeWhile_imp (l := back) member)
  have parts := congrArg List.length
    (List.takeWhile_append_dropWhile (p := p) (l := Text.latin (encodeChars back)))
  rw [List.length_append, (Text.span_latin_encodeChars ascii back).1] at parts
  rw [standing.drop_eq] at conserves
  have stop : Checked.runEnd kind src place = place + (encodeChars (back.takeWhile p)).length := by
    rw [Text.length_encodeChars_of_ascii taken]
    omega
  refine ⟨stop, ?_⟩
  rw [stop]
  refine At.behind ?_
  rwa [List.takeWhile_append_dropWhile]

theorem At.blanksEnd (standing : At src place back) :
    At src (blanksEnd src place) (back.dropWhile Text.isBlank) :=
  (At.runEnd (fun _ => ascii_of_isBlank) (fun _ => rfl) standing).2

theorem At.digits (standing : At src place (c :: cs)) (alpha : c.isAlpha = true) :
    digitsEnd src (place + 1) = place + 1 + (cs.takeWhile Char.isDigit).length ∧
      slice src (place + 1) (digitsEnd src (place + 1)) =
        .ok (Text.encode (String.ofList (cs.takeWhile Char.isDigit))) ∧
      At src (digitsEnd src (place + 1)) (cs.dropWhile Char.isDigit) := by
  obtain ⟨inside, ⟨-, letter⟩ | ⟨beyond, -⟩⟩ := standing.cons
  · have ascii : ∀ d ∈ cs.takeWhile Char.isDigit, d.toNat < 0x80 := fun _ member =>
      ascii_of_isDigit (List.mem_takeWhile_imp member)
    obtain ⟨ends, behind⟩ : digitsEnd src (place + 1) = _ ∧ At src (digitsEnd src (place + 1)) _ :=
      letter.runEnd (fun _ => ascii_of_isDigit) isDigit_ofNat
    rw [Text.length_encodeChars_of_ascii ascii] at ends
    refine ⟨ends, ?_, behind⟩
    rw [slice_of_le (le_digitsEnd src _) behind.place_le, List.extract_eq_take_drop, letter.drop_eq, ends,
      Nat.add_sub_cancel_left, Text.encode_ofList]
    have front := (Text.prefix_latin_encodeChars ascii).mpr (List.takeWhile_prefix Char.isDigit)
    exact congrArg Except.ok ((Text.take_eq_encodeChars_iff ascii).mpr front)
  · exact absurd (ascii_of_isAlpha alpha) (Nat.not_lt.mpr beyond)

end Places

/-! ## Tokens at a place -/

/-- The tokens that stand from a place on. -/
def Sees (src : Bytes) (place : Nat) (ts : List Token) : Prop :=
  ∃ back, At src place back ∧ Token.ofChars back = ts

/-- What tokens begin with where neither a blank nor a symbol stands. -/
inductive Operand : List Char → List Token → Prop
  | nothing : Operand [] []
  | label {c : Char} {cs : List Char} : c.isAlpha = true → cs.takeWhile Char.isDigit ≠ [] →
    Operand (c :: cs)
      (.label (Address.ofParts? c (cs.takeWhile Char.isDigit)) :: Token.ofChars (cs.dropWhile Char.isDigit))
  | number {c : Char} {cs rest : List Char} {n : Numeral} : ¬ c.isAlpha = true →
    Numeral.scan (c :: cs) = some (n, rest) → Operand (c :: cs) (.number n.value :: Token.ofChars rest)
  | letter {c : Char} {cs : List Char} : c.isAlpha = true → cs.takeWhile Char.isDigit = [] →
    Operand (c :: cs) (.stray :: Token.ofChars cs)
  | stray {c : Char} {cs : List Char} : ¬ c.isAlpha = true → Numeral.scan (c :: cs) = none →
    Operand (c :: cs) (.stray :: Token.ofChars cs)

/-- The front of the tokens that stand from a place on. -/
inductive Front (src : Bytes) (place : Nat) : List Token → Prop
  | symbol {t : Token} {us : List Token} {stop : Nat} {within : place < stop ∧ stop ≤ src.length} :
    t.IsSymbol → symbol? src place = some ⟨t, stop, within⟩ → Sees src stop us → Front src place (t :: us)
  | operand {back : List Char} {ts : List Token} : symbol? src place = none →
    At src (blanksEnd src place) back → Operand back ts → Front src place ts

section Tokens

variable {src : Bytes} {place stop : Nat} {c : Char} {back : List Char} {t : Token} {ts us : List Token}

theorem Operand.of_ofChars (plain : ∀ c ∈ back.head?, Text.isBlank c = false)
    (other : ∀ c ∈ back.head?, Token.ofSymbol? c = none) : Operand back (Token.ofChars back) := by
  cases back with
  | nil =>
      rw [Token.ofChars]
      exact .nothing
  | cons c cs =>
      rw [Token.ofChars, if_neg (ne_true_of_eq_false (plain c rfl)), other c rfl]
      dsimp only
      by_cases alpha : c.isAlpha = true
      · rw [if_pos alpha]
        split
        · next none => exact .letter alpha none
        · next digits => exact .label alpha digits
      · rw [if_neg alpha]
        split
        · next scanned => exact .number alpha scanned
        · next failed => exact .stray alpha failed

theorem symbol?_of_lt (inside : blanksEnd src place < src.length) : symbol? src place =
    (Token.ofSymbol? (Char.ofNat src[blanksEnd src place].toNat)).map fun token =>
      ⟨token, blanksEnd src place + 1, Nat.lt_succ_of_le (le_blanksEnd src place), inside⟩ :=
  dif_pos inside

theorem Sees.front (sees : Sees src place ts) : Front src place ts := by
  obtain ⟨back, standing, rfl⟩ := sees
  have behind := standing.blanksEnd
  have plain := (Text.span_spec Text.isBlank back).2.2
  rw [← Token.ofChars_dropWhile]
  cases later : back.dropWhile Text.isBlank with
  | nil =>
      rw [later] at behind
      have none : Checked.symbol? src place = none := dif_neg (Nat.not_lt_of_ge behind.eq_length.ge)
      exact .operand none behind (.of_ofChars nofun nofun)
  | cons c cs =>
      rw [later] at behind plain
      obtain ⟨inside, ⟨same, next⟩ | ⟨low, beyond⟩⟩ := behind.cons
      · cases symbol : Token.ofSymbol? c with
        | none =>
            have none : Checked.symbol? src place = none := by
              rw [symbol?_of_lt inside, same, symbol, Option.map_none]
            exact .operand none behind (.of_ofChars plain fun d first => Option.some.inj first ▸ symbol)
        | some t =>
            have found := symbol?_of_lt inside
            rw [same, symbol, Option.map_some] at found
            rw [Token.ofChars_of_symbol (ne_true_of_eq_false (plain c rfl)) symbol]
            exact .symbol (Token.isSymbol_of_ofSymbol? symbol) found ⟨cs, next, rfl⟩
      · have none : Checked.symbol? src place = none := by
          rw [symbol?_of_lt inside, ofSymbol?_of_beyond beyond, Option.map_none]
        exact .operand none behind
          (.of_ofChars plain fun d first => Option.some.inj first ▸ ofSymbol?_of_beyond low)

theorem Sees.symbol? (sees : Sees src place (t :: us)) (symbol : t.IsSymbol) :
    ∃ stop within, Checked.symbol? src place = some ⟨t, stop, within⟩ ∧ Sees src stop us := by
  cases sees.front with
  | symbol _ found later => exact ⟨_, _, found, later⟩
  | operand _ _ operand => cases operand <;> exact symbol.elim

theorem Sees.of_symbol? {within : place < stop ∧ stop ≤ src.length} (sees : Sees src place ts)
    (found : Checked.symbol? src place = some ⟨t, stop, within⟩) : ∃ us, ts = t :: us := by
  cases sees.front with
  | symbol _ again _ =>
      cases found.symm.trans again
      exact ⟨_, rfl⟩
  | operand none => cases found.symm.trans none

theorem Sees.forall_operator {p : Operator → Prop} (sees : Sees src place ts)
    (holds : ∀ op us, ts = .operator op :: us → p op) (op : Operator) (stop : Nat)
    (within : place < stop ∧ stop ≤ src.length)
    (found : Checked.symbol? src place = some ⟨.operator op, stop, within⟩) : p op := by
  obtain ⟨us, same⟩ := sees.of_symbol? found
  exact holds op us same

theorem Sees.blanksEnd (sees : Sees src place ts) : Sees src (blanksEnd src place) ts := by
  obtain ⟨back, standing, rfl⟩ := sees
  exact ⟨_, standing.blanksEnd, Token.ofChars_dropWhile back⟩

theorem Sees.place_le (sees : Sees src place ts) : place ≤ src.length := by
  obtain ⟨back, standing, -⟩ := sees
  exact standing.place_le

theorem sees_nothing (src : Bytes) : Sees src src.length [] :=
  ⟨[], ⟨List.drop_length, Nat.le_refl _⟩, Token.ofChars.eq_1⟩

/-- Only blanks are left where no token is. -/
theorem Sees.blanksEnd_eq_length_iff (sees : Sees src place ts) :
    Checked.blanksEnd src place = src.length ↔ ts = [] := by
  obtain ⟨back, standing, rfl⟩ := sees
  have behind := standing.blanksEnd
  have plain := (Text.span_spec Text.isBlank back).2.2
  rw [← Token.ofChars_dropWhile]
  cases later : back.dropWhile Text.isBlank with
  | nil =>
      rw [later] at behind
      exact iff_of_true behind.eq_length Token.ofChars.eq_1
  | cons c cs =>
      rw [later] at behind plain
      obtain ⟨inside, -⟩ := behind.cons
      exact iff_of_false (Nat.ne_of_lt inside) (Token.ofChars_ne_nil (ne_true_of_eq_false (plain c rfl)))

end Tokens

end Worksheet.Checked
