import Worksheet.Proofs.Formula.Grammar
import Mathlib.Data.List.Chain

/-!
Splitting a formula's text into tokens, against the way tokens are written.

* `Spelling.ofChars_eq`: a text that spells tokens is split into just these, as long as no two
  operands follow one another.
* `Spelling.of_ofChars`: a text splits into tokens that it spells, unless it holds a stray
  character.
* `Formula.writtenAs_iff`: a text writes a formula just if its tokens are a phrase of it.
-/

namespace Worksheet

/-! ## Labels -/

namespace Address

theorem toLower_columnLetter (column : Fin columnCount) :
    (columnLetter column).toLower = Char.ofNat (0x61 + column.val) := by
  revert column
  decide

theorem columnOfLetter?_eq_some_iff {letter : Char} {column : Fin columnCount} :
    columnOfLetter? letter = some column ↔
      letter = columnLetter column ∨ letter = (columnLetter column).toLower := by
  constructor
  · intro found
    unfold columnOfLetter? at found
    split at found
    · next upper =>
        obtain rfl := Option.some.inj found
        refine .inl ?_
        simp only [columnLetter, Nat.add_sub_cancel' upper.1, Char.ofNat_toNat]
    · split at found
      · next lower =>
          obtain rfl := Option.some.inj found
          refine .inr ?_
          rw [toLower_columnLetter]
          simp only [Nat.add_sub_cancel' lower.1, Char.ofNat_toNat]
      · cases found
  · rintro (rfl | rfl)
    · revert column
      decide
    · revert column
      decide

theorem isAlpha_of_columnOfLetter? {letter : Char} {column : Fin columnCount}
    (found : columnOfLetter? letter = some column) : letter.isAlpha = true := by
  rcases columnOfLetter?_eq_some_iff.mp found with rfl | rfl
  · revert column
    decide
  · revert column
    decide

theorem toNat_of_isAlpha {letter : Char} (alpha : letter.isAlpha = true) :
    (65 ≤ letter.toNat ∧ letter.toNat ≤ 90) ∨ (97 ≤ letter.toNat ∧ letter.toNat ≤ 122) := by
  rcases Bool.or_eq_true_iff.mp alpha with upper | lower
  · have bounds : 'A'.val ≤ letter.val ∧ letter.val ≤ 'Z'.val := of_decide_eq_true upper
    exact .inl bounds
  · have bounds : (decide ('a'.val ≤ letter.val) && decide (letter.val ≤ 'z'.val)) = true := lower
    rw [Bool.and_eq_true, decide_eq_true_eq, decide_eq_true_eq] at bounds
    exact .inr bounds

theorem columnOfLetter?_of_isAlpha {letter : Char} (alpha : letter.isAlpha = true) :
    ∃ column, columnOfLetter? letter = some column := by
  unfold columnOfLetter?
  rcases toNat_of_isAlpha alpha with upper | lower
  · exact ⟨_, dif_pos upper⟩
  · exact ⟨_, (dif_neg fun upper => by omega).trans (dif_pos lower)⟩

theorem rowOfDigits?_eq_some_iff {digits : List Char} {row : Fin rowCount} :
    rowOfDigits? digits = some row ↔ Nat.ofDigitChars 10 digits 0 = row + 1 := by
  unfold rowOfDigits?
  dsimp only
  split
  · next range =>
      rw [Option.some.injEq, Fin.ext_iff]
      dsimp only
      omega
  · next range =>
      have := row.isLt
      constructor
      · nofun
      · intro same
        omega

theorem ofParts?_eq_some_iff {letter : Char} {digits : List Char} {a : Address} :
    ofParts? letter digits = some a ↔
      columnOfLetter? letter = some a.column ∧ rowOfDigits? digits = some a.row := by
  unfold ofParts?
  cases columnOfLetter? letter with
  | none => simp
  | some column =>
      cases rowOfDigits? digits with
      | none => simp
      | some row =>
          rcases a with ⟨r, c⟩
          simp [and_comm]

end Address

namespace Token

/-- A character that an operand may start with. -/
def OpensOperand (c : Char) : Prop := c.isAlpha = true ∨ c.isDigit = true ∨ c = '.'

theorem OpensOperand.not_blank {c : Char} (opens : OpensOperand c) : ¬Text.isBlank c = true := by
  intro blank
  simp only [Text.isBlank, Bool.or_eq_true, decide_eq_true_eq] at blank
  unfold OpensOperand at opens
  rcases blank with ((((rfl | rfl) | rfl) | rfl) | rfl) | rfl <;> revert opens <;> decide

theorem OpensOperand.ofSymbol? {c : Char} (opens : OpensOperand c) : ofSymbol? c = none := by
  unfold Token.ofSymbol?
  unfold OpensOperand at opens
  split
  case h_7 => rfl
  all_goals exact absurd opens (by decide)

/-- A text that no operand goes on with, nor another begins. -/
def EndsOperand (cs : List Char) : Prop :=
  ∀ c, cs.head? = some c → Text.isBlank c = true ∨ ∃ t, ofSymbol? c = some t

theorem EndsOperand.not_opens {cs : List Char} (ends : EndsOperand cs) {c : Char}
    (first : cs.head? = some c) : ¬OpensOperand c := by
  intro opens
  rcases ends c first with blank | ⟨t, symbol⟩
  · exact opens.not_blank blank
  · rw [opens.ofSymbol?] at symbol
    cases symbol

theorem EndsOperand.endsNumeral {cs : List Char} (ends : EndsOperand cs) :
    Numeral.EndsNumeral cs := by
  intro c first
  have closed := ends.not_opens first
  refine ⟨?_, ?_, ?_, ?_⟩
  · exact eq_false_of_ne_true fun digit => closed (.inr (.inl digit))
  · exact fun point => closed (.inr (.inr point))
  · rintro rfl
    exact closed (.inl rfl)
  · rintro rfl
    exact closed (.inl rfl)

/-! ## One token -/

theorem ofChars_of_symbol {c : Char} {cs : List Char} {t : Token} (plain : ¬Text.isBlank c = true)
    (symbol : ofSymbol? c = some t) : ofChars (c :: cs) = t :: ofChars cs := by
  rw [ofChars, if_neg plain, symbol]

theorem ofChars_of_letter {letter : Char} {digits cs : List Char} (alpha : letter.isAlpha = true)
    (nonempty : digits ≠ []) (all : Numeral.AllDigits digits) (ends : EndsOperand cs) :
    ofChars (letter :: (digits ++ cs)) = .label (Address.ofParts? letter digits) :: ofChars cs := by
  have opens : OpensOperand letter := .inl alpha
  have ahead : ∀ c, cs.head? = some c → c.isDigit = false :=
    fun c first => (ends.endsNumeral c first).1
  rw [ofChars, if_neg opens.not_blank, opens.ofSymbol?]
  dsimp only
  rw [if_pos alpha, Numeral.takeWhile_digits all ahead, Numeral.dropWhile_digits all ahead,
    if_neg nonempty]

theorem opens_of_scan {c : Char} {cs rest : List Char} {n : Numeral}
    (scanned : Numeral.scan (c :: cs) = some (n, rest)) : c.isDigit = true ∨ c = '.' := by
  obtain ⟨text, written, split⟩ := Numeral.writtenAs_of_scan scanned
  obtain ⟨d, ds, rfl, opens⟩ := written.exists_cons
  rwa [(List.cons.inj split).1]

theorem ofChars_of_scan {c : Char} {cs rest : List Char} {n : Numeral}
    (scanned : Numeral.scan (c :: cs) = some (n, rest)) :
    ofChars (c :: cs) = .number n.value :: ofChars rest := by
  have opens := opens_of_scan scanned
  have notAlpha : ¬c.isAlpha = true := by
    rcases opens with digit | rfl
    · intro alpha
      have letters := Address.toNat_of_isAlpha alpha
      have digits : 48 ≤ c.toNat ∧ c.toNat ≤ 57 := Char.isDigit_iff_toNat.mp digit
      omega
    · decide
  have opens : OpensOperand c := .inr opens
  rw [ofChars, if_neg opens.not_blank, opens.ofSymbol?]
  dsimp only
  rw [if_neg notAlpha]
  split
  · next n' rest' scanned' =>
      rw [scanned] at scanned'
      cases scanned'
      rfl
  · next failed =>
      rw [scanned] at failed
      cases failed

/-- A token that stands where an operand is due. -/
def IsOperand : Token → Prop
  | .number _ | .label _ => True
  | _ => False

/-- A token of a single character: an operator or a bracket. -/
def IsSymbol : Token → Prop
  | .operator _ | .opening | .closing => True
  | .number _ | .label _ | .stray => False

theorem isSymbol_of_ofSymbol? {c : Char} {t : Token} (symbol : ofSymbol? c = some t) : t.IsSymbol := by
  unfold ofSymbol? at symbol
  split at symbol
  all_goals cases symbol
  all_goals trivial

/-- No two operands follow one another. -/
def Apart (t u : Token) : Prop := t.IsOperand → ¬u.IsOperand

theorem ofChars_of_blanks {blanks cs : List Char} (all : AllBlank blanks) :
    ofChars (blanks ++ cs) = ofChars cs := by
  induction blanks with
  | nil => rfl
  | cons c blanks ih =>
      rw [List.cons_append, ofChars, if_pos (all c List.mem_cons_self)]
      exact ih fun d member => all d (List.mem_cons_of_mem c member)

theorem ofChars_ne_nil {c : Char} {cs : List Char} (plain : ¬Text.isBlank c = true) :
    ofChars (c :: cs) ≠ [] := by
  rw [ofChars, if_neg plain]
  repeat' split
  all_goals exact List.cons_ne_nil _ _

theorem ofChars_dropWhile (cs : List Char) : ofChars (cs.dropWhile Text.isBlank) = ofChars cs := by
  conv_rhs => rw [← List.takeWhile_append_dropWhile (p := Text.isBlank) (l := cs)]
  exact (ofChars_of_blanks fun _ member => List.mem_takeWhile_imp member).symm

end Token

open Token

/-! ## What is written is split so -/

theorem Lexeme.ofChars_append {t : Token} {text cs : List Char} (lexeme : Lexeme t text)
    (ends : t.IsOperand → EndsOperand cs) : ofChars (text ++ cs) = t :: ofChars cs := by
  cases lexeme with
  | add | subtract | multiply | divide | opening | closing =>
      exact ofChars_of_symbol (by decide) rfl
  | number written =>
      obtain ⟨c, text, rfl, -⟩ := written.exists_cons
      exact ofChars_of_scan (Numeral.scan_of_writtenAs written (ends trivial).endsNumeral)
  | @inside a letter digits column nonempty all row =>
      have found := Address.columnOfLetter?_eq_some_iff.mpr column
      have parts : Address.ofParts? letter digits = some a :=
        Address.ofParts?_eq_some_iff.mpr ⟨found, Address.rowOfDigits?_eq_some_iff.mpr row⟩
      rw [List.cons_append, ofChars_of_letter (Address.isAlpha_of_columnOfLetter? found) nonempty all
        (ends trivial), parts]
  | @outside letter digits alpha nonempty all row =>
      have parts : Address.ofParts? letter digits = none := by
        refine Option.eq_none_iff_forall_ne_some.mpr fun a found => ?_
        obtain ⟨-, within⟩ := Address.ofParts?_eq_some_iff.mp found
        exact row a.row (Address.rowOfDigits?_eq_some_iff.mp within)
      rw [List.cons_append, ofChars_of_letter alpha nonempty all (ends trivial), parts]

theorem Lexeme.endsOperand {t : Token} {text cs : List Char} (lexeme : Lexeme t text)
    (notOperand : ¬t.IsOperand) : EndsOperand (text ++ cs) := by
  intro c first
  cases lexeme with
  | add | subtract | multiply | divide | opening | closing =>
      cases Option.some.inj first
      exact .inr ⟨_, rfl⟩
  | number | inside | outside => exact absurd trivial notOperand

theorem Spelling.endsOperand {ts : List Token} {cs : List Char} (spelling : Spelling ts cs)
    (next : ∀ t, ts.head? = some t → ¬t.IsOperand) : EndsOperand cs := by
  cases spelling with
  | done all =>
      intro c first
      exact .inl (all c (List.mem_of_mem_head? first))
  | @token t ts blanks text cs all lexeme spelling =>
      cases blanks with
      | nil =>
          rw [List.nil_append]
          exact lexeme.endsOperand (next t rfl)
      | cons b blanks =>
          intro c first
          cases Option.some.inj first
          exact .inl (all b List.mem_cons_self)

theorem Spelling.ofChars_eq {ts : List Token} {cs : List Char} (spelling : Spelling ts cs)
    (apart : ts.IsChain Apart) : ofChars cs = ts := by
  induction spelling with
  | @done blanks all =>
      rw [← List.append_nil blanks, ofChars_of_blanks all, ofChars]
  | @token t ts blanks text cs all lexeme spelling ih =>
      rw [List.isChain_cons] at apart
      rw [ofChars_of_blanks all, lexeme.ofChars_append, ih apart.2]
      exact fun operand => spelling.endsOperand fun u first => apart.1 u first operand

/-! ## What is split is written so -/

theorem Spelling.cons_blank {ts : List Token} {c : Char} {cs : List Char}
    (blank : Text.isBlank c = true) (spelling : Spelling ts cs) : Spelling ts (c :: cs) := by
  cases spelling with
  | done all => exact .done (List.forall_mem_cons.mpr ⟨blank, all⟩)
  | @token t ts blanks text cs all lexeme spelling =>
      rw [← List.cons_append]
      exact .token (List.forall_mem_cons.mpr ⟨blank, all⟩) lexeme spelling

theorem Spelling.of_lexeme {t : Token} {ts : List Token} {text cs : List Char}
    (lexeme : Lexeme t text) (spelling : Spelling ts cs) : Spelling (t :: ts) (text ++ cs) := by
  rw [← List.nil_append (text ++ cs)]
  exact .token nofun lexeme spelling

theorem Lexeme.of_symbol {c : Char} {t : Token} (symbol : ofSymbol? c = some t) : Lexeme t [c] := by
  unfold ofSymbol? at symbol
  split at symbol
  all_goals cases symbol
  · exact .add
  · exact .subtract
  · exact .multiply
  · exact .divide
  · exact .opening
  · exact .closing

theorem Lexeme.of_letter {letter : Char} {digits : List Char} (alpha : letter.isAlpha = true)
    (nonempty : digits ≠ []) (all : Numeral.AllDigits digits) :
    Lexeme (.label (Address.ofParts? letter digits)) (letter :: digits) := by
  cases parts : Address.ofParts? letter digits with
  | some a =>
      obtain ⟨column, row⟩ := Address.ofParts?_eq_some_iff.mp parts
      exact .inside (Address.columnOfLetter?_eq_some_iff.mp column) nonempty all
        (Address.rowOfDigits?_eq_some_iff.mp row)
  | none =>
      refine .outside alpha nonempty all fun row same => ?_
      obtain ⟨column, found⟩ := Address.columnOfLetter?_of_isAlpha alpha
      have parts' : Address.ofParts? letter digits = some ⟨row, column⟩ :=
        Address.ofParts?_eq_some_iff.mpr ⟨found, Address.rowOfDigits?_eq_some_iff.mpr same⟩
      rw [parts] at parts'
      cases parts'

/-- The induction is that of the splitting; a stray character ends it at once. -/
theorem Spelling.of_ofChars {cs : List Char} (noStray : .stray ∉ ofChars cs) :
    Spelling (ofChars cs) cs := by
  induction cs using ofChars.induct with
  | case1 =>
      rw [ofChars]
      exact .done nofun
  | case2 c cs blank ih =>
      rw [ofChars, if_pos blank] at noStray ⊢
      exact (ih noStray).cons_blank blank
  | case3 c cs plain t symbol ih =>
      rw [ofChars_of_symbol plain symbol] at noStray ⊢
      have later := ih fun member => noStray (List.mem_cons_of_mem _ member)
      exact Spelling.of_lexeme (Lexeme.of_symbol symbol) later
  | case4 c cs plain symbol alpha empty ih =>
      rw [ofChars, if_neg plain, symbol] at noStray
      dsimp only at noStray
      rw [if_pos alpha, if_pos empty] at noStray
      exact absurd List.mem_cons_self noStray
  | case5 c cs plain symbol alpha nonempty ih =>
      rw [ofChars, if_neg plain, symbol] at noStray ⊢
      dsimp only at noStray ⊢
      rw [if_pos alpha, if_neg nonempty] at noStray ⊢
      have later := ih fun member => noStray (List.mem_cons_of_mem _ member)
      have label := Lexeme.of_letter alpha nonempty (Numeral.allDigits_takeWhile cs)
      have spelling := Spelling.of_lexeme label later
      rwa [List.cons_append, List.takeWhile_append_dropWhile] at spelling
  | case6 c cs plain symbol notAlpha n rest scanned ih =>
      obtain ⟨text, written, split⟩ := Numeral.writtenAs_of_scan scanned
      rw [ofChars_of_scan scanned] at noStray ⊢
      have later := ih fun member => noStray (List.mem_cons_of_mem _ member)
      rw [split]
      exact Spelling.of_lexeme (.number written) later
  | case7 c cs plain symbol notAlpha failed ih =>
      rw [ofChars, if_neg plain, symbol] at noStray
      dsimp only at noStray
      rw [if_neg notAlpha] at noStray
      split at noStray
      · next scanned =>
          rw [failed] at scanned
          cases scanned
      · exact absurd List.mem_cons_self noStray

/-! ## Phrases -/

theorem apart_join {ts us : List Token} {t : Token} (notOperand : ¬t.IsOperand)
    (left : ts.IsChain Apart) (right : us.IsChain Apart) : (ts ++ t :: us).IsChain Apart := by
  refine List.isChain_append.mpr ⟨left, List.isChain_cons.mpr ⟨?_, right⟩, ?_⟩
  · intro u first operand
    exact absurd operand notOperand
  · intro s last u first operand
    cases Option.some.inj first
    exact notOperand

theorem apart_cons {ts : List Token} {t : Token} (notOperand : ¬t.IsOperand)
    (later : ts.IsChain Apart) : (t :: ts).IsChain Apart := by
  rw [← List.nil_append (t :: ts)]
  exact apart_join notOperand .nil later

/-- Operands of a phrase have an operator or a bracket between them. -/
theorem Derives.apart {c : Category} {ts : List Token} {f : Formula} (derives : Derives c ts f) :
    ts.IsChain Apart := by
  induction derives with
  | product _ ih | factor _ ih => exact ih
  | sum _ _ _ ihLeft ihRight | times _ _ _ ihLeft ihRight => exact apart_join id ihLeft ihRight
  | bracket _ ih => exact apart_cons id (apart_join id ih .nil)
  | plus _ ih | minus _ ih => exact apart_cons id ih
  | label | number => exact .singleton _

theorem Derives.stray_not_mem {c : Category} {ts : List Token} {f : Formula}
    (derives : Derives c ts f) : .stray ∉ ts := by
  induction derives with
  | product _ ih | factor _ ih => exact ih
  | sum _ _ _ ihLeft ihRight | times _ _ _ ihLeft ihRight => simp [ihLeft, ihRight]
  | bracket _ ih | plus _ ih | minus _ ih => simp [ih]
  | label | number => simp

/-- A text writes a formula just if its tokens are a phrase of it. -/
theorem Formula.writtenAs_iff {f : Formula} {cs : List Char} :
    f.WrittenAs cs ↔ Derives .sum (Token.ofChars cs) f := by
  constructor
  · rintro ⟨ts, spelling, derives⟩
    rw [spelling.ofChars_eq derives.apart]
    exact derives
  · intro derives
    exact ⟨_, Spelling.of_ofChars derives.stray_not_mem, derives⟩

end Worksheet
