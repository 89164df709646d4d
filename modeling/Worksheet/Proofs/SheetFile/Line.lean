import Worksheet.Proofs.Text.Runs
import Worksheet.Proofs.Text.Utf8
import Worksheet.SheetFile.Format

/-!
A written line is read back.

* `unescape_escape`: undoing the escapes on bytes undoes writing them on characters, as no byte of
  another character is a backslash.
* `readLine_lineOf`: the line of a cell gives its row, its column and its text, less the spaces
  that the text starts with, which cannot be told from the separator.
* `lines_flatMap`: a file splits at the ends of its lines, because an escaped text has no line feed.
-/

namespace Worksheet.SheetFile

open Text

/-! ## Escapes -/

theorem escape_cons (c : Char) (cs : List Char) : escape (c :: cs) = escapeChar c ++ escape cs := rfl

theorem escapeChar_of_plain {c : Char} (noBackslash : c ≠ '\\') (noNewline : c ≠ '\n')
    (noTab : c ≠ '\t') : escapeChar c = [c] := by
  rw [escapeChar, if_neg noBackslash, if_neg noNewline, if_neg noTab]

/-- A character is one of the three that are escaped, or it stands for itself. -/
theorem escapeChar_cases (c : Char) :
    ((c = '\\' ∨ c = '\n' ∨ c = '\t') ∧ ∃ d, d ≠ '\n' ∧ escapeChar c = ['\\', d]) ∨
      (c ≠ '\\' ∧ c ≠ '\n' ∧ c ≠ '\t' ∧ escapeChar c = [c]) := by
  by_cases escapedBackslash : c = '\\'
  · subst escapedBackslash
    exact .inl ⟨.inl rfl, '\\', by decide, rfl⟩
  by_cases newline : c = '\n'
  · subst newline
    exact .inl ⟨.inr (.inl rfl), 'n', by decide, rfl⟩
  by_cases tab : c = '\t'
  · subst tab
    exact .inl ⟨.inr (.inr rfl), 't', by decide, rfl⟩
  exact .inr ⟨escapedBackslash, newline, tab, escapeChar_of_plain escapedBackslash newline tab⟩

theorem newline_not_mem_escape (cs : List Char) : '\n' ∉ escape cs := by
  intro member
  obtain ⟨c, -, member⟩ := List.mem_flatMap.mp member
  rcases escapeChar_cases c with ⟨-, d, other, escaped⟩ | ⟨-, other, -, plain⟩
  · rw [escaped] at member
    simp [other.symm] at member
  · rw [plain, List.mem_singleton] at member
    exact other member.symm

theorem unescape_cons_of_ne {b : UInt8} (other : b ≠ backslash) (bs : Bytes) :
    unescape (b :: bs) = b :: unescape bs := by
  rw [unescape.eq_def]
  exact if_neg other

theorem unescape_backslash (b : UInt8) (bs : Bytes) : unescape (backslash :: b :: bs) =
    match escaped? b with
    | some x => x :: unescape bs
    | none => backslash :: unescape (b :: bs) := by
  rw [unescape.eq_def]
  rfl

theorem unescape_append {bs : Bytes} (plain : backslash ∉ bs) (rest : Bytes) :
    unescape (bs ++ rest) = bs ++ unescape rest := by
  induction bs with
  | nil => rfl
  | cons b bs ih =>
      obtain ⟨other, later⟩ := not_or.mp (mt List.mem_cons.mpr plain)
      rw [List.cons_append, unescape_cons_of_ne (Ne.symm other), ih later, List.cons_append]

theorem unescape_escapeChar (c : Char) (rest : Bytes) :
    unescape (encodeChars (escapeChar c) ++ rest) = String.utf8EncodeChar c ++ unescape rest := by
  rcases escapeChar_cases c with ⟨rfl | rfl | rfl, -⟩ | ⟨other, -, -, plain⟩
  · rfl
  · rfl
  · rfl
  · have noBackslash : backslash ∉ String.utf8EncodeChar c := by
      rw [mem_utf8EncodeChar_of_ascii (by decide)]
      exact fun same => other (Char.toNat_inj.mp same.symm)
    rw [plain, encodeChars_cons, encodeChars_nil, List.append_nil, unescape_append noBackslash]

theorem unescape_escape (cs : List Char) : unescape (encodeChars (escape cs)) = encodeChars cs := by
  induction cs with
  | nil => rfl
  | cons c cs ih => rw [escape_cons, encodeChars_append, unescape_escapeChar, ih, encodeChars_cons]

/-! ## The separator before a text -/

/-- The space or tab that may stand between the column and the text. -/
abbrev isSeparator (b : UInt8) : Bool := b = 0x20 || b = 0x09

theorem dropWhile_separator_escapeChar {c : Char} (other : c ≠ ' ') (rest : Bytes) :
    (encodeChars (escapeChar c) ++ rest).dropWhile isSeparator =
      encodeChars (escapeChar c) ++ rest := by
  rcases escapeChar_cases c with ⟨rfl | rfl | rfl, -⟩ | ⟨-, -, noTab, plain⟩
  · rfl
  · rfl
  · rfl
  · rw [plain, encodeChars_cons, encodeChars_nil, List.append_nil]
    have codes : ∀ b ∈ String.utf8EncodeChar c, isSeparator b = false := by
      intro b member
      have noSpace : b ≠ 0x20 := by
        rintro rfl
        have same := (mem_utf8EncodeChar_of_ascii (by decide)).mp member
        exact other (Char.toNat_inj.mp same.symm)
      have noTabByte : b ≠ 0x09 := by
        rintro rfl
        have same := (mem_utf8EncodeChar_of_ascii (by decide)).mp member
        exact noTab (Char.toNat_inj.mp same.symm)
      simp [isSeparator, noSpace, noTabByte]
    exact dropWhile_append_of_none String.utf8EncodeChar_ne_nil codes rest

theorem dropWhile_separator_escape (cs : List Char) :
    (encodeChars (escape cs)).dropWhile isSeparator =
      encodeChars (escape (cs.dropWhile (· = ' '))) := by
  induction cs with
  | nil => rfl
  | cons c cs ih =>
      by_cases space : c = ' '
      · subst space
        exact ih
      · rw [List.dropWhile_cons_of_neg (by simpa using space), escape_cons, encodeChars_append,
          dropWhile_separator_escapeChar space]

/-! ## Numbers -/

theorem toNat_of_isDigit {c : Char} (digit : c.isDigit = true) :
    0x30 ≤ c.toNat ∧ c.toNat ≤ 0x39 := by
  simpa [Char.isDigit, UInt32.le_iff_toNat_le] using digit

section Number

variable {digits : List Char} (allDigits : ∀ c ∈ digits, c.isDigit = true)

include allDigits

theorem encodeChars_digits :
    encodeChars digits = digits.map fun c => UInt8.ofNat c.toNat := by
  refine encodeChars_of_ascii fun c member => ?_
  have := toNat_of_isDigit (allDigits c member)
  omega

theorem isDigit_of_mem_encodeChars : ∀ b ∈ encodeChars digits, isDigit b = true := by
  intro b member
  rw [encodeChars_digits allDigits] at member
  obtain ⟨c, digit, rfl⟩ := List.mem_map.mp member
  obtain ⟨low, high⟩ := toNat_of_isDigit (allDigits c digit)
  have code := toNat_ofNat_of_lt (show c.toNat < 256 by omega)
  simp only [isDigit, UInt8.le_iff_toNat_le, Bool.and_eq_true, decide_eq_true_eq, code]
  exact ⟨low, high⟩

theorem foldl_encodeChars (n : Nat) :
    (encodeChars digits).foldl (fun n b => 10 * n + (b.toNat - 0x30)) n =
      Nat.ofDigitChars 10 digits n := by
  rw [encodeChars_digits allDigits, List.foldl_map]
  induction digits generalizing n with
  | nil => rfl
  | cons c digits ih =>
      obtain ⟨digit, rest⟩ := List.forall_mem_cons.mp allDigits
      have bounds := toNat_of_isDigit digit
      rw [List.foldl_cons, ih rest, Nat.ofDigitChars_cons, toNat_ofNat_of_lt (by omega)]
      rfl

end Number

theorem allDigits_toDigits (n : Nat) : ∀ c ∈ Nat.toDigits 10 n, c.isDigit = true :=
  fun _ member => Nat.isDigit_of_mem_toDigits (by decide) (by decide) member

theorem encodeChars_toDigits_ne_nil (n : Nat) : encodeChars (Nat.toDigits 10 n) ≠ [] := by
  rw [encodeChars_digits (allDigits_toDigits n)]
  simp

/-- Digits are read as a number if they are all digits there are, and the number is not too large. -/
theorem readNumber_append {digits rest : Bytes} (nonempty : digits ≠ [])
    (all : ∀ b ∈ digits, isDigit b = true) (ends : ∀ b ∈ rest.head?, isDigit b = false) :
    readNumber (digits ++ rest) =
      let n := digits.foldl (fun n b => 10 * n + (b.toNat - 0x30)) 0
      if n < numberBound then some (n, rest) else none := by
  rw [readNumber, takeWhile_append_of_ends all ends, dropWhile_append_of_ends all ends]
  simp only [nonempty, ne_eq, not_false_eq_true, true_and]

theorem readNumber_toDigits {n : Nat} (small : n < numberBound) {b : UInt8}
    (ends : isDigit b = false) (rest : Bytes) :
    readNumber (encodeChars (Nat.toDigits 10 n) ++ b :: rest) = some (n, b :: rest) := by
  have digits := isDigit_of_mem_encodeChars (allDigits_toDigits n)
  have ended : ∀ x ∈ (b :: rest).head?, isDigit x = false :=
    fun x first => Option.some.inj first ▸ ends
  rw [readNumber_append (encodeChars_toDigits_ne_nil n) digits ended,
    foldl_encodeChars (allDigits_toDigits n), Nat.ofDigitChars_ten_toDigits]
  exact if_pos small

theorem isSpace_of_isDigit {b : UInt8} (digit : isDigit b = true) : isSpace b = false := by
  simp only [isDigit, UInt8.le_iff_toNat_le, Bool.and_eq_true, decide_eq_true_eq] at digit
  simp only [isSpace, ← UInt8.toNat_inj, Bool.or_eq_false_iff, decide_eq_false_iff_not]
  simp at digit ⊢
  omega

/-- A number is preceded by blanks only if they were written. -/
theorem dropWhile_isSpace_toDigits (n : Nat) (rest : Bytes) :
    (encodeChars (Nat.toDigits 10 n) ++ rest).dropWhile isSpace =
      encodeChars (Nat.toDigits 10 n) ++ rest := by
  have digits := isDigit_of_mem_encodeChars (allDigits_toDigits n)
  exact dropWhile_append_of_none (encodeChars_toDigits_ne_nil n)
    (fun b member => isSpace_of_isDigit (digits b member)) rest

/-! ## Lines -/

/-- What a cell's line holds before its end. -/
def lineOf (row column : Nat) (text : List Char) : List Char :=
  Nat.toDigits 10 row ++ ' ' :: (Nat.toDigits 10 column ++ ' ' :: escape text)

theorem writeCell_eq (a : Address) (t : CellText) :
    writeCell a t = lineOf a.row.val a.column.val t.chars ++ ['\n'] := by
  simp only [writeCell, lineOf, List.append_assoc, List.cons_append]

theorem readLine_lineOf {row column : Nat} (rowSmall : row < numberBound)
    (columnSmall : column < numberBound) (text : List Char) :
    readLine (encodeChars (lineOf row column text)) =
      some ⟨row, column, .ofString (String.ofList (text.dropWhile (· = ' ')))⟩ := by
  have space (cs : List Char) : encodeChars (' ' :: cs) = 0x20 :: encodeChars cs := rfl
  have noDigit : isDigit 0x20 = false := rfl
  have isSpaceSpace : isSpace 0x20 = true := rfl
  have isSeparatorSpace : isSeparator 0x20 = true := rfl
  rw [lineOf, encodeChars_append, space, encodeChars_append, space, readLine,
    dropWhile_isSpace_toDigits, readNumber_toDigits rowSmall noDigit]
  simp only [Option.bind_eq_bind, Option.bind_some]
  rw [List.dropWhile_cons_of_pos isSpaceSpace, dropWhile_isSpace_toDigits,
    readNumber_toDigits columnSmall noDigit]
  simp only [Option.bind_some]
  rw [List.dropWhile_cons_of_pos isSeparatorSpace, dropWhile_separator_escape, unescape_escape,
    decode_encodeChars]
  rfl

theorem newline_not_mem_lineOf (row column : Nat) (text : List Char) :
    '\n' ∉ lineOf row column text := by
  have digits (n : Nat) : '\n' ∉ Nat.toDigits 10 n := fun member =>
    absurd (allDigits_toDigits n '\n' member) (by decide)
  simp [lineOf, digits, newline_not_mem_escape]

theorem lines_append {l : Bytes} (oneLine : 0x0a ∉ l) (rest : Bytes) :
    lines (l ++ 0x0a :: rest) = l :: lines rest := by
  induction l with
  | nil => rfl
  | cons b l ih =>
      obtain ⟨other, later⟩ := not_or.mp (mt List.mem_cons.mpr oneLine)
      rw [List.cons_append, lines, if_neg (Ne.symm other), ih later]

theorem lines_flatMap {α : Type} (f : α → Bytes) (oneLine : ∀ x, 0x0a ∉ f x) (xs : List α) :
    lines (xs.flatMap fun x => f x ++ [0x0a]) = xs.map f := by
  induction xs with
  | nil => rfl
  | cons x xs ih =>
      rw [List.flatMap_cons, List.append_assoc, List.singleton_append, lines_append (oneLine x), ih,
        List.map_cons]

end Worksheet.SheetFile
