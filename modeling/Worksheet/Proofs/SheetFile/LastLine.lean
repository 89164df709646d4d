import Worksheet.Proofs.CellText.Cut
import Worksheet.Proofs.SheetFile.RoundTrip
import Worksheet.Proofs.Text.Lossy
import Mathlib.Data.Nat.Digits.Defs

/-!
Which line of a file counts.

A line stores a text in a cell if it has the parts of such a line, whatever the length of its numbers
(`Stores`). `stores_iff` says that these are the lines that are read, so the bound on numbers shuts out none
of them. Of the lines for one cell the last one counts, and no other line does (`parse_lastLine`).
-/

namespace Worksheet.SheetFile

open Text

/-! ## The parts of a line -/

/-- The number that digits write, however many they are. -/
def number (digits : Bytes) : Nat :=
  Nat.ofDigits 10 (digits.reverse.map fun b => b.toNat - 0x30)

/-- The parts of a line, in their order. -/
structure Parts where
  margin : Bytes
  row : Bytes
  gap : Bytes
  column : Bytes
  separator : Bytes
  payload : Bytes

namespace Parts

def line (p : Parts) : Bytes :=
  p.margin ++ (p.row ++ (p.gap ++ (p.column ++ (p.separator ++ p.payload))))

/-- White space, digits, white space, digits, and then spaces and tabs before the payload; each part goes
on for as long as it can. -/
structure Proper (p : Parts) : Prop where
  margin : ∀ b ∈ p.margin, isSpace b = true
  row : p.row ≠ [] ∧ ∀ b ∈ p.row, isDigit b = true
  gap : p.gap ≠ [] ∧ ∀ b ∈ p.gap, isSpace b = true
  column : p.column ≠ [] ∧ ∀ b ∈ p.column, isDigit b = true
  column_ends : ∀ b ∈ (p.separator ++ p.payload).head?, isDigit b = false
  separator : ∀ b ∈ p.separator, isSeparator b = true
  payload : ∀ b ∈ p.payload.head?, isSeparator b = false

end Parts

/-- A line that stores a text in a cell: its numbers are the cell's row and column, and the payload,
unescaped and decoded, is cut to the text. -/
def Stores (line : Bytes) (a : Address) (t : CellText) : Prop :=
  ∃ p : Parts, p.Proper ∧ p.line = line ∧ number p.row = a.row.val ∧ number p.column = a.column.val ∧
    ∃ cs, Lossy (unescape p.payload) cs ∧ t.CutOf (String.ofList cs)

/-! ## Reading the parts -/

theorem foldl_eq_number (digits : Bytes) :
    digits.foldl (fun n b => 10 * n + (b.toNat - 0x30)) 0 = number digits := by
  rw [number, Nat.ofDigits_eq_foldr, List.foldr_map, List.foldr_reverse]
  refine congrArg (fun f => digits.foldl f 0) (funext fun n => funext fun b => ?_)
  exact Nat.add_comm _ _

theorem readNumber_digits {digits rest : Bytes} (all : digits ≠ [] ∧ ∀ b ∈ digits, isDigit b = true)
    (ends : ∀ b ∈ rest.head?, isDigit b = false) (small : number digits < numberBound) :
    readNumber (digits ++ rest) = some (number digits, rest) := by
  rw [readNumber_append all.1 all.2 ends, foldl_eq_number]
  exact if_pos small

theorem of_readNumber {bs rest : Bytes} {n : Nat} (read : readNumber bs = some (n, rest)) :
    ∃ digits, digits ++ rest = bs ∧ (digits ≠ [] ∧ ∀ b ∈ digits, isDigit b = true) ∧
      (∀ b ∈ rest.head?, isDigit b = false) ∧ number digits = n := by
  obtain ⟨whole, all, ends⟩ := span_spec isDigit bs
  unfold readNumber at read
  dsimp only at read
  split at read
  · next found =>
      cases read
      exact ⟨bs.takeWhile isDigit, whole, ⟨found.1, all⟩, ends, (foldl_eq_number _).symm⟩
  · cases read

/-- Digits at the front are no white space. -/
theorem head_digits {digits : Bytes} (all : digits ≠ [] ∧ ∀ b ∈ digits, isDigit b = true)
    (rest : Bytes) : ∀ b ∈ (digits ++ rest).head?, isSpace b = false := by
  obtain ⟨nonempty, digit⟩ := all
  obtain ⟨d, digits, rfl⟩ := List.exists_cons_of_ne_nil nonempty
  exact fun b first => isSpace_of_isDigit (digit b (Option.some.inj first ▸ List.mem_cons_self))

theorem isDigit_of_isSpace {b : UInt8} (space : isSpace b = true) : isDigit b = false :=
  eq_false_of_ne_true fun digit => by simp [isSpace_of_isDigit digit] at space

/-- What stands between two numbers ends the first one. -/
theorem head_gap {gap : Bytes} (all : gap ≠ [] ∧ ∀ b ∈ gap, isSpace b = true) (rest : Bytes) :
    ∀ b ∈ (gap ++ rest).head?, isDigit b = false := by
  obtain ⟨nonempty, space⟩ := all
  obtain ⟨g, gap, rfl⟩ := List.exists_cons_of_ne_nil nonempty
  exact fun b first => isDigit_of_isSpace (space b (Option.some.inj first ▸ List.mem_cons_self))

theorem Parts.Proper.readLine {p : Parts} (proper : p.Proper) (row : number p.row < numberBound)
    (column : number p.column < numberBound) : readLine p.line =
      some ⟨number p.row, number p.column, .ofString (String.ofList (decode (unescape p.payload)))⟩ := by
  unfold SheetFile.readLine
  dsimp only
  rw [Parts.line, dropWhile_append_of_ends proper.margin (head_digits proper.row _),
    readNumber_digits proper.row (head_gap proper.gap _) row]
  simp only [Option.bind_eq_bind, Option.bind_some]
  rw [dropWhile_append_of_ends proper.gap.2 (head_digits proper.column _),
    readNumber_digits proper.column proper.column_ends column]
  simp only [Option.bind_some]
  rw [dropWhile_append_of_ends proper.separator proper.payload]
  rfl

theorem of_readLine {line : Bytes} {l : Line} (read : readLine line = some l) :
    ∃ p : Parts, p.Proper ∧ p.line = line ∧ number p.row = l.row ∧ number p.column = l.column ∧
      l.text = .ofString (String.ofList (decode (unescape p.payload))) := by
  unfold SheetFile.readLine at read
  dsimp only [Option.bind_eq_bind] at read
  obtain ⟨⟨row, afterRow⟩, first, read⟩ := Option.bind_eq_some_iff.mp read
  obtain ⟨⟨column, afterColumn⟩, second, read⟩ := Option.bind_eq_some_iff.mp read
  cases read
  obtain ⟨whole, margin, -⟩ := span_spec isSpace line
  obtain ⟨rowDigits, rowWhole, rowAll, rowEnds, rowNumber⟩ := of_readNumber first
  obtain ⟨gapWhole, gap, -⟩ := span_spec isSpace afterRow
  obtain ⟨columnDigits, columnWhole, columnAll, columnEnds, columnNumber⟩ := of_readNumber second
  obtain ⟨separatorWhole, separator, payload⟩ := span_spec isSeparator afterColumn
  have gapSome : afterRow.takeWhile isSpace ≠ [] := by
    intro none
    -- without a gap the row's digits would go on
    rw [none, List.nil_append, ← columnWhole] at gapWhole
    obtain ⟨d, digits, some⟩ := List.exists_cons_of_ne_nil columnAll.1
    rw [← gapWhole, some] at rowEnds
    have digit := columnAll.2 d (some ▸ List.mem_cons_self)
    rw [rowEnds d rfl] at digit
    cases digit
  refine ⟨⟨_, rowDigits, _, columnDigits, _, _⟩,
    ⟨margin, rowAll, ⟨gapSome, gap⟩, columnAll, ?_, separator, payload⟩, ?_, rowNumber,
    columnNumber, rfl⟩
  · rw [separatorWhole]
    exact columnEnds
  · rw [Parts.line, separatorWhole, columnWhole, gapWhole, rowWhole, whole]

/-! ## Lines that are stored -/

theorem of_ofPair? {row column : Nat} {a : Address} (inside : Address.ofPair? row column = some a) :
    row = a.row.val ∧ column = a.column.val := by
  unfold Address.ofPair? at inside
  split at inside
  · split at inside
    · cases inside
      exact ⟨rfl, rfl⟩
    · cases inside
  · cases inside

/-- The lines that store a text are those that are read and name a cell of the grid. -/
theorem stores_iff {line : Bytes} {a : Address} {t : CellText} : Stores line a t ↔
    ∃ l, readLine line = some l ∧ Address.ofPair? l.row l.column = some a ∧ l.text = t := by
  constructor
  · rintro ⟨p, proper, rfl, row, column, cs, decoded, cut⟩
    have rowSmall : number p.row < numberBound := row ▸ Nat.lt_trans a.row.isLt (by decide)
    have columnSmall : number p.column < numberBound :=
      column ▸ Nat.lt_trans a.column.isLt (by decide)
    refine ⟨_, proper.readLine rowSmall columnSmall, ?_, ?_⟩
    · rw [row, column, ofPair?_row_column]
    · rw [CellText.cutOf_iff.mp cut, lossy_iff.mp decoded]
  · rintro ⟨l, read, inside, rfl⟩
    obtain ⟨p, proper, whole, row, column, text⟩ := of_readLine read
    obtain ⟨rowSame, columnSame⟩ := of_ofPair? inside
    exact ⟨p, proper, whole, row.trans rowSame, column.trans columnSame, _, lossy_decode _,
      CellText.cutOf_iff.mpr text⟩

/-- A line stores at most one text, and in one cell. -/
theorem Stores.unique {line : Bytes} {a b : Address} {t u : CellText} (first : Stores line a t)
    (second : Stores line b u) : a = b ∧ t = u := by
  obtain ⟨l, read, inside, rfl⟩ := stores_iff.mp first
  obtain ⟨m, read', inside', rfl⟩ := stores_iff.mp second
  obtain rfl := Option.some.inj (read.symm.trans read')
  exact ⟨Option.some.inj (inside.symm.trans inside'), rfl⟩

instance (line : Bytes) : Decidable (∃ a t, Stores line a t) :=
  decidable_of_iff (∃ l ∈ readLine line, (Address.ofPair? l.row l.column).isSome = true) <| by
    simp only [stores_iff, Option.isSome_iff_exists]
    constructor
    · rintro ⟨l, read, a, inside⟩
      exact ⟨a, l.text, l, read, inside, rfl⟩
    · rintro ⟨a, _, l, read, inside, -⟩
      exact ⟨l, read, a, inside⟩

/-- Zeros may lead a number, any white space may part the two, and a text that begins with no digit needs
nothing in front of it. -/
example : ∃ a t, Stores (encode "\t007 \x0c3=A1") a t := by decide

namespace Contents

theorem addLine_of_stores {line : Bytes} {a : Address} {t : CellText} (stores : Stores line a t)
    (c : Contents) :
    c.addLine line = { c with texts := c.texts.set a t, stored := c.stored + 1 } := by
  obtain ⟨l, read, inside, rfl⟩ := stores_iff.mp stores
  rw [addLine, read]
  dsimp only
  rw [inside]

theorem addLine_of_not_stores {line : Bytes} (none : ∀ a t, ¬ Stores line a t) (c : Contents) :
    (c.addLine line).texts = c.texts ∧ (c.addLine line).stored = c.stored := by
  unfold addLine
  split
  · exact ⟨rfl, rfl⟩
  next l read =>
  split
  · next a inside => exact absurd (stores_iff.mpr ⟨l, read, inside, rfl⟩) (none a l.text)
  · exact ⟨rfl, rfl⟩

end Contents

/-! ## The last line -/

/-- The text is that of the last line that stores one in the cell, and empty if there is none. -/
def LastStored (ls : List Bytes) (a : Address) (t : CellText) : Prop :=
  (∃ before line later, ls = before ++ line :: later ∧ Stores line a t ∧
    ∀ l ∈ later, ∀ u, ¬ Stores l a u) ∨
  (∀ l ∈ ls, ∀ u, ¬ Stores l a u) ∧ t = .empty

theorem LastStored.here {line : Bytes} {a : Address} {t : CellText} (stores : Stores line a t)
    (ls : List Bytes) : LastStored (ls ++ [line]) a t :=
  .inl ⟨ls, line, [], rfl, stores, nofun⟩

theorem LastStored.earlier {ls : List Bytes} {line : Bytes} {a : Address} {t : CellText}
    (last : LastStored ls a t) (other : ∀ u, ¬ Stores line a u) : LastStored (ls ++ [line]) a t := by
  rcases last with ⟨before, l, later, rfl, stores, none⟩ | ⟨none, rfl⟩
  · refine .inl ⟨before, l, later ++ [line], by simp, stores, fun m member => ?_⟩
    rcases List.mem_append.mp member with early | late
    · exact none m early
    · exact List.mem_singleton.mp late ▸ other
  · refine .inr ⟨fun m member => ?_, rfl⟩
    rcases List.mem_append.mp member with early | late
    · exact none m early
    · exact List.mem_singleton.mp late ▸ other

theorem readLines_append_singleton (ls : List Bytes) (line : Bytes) :
    readLines (ls ++ [line]) = (readLines ls).addLine line := by
  rw [readLines, List.foldl_append]
  rfl

/-- Reading lines leaves in every cell what the last line for it stores, and counts the lines that store
something. -/
theorem lastStored_readLines (ls : List Bytes) :
    (∀ a, LastStored ls a ((readLines ls).texts.get a)) ∧
      (readLines ls).stored = ls.countP fun line => ∃ a t, Stores line a t := by
  induction ls using List.reverseRecOn with
  | nil => exact ⟨fun a => .inr ⟨nofun, Grid.get_fill _ a⟩, rfl⟩
  | append_singleton ls line ih =>
      obtain ⟨texts, stored⟩ := ih
      rw [readLines_append_singleton, List.countP_append, List.countP_singleton, ← stored]
      by_cases some : ∃ a t, Stores line a t
      · obtain ⟨b, t, stores⟩ := some
        rw [Contents.addLine_of_stores stores, if_pos (decide_eq_true ⟨b, t, stores⟩)]
        refine ⟨fun a => ?_, rfl⟩
        rw [Grid.get_set]
        split
        · next here => exact here ▸ .here stores ls
        · next elsewhere => exact (texts a).earlier fun u other => elsewhere (stores.unique other).1
      · have none (a : Address) (t : CellText) (stores : Stores line a t) : False :=
          some ⟨a, t, stores⟩
        obtain ⟨sameTexts, sameStored⟩ := Contents.addLine_of_not_stores none (readLines ls)
        rw [sameTexts, sameStored, if_neg (by simpa using some)]
        exact ⟨fun a => (texts a).earlier (none a), rfl⟩

/-! ## Files -/

/-- The lines of a file are what stands between its line feeds, but for an empty last one. -/
theorem splitOn_eq_or (bs : Bytes) :
    bs.splitOn 0x0a = lines bs ∨ bs.splitOn 0x0a = lines bs ++ [[]] := by
  induction bs with
  | nil => exact .inr rfl
  | cons b bs ih =>
      have some := List.splitOnP_ne_nil (· == 0x0a) bs
      simp only [List.splitOn] at ih ⊢
      rw [List.splitOnP_cons_eq_if_modifyHead, lines]
      by_cases newline : b = 0x0a
      · rw [if_pos (by simpa using newline), if_pos newline]
        exact ih.imp (congrArg ([] :: ·)) (congrArg ([] :: ·))
      · rw [if_neg (by simpa using newline), if_neg newline]
        rcases ih with same | longer
        · rw [same] at some ⊢
          obtain ⟨l, ls, parts⟩ := List.exists_cons_of_ne_nil some
          rw [parts]
          exact .inl rfl
        · rw [longer]
          cases lines bs with
          | nil => exact .inl rfl
          | cons l ls => exact .inr rfl

theorem addLine_of_unread {line : Bytes} (unread : readLine line = none) (c : Contents) :
    c.addLine line = c := by
  rw [Contents.addLine, unread]

theorem readLines_splitOn (bs : Bytes) : readLines (bs.splitOn 0x0a) = read bs := by
  rcases splitOn_eq_or bs with same | longer
  · rw [same, read]
  · rw [longer, readLines_append_singleton, addLine_of_unread rfl, read]

/-- A line that starts, after white space, with a number sign or a minus sign. -/
def Remark (line : Bytes) : Prop :=
  ∃ b ∈ (line.dropWhile isSpace).head?, b = 0x23 ∨ b = 0x2d

theorem Remark.unread {line : Bytes} (remark : Remark line) : readLine line = none := by
  obtain ⟨b, first, sign⟩ := remark
  have other : isDigit b = false := by rcases sign with rfl | rfl <;> rfl
  have digits : (line.dropWhile isSpace).takeWhile isDigit = [] := by
    obtain ⟨rest, parts⟩ := List.head?_eq_some_iff.mp first
    rw [parts, List.takeWhile_cons_of_neg (ne_true_of_eq_false other)]
  have nothing : readNumber (line.dropWhile isSpace) = none := by
    rw [readNumber, digits]
    exact if_neg fun found => found.1 rfl
  unfold SheetFile.readLine
  dsimp only
  rw [nothing]
  rfl

theorem readLines_remark {line : Bytes} (remark : Remark line) (before later : List Bytes) :
    readLines (before ++ line :: later) = readLines (before ++ later) := by
  rw [readLines, readLines, List.foldl_append, List.foldl_append, List.foldl_cons,
    addLine_of_unread remark.unread]

end Worksheet.SheetFile

namespace Worksheet

/-- Whatever a sheet held before, after it has taken a file's content each cell has the text of the last line
that stores one in it, and none if there is no such line; all records are forgotten, and the lines that
store a text have been counted. A line that starts with a number sign or a minus sign stores nothing, and
without it the content would be taken in just the same way. -/
theorem Sheet.parse_lastLine (s : Sheet) (bytes : Text.Bytes) :
    let (contents, after) := s.parse bytes
    let ls := bytes.splitOn 0x0a
    (∀ a, SheetFile.LastStored ls a (after.texts.get a)) ∧ (∀ a, after.record a = .unvisited) ∧
      contents.stored = ls.countP (fun line => ∃ a t, SheetFile.Stores line a t) ∧
      ∀ before line later, ls = before ++ line :: later → SheetFile.Remark line →
        (∀ a t, ¬ SheetFile.Stores line a t) ∧
          ∀ (t : Sheet) (other : Text.Bytes), other.splitOn 0x0a = before ++ later →
            (t.parse other).1 = contents := by
  obtain ⟨texts, stored⟩ := SheetFile.lastStored_readLines (bytes.splitOn 0x0a)
  rw [SheetFile.readLines_splitOn] at texts stored
  refine ⟨texts, fun a => Grid.get_fill _ a, stored, fun before line later parts remark => ⟨?_, ?_⟩⟩
  · intro a t stores
    obtain ⟨l, read, -⟩ := SheetFile.stores_iff.mp stores
    rw [remark.unread] at read
    cases read
  · intro t other without
    change SheetFile.read other = SheetFile.read bytes
    rw [← SheetFile.readLines_splitOn other, ← SheetFile.readLines_splitOn bytes, without, parts,
      SheetFile.readLines_remark remark]

end Worksheet
