import Worksheet.Proofs.Numeral.Scanning
import Worksheet.Proofs.SheetFile.RoundTrip

/-!
A written file tells every text.

Reading a file drops the spaces that a text starts with, so it cannot serve to tell files apart. The file
itself loses nothing. It splits at its line feeds into the lines of the cells that are not empty
(`splitOn_write`), a line splits into the row, the column and the escaped text (`lineOf_inj`), and escapes can
be undone (`escape_injective`). So two sheets have one content only if they have the same texts
(`write_inj`).
-/

namespace Worksheet

/-! ## Row-major order -/

theorem Address.index_lt_of_row_lt {a b : Address} (above : a.row < b.row) : a.index < b.index := by
  have row : a.row.val + 1 ≤ b.row.val := above
  have column : a.column.val < 26 := a.column.isLt
  change a.row.val * 26 + a.column.val < b.row.val * 26 + b.column.val
  omega

/-- Within a row the columns increase, and every cell of a row comes before every cell below. -/
theorem Address.pairwise_all : Address.all.Pairwise fun a b => a.index < b.index := by
  refine List.pairwise_flatMap.mpr ⟨fun row _ => ?_, ?_⟩
  · refine List.pairwise_map.mpr ((List.pairwise_lt_finRange columnCount).imp fun {left right} before => ?_)
    exact Nat.add_lt_add_left before _
  · refine (List.pairwise_lt_finRange rowCount).imp fun {above below} before => ?_
    simp only [List.mem_map]
    rintro _ ⟨left, -, rfl⟩ _ ⟨right, -, rfl⟩
    exact index_lt_of_row_lt before

namespace SheetFile

open Text

/-! ## Escapes -/

theorem escape_injective : Function.Injective escape := by
  intro cs ds same
  have undone := congrArg (fun written => decode (unescape (encodeChars written))) same
  rwa [unescape_escape, unescape_escape, decode_encodeChars, decode_encodeChars] at undone

theorem tab_not_mem_escape (cs : List Char) : '\t' ∉ escape cs := by
  intro member
  obtain ⟨c, -, member⟩ := List.mem_flatMap.mp member
  rcases escapeChar_cases c with ⟨rfl | rfl | rfl, -⟩ | ⟨-, -, other, plain⟩
  · simp [escapeChar] at member
  · simp [escapeChar] at member
  · simp [escapeChar] at member
  · rw [plain, List.mem_singleton] at member
    exact other member.symm

/-! ## Lines -/

/-- A number ends where its digits do. -/
theorem toDigits_space_inj {n m : Nat} {rest later : List Char}
    (same : Nat.toDigits 10 n ++ ' ' :: rest = Nat.toDigits 10 m ++ ' ' :: later) :
    n = m ∧ rest = later := by
  have ends (cs : List Char) : ∀ c, (' ' :: cs).head? = some c → c.isDigit = false := by
    intro c first
    cases first
    rfl
  have digits := congrArg (List.takeWhile Char.isDigit) same
  have behind := congrArg (List.dropWhile Char.isDigit) same
  rw [Numeral.takeWhile_digits (allDigits_toDigits n) (ends rest),
    Numeral.takeWhile_digits (allDigits_toDigits m) (ends later)] at digits
  rw [Numeral.dropWhile_digits (allDigits_toDigits n) (ends rest),
    Numeral.dropWhile_digits (allDigits_toDigits m) (ends later)] at behind
  have number := congrArg (Nat.ofDigitChars 10 · 0) digits
  rw [Nat.ofDigitChars_ten_toDigits, Nat.ofDigitChars_ten_toDigits] at number
  exact ⟨number, (List.cons.inj behind).2⟩

theorem lineOf_inj {row column row' column' : Nat} {text text' : List Char}
    (same : lineOf row column text = lineOf row' column' text') :
    row = row' ∧ column = column' ∧ text = text' := by
  obtain ⟨sameRow, later⟩ := toDigits_space_inj same
  obtain ⟨sameColumn, escaped⟩ := toDigits_space_inj later
  exact ⟨sameRow, sameColumn, escape_injective escaped⟩

theorem tab_not_mem_lineOf (row column : Nat) (text : List Char) : '\t' ∉ lineOf row column text := by
  have digits (n : Nat) : '\t' ∉ Nat.toDigits 10 n := fun member =>
    absurd (allDigits_toDigits n '\t' member) (by decide)
  simp [lineOf, digits, tab_not_mem_escape]

/-- The line of a cell of a sheet, without its end. -/
def lineAt (texts : Grid CellText) (a : Address) : List Char :=
  lineOf a.row.val a.column.val (texts.get a).chars

theorem lineAt_inj {texts others : Grid CellText} {a b : Address}
    (same : lineAt texts a = lineAt others b) : a = b ∧ texts.get a = others.get b := by
  obtain ⟨row, column, text⟩ := lineOf_inj same
  refine ⟨Address.index_injective (Fin.ext ?_), CellText.ext (String.toList_inj.mp text)⟩
  change a.row.val * columnCount + a.column.val = b.row.val * columnCount + b.column.val
  rw [row, column]

/-! ## Files -/

/-- The addresses of the cells that are not empty. -/
def places (texts : Grid CellText) : List Address :=
  (filled texts).map Prod.fst

theorem pairwise_places (texts : Grid CellText) :
    (places texts).Pairwise fun a b => a.index < b.index := by
  unfold places filled Grid.toList
  exact List.pairwise_map.mpr (.filter _ (List.pairwise_map.mpr Address.pairwise_all))

theorem mem_places_iff {texts : Grid CellText} {a : Address} :
    a ∈ places texts ↔ (texts.get a).text ≠ "" := by
  rw [places, mem_filled_iff, CellText.isEmpty, ← Bool.not_eq_true, String.isEmpty_iff]

theorem toList_write (texts : Grid CellText) :
    (write texts).toList = (places texts).flatMap fun a => lineAt texts a ++ ['\n'] := by
  have lines : ∀ cell ∈ filled texts, writeCell cell.1 cell.2 = lineAt texts cell.1 ++ ['\n'] := by
    intro cell member
    rw [writeCell_eq, eq_get_of_mem_filled texts cell member, lineAt]
  rw [write, String.toList_ofList, places, List.flatMap_map, List.flatMap_def, List.flatMap_def,
    List.map_congr_left lines]

/-- What ends in a separator each time is split by it again. -/
theorem splitOn_flatMap {α : Type} (separator : Char) (f : α → List Char)
    (none : ∀ x, separator ∉ f x) (xs : List α) :
    (xs.flatMap fun x => f x ++ [separator]).splitOn separator = xs.map f ++ [[]] := by
  induction xs with
  | nil => rfl
  | cons x xs ih =>
      have others : ∀ c ∈ f x, (c == separator) = false := by
        intro c member
        rw [beq_eq_false_iff_ne]
        rintro rfl
        exact none x member
      rw [List.flatMap_cons, List.append_assoc, List.singleton_append, List.splitOn,
        List.splitOnP_append_cons_of_forall_mem others separator (beq_self_eq_true separator)]
      exact congrArg (f x :: ·) ih

theorem splitOn_write (texts : Grid CellText) :
    (write texts).toList.splitOn '\n' = (places texts).map (lineAt texts) ++ [[]] := by
  rw [toList_write]
  exact splitOn_flatMap '\n' (lineAt texts) (fun a => newline_not_mem_lineOf _ _ _) (places texts)

theorem tab_not_mem_write (texts : Grid CellText) : '\t' ∉ (write texts).toList := by
  rw [toList_write, List.mem_flatMap]
  rintro ⟨a, -, member⟩
  rcases List.mem_append.mp member with line | newline
  · exact tab_not_mem_lineOf _ _ _ line
  · exact absurd (List.mem_singleton.mp newline) (by decide)

/-- A cell with a text has its line in the other file too, which is the line of a cell with that text. -/
theorem get_eq_of_write_eq {texts others : Grid CellText} (same : write texts = write others)
    {a : Address} (some : a ∈ places texts) : others.get a = texts.get a := by
  have lines := congrArg (fun content => content.toList.splitOn '\n') same
  rw [splitOn_write, splitOn_write] at lines
  have line : lineAt texts a ∈ (places others).map (lineAt others) := by
    rw [← List.append_cancel_right lines]
    exact List.mem_map_of_mem some
  obtain ⟨b, -, sameLine⟩ := List.mem_map.mp line
  obtain ⟨rfl, text⟩ := lineAt_inj sameLine
  exact text

theorem write_inj {texts others : Grid CellText} : write texts = write others ↔ texts = others := by
  refine ⟨fun same => Grid.ext_get fun a => ?_, congrArg write⟩
  by_cases left : a ∈ places texts
  · exact (get_eq_of_write_eq same left).symm
  by_cases right : a ∈ places others
  · exact get_eq_of_write_eq same.symm right
  · rw [mem_places_iff, not_not] at left right
    exact CellText.ext (left.trans right.symm)

end SheetFile

namespace Sheet

theorem sameTexts_iff {s t : Sheet} : s.sameTexts t = true ↔ s.texts = t.texts := by
  rw [sameTexts, List.all_eq_true]
  constructor
  · intro same
    exact Grid.ext_get fun a => of_decide_eq_true (same a a.mem_all)
  · rintro same a -
    rw [same, decide_eq_true_iff]

/-- Two sheets have the same content if and only if they have the same texts. A content has one line for each
cell that is not empty, in strictly increasing row-major order: splitting it at all its line feeds gives these
lines, each ended by a line feed, and nothing behind the last of them. There is no tab in it. -/
theorem content_identifies (s t : Sheet) :
    (s.content = t.content ↔ s.sameTexts t = true) ∧
      ∃ places : List Address,
        (places.Pairwise fun a b => a.index < b.index) ∧
          (∀ a, a ∈ places ↔ s.text a ≠ "") ∧
          s.content.toList.splitOn '\n' =
            (places.map fun a => Nat.toDigits 10 a.row.val ++ ' ' ::
              (Nat.toDigits 10 a.column.val ++ ' ' :: SheetFile.escape (s.text a).toList)) ++ [[]] ∧
          '\t' ∉ s.content.toList := by
  refine ⟨SheetFile.write_inj.trans sameTexts_iff.symm, SheetFile.places s.texts,
    SheetFile.pairwise_places s.texts, ?_, SheetFile.splitOn_write s.texts,
    SheetFile.tab_not_mem_write s.texts⟩
  intro a
  exact SheetFile.mem_places_iff

end Sheet

end Worksheet
