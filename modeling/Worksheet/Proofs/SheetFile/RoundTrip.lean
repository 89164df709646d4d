import Worksheet.Proofs.SheetFile.Line
import Worksheet.Sheet

/-!
Writing a sheet and reading it back.

A written file has one line for each cell that is not empty, and each line stores its cell again.
`parse_write` says what comes back: every text less the spaces that it starts with. Escapes may
double the length of a text, but reading undoes them before it cuts the text to the capacity, so
nothing is lost at the end.
-/

namespace Worksheet

namespace CellText

/-- A text without the spaces that it starts with. -/
def dropSpaces (t : CellText) : CellText where
  text := String.ofList (t.chars.dropWhile (· = ' '))
  size_le := by
    have whole := t.size_le
    rw [← String.ofList_toList (s := t.text), ← chars,
      ← List.takeWhile_append_dropWhile (p := (· = ' ')) (l := t.chars), String.ofList_append,
      String.utf8ByteSize_append] at whole
    omega

theorem ofString_dropWhile (t : CellText) :
    ofString (String.ofList (t.chars.dropWhile (· = ' '))) = t.dropSpaces :=
  ofString_of_fits t.dropSpaces.size_le

theorem dropSpaces_empty : empty.dropSpaces = empty := rfl

theorem eq_empty_of_isEmpty {t : CellText} (isEmpty : t.isEmpty = true) : t = empty := by
  apply CellText.ext
  exact String.isEmpty_iff.mp isEmpty

theorem dropSpaces_eq_self_iff (t : CellText) : t.dropSpaces = t ↔ t.chars.head? ≠ some ' ' := by
  have sameChars : t.dropSpaces = t ↔ t.chars.dropWhile (· = ' ') = t.chars := by
    rw [CellText.ext_iff, dropSpaces, ← String.toList_inj, String.toList_ofList]
    rfl
  rw [sameChars]
  cases t.chars with
  | nil => simp
  | cons c cs =>
      by_cases space : c = ' '
      · subst space
        refine iff_of_false (fun same => ?_) (by simp)
        have shorter := (List.dropWhile_sublist (· = ' ') (l := cs)).length_le
        have length := congrArg List.length same
        simp at length
        omega
      · simp [space]

end CellText

namespace SheetFile

open Text

theorem ofPair?_row_column (a : Address) : Address.ofPair? a.row.val a.column.val = some a := by
  rw [Address.ofPair?, dif_pos a.row.isLt, dif_pos a.column.isLt]

/-- The bytes of a cell's line, without its end. -/
def lineBytes (cell : Address × CellText) : Bytes :=
  encodeChars (lineOf cell.1.row.val cell.1.column.val cell.2.chars)

namespace Contents

/-- The line of a cell stores its text less the leading spaces. -/
theorem addLine_lineBytes (c : Contents) (a : Address) (t : CellText) :
    c.addLine (lineBytes (a, t)) =
      { c with texts := c.texts.set a t.dropSpaces, stored := c.stored + 1 } := by
  have row : a.row.val < numberBound := Nat.lt_trans a.row.isLt (by decide)
  have column : a.column.val < numberBound := Nat.lt_trans a.column.isLt (by decide)
  rw [addLine, lineBytes, readLine_lineOf row column]
  dsimp only
  rw [ofPair?_row_column, CellText.ofString_dropWhile]

/-- Reading the lines of some cells of a sheet stores these cells and leaves the others. -/
theorem foldl_addLine {texts : Grid CellText} {cells : List (Address × CellText)}
    (taken : ∀ cell ∈ cells, cell.2 = texts.get cell.1) (c : Contents) :
    ((cells.map lineBytes).foldl addLine c).stored = c.stored + cells.length ∧
      ∀ a, ((cells.map lineBytes).foldl addLine c).texts.get a =
        if a ∈ cells.map Prod.fst then (texts.get a).dropSpaces else c.texts.get a := by
  induction cells generalizing c with
  | nil => exact ⟨rfl, fun a => (if_neg List.not_mem_nil).symm⟩
  | cons cell cells ih =>
      obtain ⟨a, t⟩ := cell
      obtain ⟨first, rest⟩ := List.forall_mem_cons.mp taken
      obtain ⟨stored, get⟩ := ih rest (c.addLine (lineBytes (a, t)))
      rw [addLine_lineBytes] at stored get
      rw [List.map_cons, List.foldl_cons, addLine_lineBytes, List.map_cons]
      refine ⟨?_, fun b => ?_⟩
      · rw [stored, List.length_cons]
        dsimp only
        omega
      · rw [get b, Grid.get_set]
        dsimp only at first
        by_cases later : b ∈ cells.map Prod.fst
        · rw [if_pos later, if_pos (List.mem_cons_of_mem _ later)]
        by_cases here : a = b
        · subst here
          rw [if_neg later, if_pos rfl, if_pos List.mem_cons_self, first]
        · have elsewhere : b ∉ a :: cells.map Prod.fst :=
            List.not_mem_cons_of_ne_of_not_mem (Ne.symm here) later
          rw [if_neg later, if_neg here, if_neg elsewhere]

end Contents

theorem lines_write (texts : Grid CellText) :
    lines (encode (write texts)) = (filled texts).map lineBytes := by
  have oneLine (cell : Address × CellText) : 0x0a ∉ lineBytes cell := by
    rw [lineBytes, mem_encodeChars_of_ascii (by decide)]
    rintro ⟨c, member, newline⟩
    have same : c = '\n' := Char.toNat_inj.mp newline.symm
    exact newline_not_mem_lineOf _ _ _ (same ▸ member)
  have bytes : encode (write texts) = (filled texts).flatMap fun cell => lineBytes cell ++ [0x0a] := by
    have ends (cell : Address × CellText) :
        encodeChars (writeCell cell.1 cell.2) = lineBytes cell ++ [0x0a] := by
      rw [writeCell_eq, encodeChars_append]
      rfl
    rw [write, encode_ofList, encodeChars, List.flatMap_assoc, ← funext ends]
    rfl
  rw [bytes, lines_flatMap lineBytes oneLine]

theorem eq_get_of_mem_filled (texts : Grid CellText) :
    ∀ cell ∈ filled texts, cell.2 = texts.get cell.1 := by
  intro cell member
  obtain ⟨a, -, rfl⟩ := List.mem_map.mp (List.mem_filter.mp member).1
  rfl

theorem mem_filled_iff {texts : Grid CellText} {a : Address} :
    a ∈ (filled texts).map Prod.fst ↔ (texts.get a).isEmpty = false := by
  simp only [filled, Grid.toList, List.mem_map, List.mem_filter]
  constructor
  · rintro ⟨_, ⟨⟨b, -, rfl⟩, nonempty⟩, rfl⟩
    simpa using nonempty
  · intro nonempty
    exact ⟨_, ⟨⟨a, a.mem_all, rfl⟩, by simpa using nonempty⟩, rfl⟩

/-- Reading a written file gives every text back, less the spaces that it starts with, and counts
the cells that are not empty. -/
theorem read_write (texts : Grid CellText) :
    (read (encode (write texts))).stored = (filled texts).length ∧
      ∀ a, (read (encode (write texts))).texts.get a = (texts.get a).dropSpaces := by
  obtain ⟨stored, get⟩ := Contents.foldl_addLine (eq_get_of_mem_filled texts) .empty
  rw [read, lines_write, readLines]
  refine ⟨stored.trans (Nat.zero_add _), fun a => ?_⟩
  rw [get a]
  cases blank : (texts.get a).isEmpty with
  | false => rw [if_pos (mem_filled_iff.mpr blank)]
  | true =>
      rw [if_neg fun member => by simp [mem_filled_iff.mp member] at blank,
        CellText.eq_empty_of_isEmpty blank, CellText.dropSpaces_empty]
      exact Grid.get_fill _ a

/-- A written file names no place outside the grid. -/
theorem outside_read_write (texts : Grid CellText) :
    (read (encode (write texts))).outside = [] := by
  have kept (cells : List (Address × CellText)) (c : Contents) :
      ((cells.map lineBytes).foldl Contents.addLine c).outside = c.outside := by
    induction cells generalizing c with
    | nil => rfl
    | cons cell cells ih =>
        rw [List.map_cons, List.foldl_cons, ih, Contents.addLine_lineBytes]
  rw [read, lines_write, readLines, kept, Contents.empty]

end SheetFile

namespace Sheet

/-- Whatever a sheet held before, after it has taken a written file it holds the texts written, less
the spaces that they start with, and it has counted the cells that were not empty. So the texts are
those written exactly if none of them starts with a space. -/
theorem parse_write (s : Sheet) (texts : Grid CellText) :
    let (contents, after) := s.parse (Text.encode (SheetFile.write texts))
    (∀ a, after.texts.get a = (texts.get a).dropSpaces) ∧
      contents.stored = (SheetFile.filled texts).length ∧
      (after.texts = texts ↔ ∀ a, (texts.get a).chars.head? ≠ some ' ') := by
  obtain ⟨stored, get⟩ := SheetFile.read_write texts
  refine ⟨get, stored, ?_⟩
  simp only [← CellText.dropSpaces_eq_self_iff, ← get]
  exact ⟨fun same a => congrArg (Grid.get · a) same, Grid.ext_get⟩

end Sheet

end Worksheet
