import Worksheet.Proofs.Screen.Layout

/-!
A cell fills its column.

Fitting leaves a text alone if there is room for it, and what has been fitted has room (`fitToWidth_eq_self_iff`,
`length_fitToWidth_le`). A column is what has been fitted, padded on one of its sides to all places but the last,
and a blank (`columnContent_eq`). So the cells that are drawn side by side, whatever they show, stand apart
(`Frame.cells_apart`).
-/

namespace Worksheet

/-! ## Fitting -/

section Fitting

variable {cs : List Char} {width : Nat}

theorem fitToWidth_of_fits (fits : cs.length ≤ width - 1) : fitToWidth cs width = cs :=
  if_pos fits

theorem fitToWidth_of_long (long : width - 1 < cs.length) (room : 1 < width) :
    fitToWidth cs width = cs.take (width - 2) ++ ['…'] := by
  have some : width - 1 ≠ 0 := by omega
  unfold fitToWidth
  dsimp only
  rw [if_neg (Nat.not_le.mpr long), if_neg some, Nat.sub_sub]

theorem fitToWidth_eq_self_iff : fitToWidth cs width = cs ↔ cs.length ≤ width - 1 := by
  constructor
  · intro same
    have short := length_fitToWidth_le cs width
    rwa [same] at short
  · exact fitToWidth_of_fits

theorem fitToWidth_fitToWidth (cs : List Char) (width : Nat) :
    fitToWidth (fitToWidth cs width) width = fitToWidth cs width :=
  fitToWidth_of_fits (length_fitToWidth_le cs width)

end Fitting

/-! ## Padding -/

/-- Pads characters to `width`, numbers on the left and anything else on the right. -/
def padded (isNumber : Bool) (width : Nat) (cs : List Char) : List Char :=
  if isNumber then cs.leftpad width ' ' else cs.rightpad width ' '

section Padding

variable {isNumber : Bool} {width : Nat} {cs : List Char}

theorem length_padded (short : cs.length ≤ width) : (padded isNumber width cs).length = width := by
  unfold padded
  split
  · rw [List.length_leftpad, Nat.max_eq_left short]
  · rw [List.length_rightpad, Nat.max_eq_left short]

theorem mem_padded {c : Char} (member : c ∈ padded isNumber width cs) : c = ' ' ∨ c ∈ cs := by
  unfold padded List.leftpad List.rightpad at member
  split at member
  · rcases List.mem_append.mp member with blank | own
    · exact .inl (List.eq_of_mem_replicate blank)
    · exact .inr own
  · rcases List.mem_append.mp member with own | blank
    · exact .inr own
    · exact .inl (List.eq_of_mem_replicate blank)

theorem padded_of_full (full : cs.length = width) : padded isNumber width cs = cs := by
  simp [padded, List.leftpad, List.rightpad, full]

/-- Padding on the right to one place more adds a blank. -/
theorem rightpad_succ (short : cs.length ≤ width) :
    cs.rightpad (width + 1) ' ' = cs.rightpad width ' ' ++ [' '] := by
  unfold List.rightpad
  rw [Nat.succ_sub short, List.replicate_succ', List.append_assoc]

end Padding

/-! ## Columns -/

theorem isControl_shown (c : Char) : Text.isControl (Text.shown c) = false := by
  unfold Text.shown
  split
  · rfl
  · next plain => exact eq_false_of_ne_true plain

section Column

variable (shown : String)

/-- What a column holds before its last place. -/
def columnFront : List Char :=
  padded (Numeral.literal? shown.toList).isSome (columnWidth - 1)
    ((fitToWidth shown.toList columnWidth).map Text.shown)

theorem length_fitted_le :
    ((fitToWidth shown.toList columnWidth).map Text.shown).length ≤ columnWidth - 1 := by
  rw [List.length_map]
  exact length_fitToWidth_le _ _

theorem length_columnFront : (columnFront shown).length = columnWidth - 1 :=
  length_padded (length_fitted_le shown)

theorem columnContent_eq : columnContent shown = columnFront shown ++ [' '] := by
  unfold columnContent columnFront padded
  dsimp only
  cases Numeral.literal? shown.toList with
  | some value => rfl
  | none => exact rightpad_succ (length_fitted_le shown)

theorem take_columnContent : (columnContent shown).take (columnWidth - 1) = columnFront shown := by
  rw [columnContent_eq, ← length_columnFront shown, List.take_left]

theorem isControl_columnContent {c : Char} (member : c ∈ columnContent shown) :
    Text.isControl c = false := by
  rw [columnContent_eq, List.mem_append, List.mem_singleton] at member
  rcases member with front | rfl
  · rcases mem_padded front with rfl | fitted
    · rfl
    · obtain ⟨d, -, rfl⟩ := List.mem_map.mp fitted
      exact isControl_shown d
  · rfl

theorem columnFront_of_fits (fits : shown.toList.length ≤ columnWidth - 1) :
    columnFront shown = padded (Numeral.literal? shown.toList).isSome (columnWidth - 1)
      (shown.toList.map Text.shown) := by
  rw [columnFront, fitToWidth_of_fits fits]

theorem columnFront_of_long (long : columnWidth - 1 < shown.toList.length) :
    columnFront shown = (shown.toList.take (columnWidth - 2)).map Text.shown ++ ['…'] := by
  have ellipsis : ['…'].map Text.shown = ['…'] := by decide
  have room : columnWidth - 2 ≤ shown.toList.length := by omega
  rw [columnFront, fitToWidth_of_long long (by decide), List.map_append, ellipsis]
  apply padded_of_full
  rw [List.length_append, List.length_map, List.length_take, Nat.min_eq_left room]
  rfl

theorem getElem?_columnContent_last : (columnContent shown)[columnWidth - 1]? = some ' ' := by
  have front := length_columnFront shown
  rw [columnContent_eq, List.getElem?_append_right front.le, front, Nat.sub_self]
  rfl

end Column

/-! ## Cells side by side -/

theorem length_flatMap_of_length {α β : Type} {f : α → List β} {n : Nat}
    (length : ∀ a, (f a).length = n) (as : List α) : (as.flatMap f).length = n * as.length := by
  induction as with
  | nil => rfl
  | cons a as ih =>
      rw [List.flatMap_cons, List.length_append, length, ih, List.length_cons, Nat.mul_succ, Nat.add_comm]

namespace Frame

variable (cursor : Address) (row : Fin rowCount) (columns : List (Fin columnCount)) (s : Sheet)

theorem fst_cell (a : Address) : (cell cursor a s).1 =
    inked (cellStyle (a = cursor) (s.display a).1) (columnContent (s.display a).1) := by
  unfold cell
  rcases s.display a with ⟨shown, after⟩
  rfl

/-- The cells of a row are drawn as one block each, whatever is evaluated in between. -/
theorem exists_blocks : ∃ blocks : List (Style × String), blocks.length = columns.length ∧
    (cells cursor row columns s).1 = blocks.flatMap fun block => inked block.1 (columnContent block.2) := by
  induction columns generalizing s with
  | nil => exact ⟨[], rfl, rfl⟩
  | cons column columns ih =>
      let a : Address := ⟨row, column⟩
      have here := fst_cell cursor s a
      obtain ⟨blocks, length, drawn⟩ := ih (cell cursor a s).2
      refine ⟨(cellStyle (a = cursor) (s.display a).1, (s.display a).1) :: blocks, ?_, ?_⟩
      · rw [List.length_cons, length, List.length_cons]
      · rw [List.flatMap_cons, ← drawn, ← here, cells]

/-- The cells of a row fill their columns, and the last place of each column is blank. -/
theorem cells_apart :
    (cells cursor row columns s).1.length = columnWidth * columns.length ∧
      ∀ j < columns.length, ∃ style,
        (cells cursor row columns s).1[columnWidth * j + (columnWidth - 1)]? = some (.draw ' ' style) := by
  obtain ⟨blocks, count, drawn⟩ := exists_blocks cursor row columns s
  have width (block : Style × String) : (inked block.1 (columnContent block.2)).length = columnWidth := by
    rw [inked, List.length_map, length_columnContent]
  rw [drawn, ← count]
  constructor
  · exact length_flatMap_of_length width blocks
  · intro j inside
    refine ⟨blocks[j].1, ?_⟩
    rw [getElem?_flatMap_of_length width blocks j (by decide), List.getElem?_eq_getElem inside,
      Option.bind_some, inked, List.getElem?_map, getElem?_columnContent_last, Option.map_some]

end Frame

/-- Whatever a cell shows fills its column of ten places, the last of which is blank, and has no control
codes. If it has at most nine characters all of them are there, and if it has more the first eight and an
ellipsis. So the cells of a row, which are drawn side by side, never touch. Fitting into a column of any
width leaves the last place free, and changes what is too long and nothing else. -/
theorem columnContent_fills (shown : String) :
    ((columnContent shown).length = 10 ∧ (columnContent shown).getLast? = some ' ' ∧
        ∀ c ∈ columnContent shown, Text.isControl c = false) ∧
      (shown.toList.length ≤ 9 → (columnContent shown).take 9 =
        if (Numeral.literal? shown.toList).isSome then (shown.toList.map Text.shown).leftpad 9 ' '
        else (shown.toList.map Text.shown).rightpad 9 ' ') ∧
      (9 < shown.toList.length →
        (columnContent shown).take 9 = (shown.toList.take 8).map Text.shown ++ ['…']) ∧
      (∀ (cursor : Address) (row : Fin rowCount) (columns : List (Fin columnCount)) (s : Sheet),
        let glyphs := (Frame.cells cursor row columns s).1
        glyphs.length = 10 * columns.length ∧
          ∀ j < columns.length, ∃ style, glyphs[10 * j + 9]? = some (.draw ' ' style)) ∧
      ∀ (cs : List Char) (width : Nat),
        (fitToWidth cs width).length ≤ width - 1 ∧
          (fitToWidth cs width = cs ↔ cs.length ≤ width - 1) ∧
          fitToWidth (fitToWidth cs width) width = fitToWidth cs width := by
  have ends : (columnContent shown).getLast? = some ' ' := by
    rw [columnContent_eq, List.getLast?_concat]
  refine ⟨⟨length_columnContent shown, ends, fun c => isControl_columnContent shown⟩, ?_, ?_,
    Frame.cells_apart, ?_⟩
  · intro fits
    exact (take_columnContent shown).trans (columnFront_of_fits shown fits)
  · intro long
    exact (take_columnContent shown).trans (columnFront_of_long shown long)
  · intro cs width
    exact ⟨length_fitToWidth_le cs width, fitToWidth_eq_self_iff, fitToWidth_fitToWidth cs width⟩

end Worksheet
