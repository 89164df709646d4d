import Worksheet.Proofs.Evaluation.Queries
import Worksheet.Proofs.Screen.Layout
import Worksheet.Proofs.Session.Messages

/-!
A frame is a window on the recomputed sheet.

Cells are evaluated while they are drawn, and the sheet goes from cell to cell. Within a pass every cell
shows what it would show after a recompute of all texts, so a line of the frame is made of blocks that
depend on the texts alone (`Frame.cells_inPass`, `Frame.rows_inPass`). Blocks stand side by side, each under
its column's letter and beside its row's number, and nothing else is drawn above the last line
(`IsWindow`, `Frame.isWindow_picture`). Every character takes one place.
-/

namespace Worksheet

/-! ## What cells show -/

namespace Sheet

/-- What a cell shows once every cell has been evaluated. -/
def shownBy (texts : Grid CellText) (a : Address) : String :=
  Worksheet.display (texts.get a) ((Records.recompute texts).get a)

theorem InPass.display {texts : Grid CellText} {S : Solution texts} {s : Sheet} (pass : s.InPass S)
    (a : Address) : (s.display a).1 = shownBy texts a ∧ (s.display a).2.InPass S := by
  obtain ⟨after, settled⟩ := pass.visit a
  refine ⟨?_, after⟩
  rw [Sheet.display, settled, after.texts_eq, shownBy, Records.get_recompute S]

end Sheet

namespace Frame

open Sheet (shownBy)

/-- The block of a cell. -/
def block (texts : Grid CellText) (cursor a : Address) : InkLine :=
  inked (cellStyle (a = cursor) (shownBy texts a)) (columnContent (shownBy texts a))

/-- The line of a row. -/
def rowLine (texts : Grid CellText) (cursor : Address) (columns : List (Fin columnCount))
    (row : Fin rowCount) : InkLine :=
  inked (labelStyle (row = cursor.row)) (rowHeading row) ++
    columns.flatMap fun column => block texts cursor ⟨row, column⟩

section Pass

variable {texts : Grid CellText} {S : Solution texts} {s : Sheet}

theorem cells_inPass (pass : s.InPass S) (cursor : Address) (row : Fin rowCount)
    (columns : List (Fin columnCount)) :
    (cells cursor row columns s).1 = (columns.flatMap fun column => block texts cursor ⟨row, column⟩) ∧
      (cells cursor row columns s).2.InPass S := by
  induction columns generalizing s with
  | nil => exact ⟨rfl, pass⟩
  | cons column columns ih =>
      obtain ⟨shown, between⟩ := pass.display ⟨row, column⟩
      obtain ⟨rest, after⟩ := ih between
      rw [cells, cell]
      dsimp only
      rw [List.flatMap_cons, rest, block, shown]
      exact ⟨rfl, after⟩

theorem rows_inPass (pass : s.InPass S) (cursor : Address) (columns : List (Fin columnCount))
    (places : List (Fin rowCount)) :
    (rows cursor columns places s).1 = places.map (rowLine texts cursor columns) ∧
      (rows cursor columns places s).2.InPass S := by
  induction places generalizing s with
  | nil => exact ⟨rfl, pass⟩
  | cons row places ih =>
      obtain ⟨line, between⟩ := cells_inPass pass cursor row columns
      obtain ⟨rest, after⟩ := ih between
      rw [rows]
      dsimp only
      rw [List.map_cons, rest, rowLine, line]
      exact ⟨rfl, after⟩

end Pass

/-- The lines of a frame that begins a pass. -/
theorem grid_draw (e : Editor) : (draw e.beginPass).1.grid =
    header e :: (e.rows.visible rowCount).map
      (rowLine e.sheet.texts e.cursor (e.columns.visible columnCount)) := by
  obtain ⟨S⟩ := exists_solution e.sheet.texts
  have started := Sheet.beginPass_inPass e.sheet S
  rw [← (rows_inPass started e.cursor (e.columns.visible columnCount) (e.rows.visible rowCount)).1]
  rfl

/-! ## What is drawn at a place -/

/-- What a frame has at a column of one of its lines. -/
def inkAt (f : Frame) (x y : Nat) : Ink :=
  (f.grid[y]?.bind fun inks => inks[x]?).getD .none

theorem ink_of_uncovered {help : Bool} {width height x y : Nat}
    (uncovered : help = true → Help.ink width height x y = .none) (grid : Array (Array Ink))
    (last : Array Ink) :
    ink grid last help width height x y = ink grid last false width height x y := by
  cases help with
  | false => rfl
  | true =>
      unfold ink
      rw [uncovered rfl]
      rfl

theorem get_paint_blank {f : Frame} {width height x y : Nat}
    (uncovered : f.help = true → Help.ink width height x y = .none) (column : x < width)
    (line : y + 1 < height) :
    (f.paint (.blank width height)).get x y = (f.inkAt x y).apply .blank := by
  have inside : y < height := by omega
  unfold paint
  dsimp only
  have above : ¬(0 < y ∧ y + 1 = height) := fun last => Nat.ne_of_lt line last.2
  have drawn : (f.grid.map List.toArray).toArray.getD y #[] = (f.grid[y]?.getD []).toArray := by
    rw [Array.getD_eq_getD_getElem?, List.getElem?_toArray, List.getElem?_map]
    cases f.grid[y]? with
    | none | some => rfl
  rw [Canvas.get_paint _ _ column inside, Canvas.get_blank]
  change Ink.apply _ (ink _ _ _ width height x y) = _
  rw [ink_of_uncovered uncovered, ink, if_neg Bool.false_ne_true, if_neg above, drawn,
    Array.getD_eq_getD_getElem?, List.getElem?_toArray, inkAt]
  cases f.grid[y]? with
  | none | some => rfl

/-- Every block of a line stands at a place of its own. -/
theorem getElem?_line {label : InkLine} (labelled : label.length = Editor.labelWidth)
    {part : Fin columnCount → InkLine} (lengths : ∀ column, (part column).length = columnWidth)
    (columns : List (Fin columnCount)) (j : Nat) {k : Nat} (inside : k < columnWidth) :
    (label ++ columns.flatMap part)[Editor.labelWidth + columnWidth * j + k]? =
      columns[j]?.bind fun column => (part column)[k]? := by
  rw [List.getElem?_append_right (by omega), labelled, Nat.add_assoc, Nat.add_sub_cancel_left,
    getElem?_flatMap_of_length lengths columns j inside]

section Places

variable (e : Editor) {i j k : Nat}

/-- Left of the letters the header is blank. -/
theorem inkAt_corner (inside : k < Editor.labelWidth) :
    ((draw e.beginPass).1.inkAt k 0).apply .blank = .blank := by
  rw [inkAt, grid_draw, List.getElem?_cons_zero, Option.bind_some, header,
    List.getElem?_append_left (by exact inside)]
  unfold Editor.labelWidth at inside
  match k, inside with
  | 0, _ | 1, _ | 2, _ | 3, _ => rfl

theorem inkAt_header (j : Nat) (inside : k < columnWidth) :
    (draw e.beginPass).1.inkAt (Editor.labelWidth + columnWidth * j + k) 0 =
      ((e.columns.visible columnCount)[j]?.bind fun column =>
        (inked (labelStyle (column = e.cursor.column)) (columnHeading column))[k]?).getD .none := by
  rw [inkAt, grid_draw, List.getElem?_cons_zero, Option.bind_some, header, getElem?_line rfl _ _ j inside]
  intro column
  rw [length_inked, length_columnHeading]

theorem inkAt_row (i x : Nat) : (draw e.beginPass).1.inkAt x (1 + i) =
    ((e.rows.visible rowCount)[i]?.bind fun row =>
      (rowLine e.sheet.texts e.cursor (e.columns.visible columnCount) row)[x]?).getD .none := by
  rw [inkAt, grid_draw, Nat.add_comm, List.getElem?_cons_succ, List.getElem?_map, Option.bind_map]
  rfl

theorem getElem?_rowLine_number (texts : Grid CellText) (cursor : Address)
    (columns : List (Fin columnCount)) (row : Fin rowCount) (inside : k < Editor.labelWidth) :
    (rowLine texts cursor columns row)[k]? =
      (inked (labelStyle (row = cursor.row)) (rowHeading row))[k]? := by
  rw [rowLine, List.getElem?_append_left]
  rwa [length_inked, length_rowHeading]

theorem getElem?_rowLine_cell (texts : Grid CellText) (cursor : Address)
    (columns : List (Fin columnCount)) (row : Fin rowCount) (j : Nat) (inside : k < columnWidth) :
    (rowLine texts cursor columns row)[Editor.labelWidth + columnWidth * j + k]? =
      columns[j]?.bind fun column => (block texts cursor ⟨row, column⟩)[k]? := by
  refine getElem?_line ?_ ?_ columns j inside
  · rw [length_inked, length_rowHeading]
  · intro column
    rw [block, length_inked, length_columnContent]

end Places

end Frame

/-! ## Windows -/

/-- The places above the last line where something stands, `i` and `j` being the numbers of a visible row
and a visible column: letters, numbers and cells. -/
inductive Editor.Covers (e : Editor) : Nat → Nat → Prop where
  | letter {column : Fin columnCount} {j k : Nat} (visible : e.columns.Holds j column.val)
      (inside : k < columnWidth) : e.Covers (labelWidth + columnWidth * j + k) 0
  | number {row : Fin rowCount} {i k : Nat} (visible : e.rows.Holds i row.val)
      (inside : k < labelWidth) : e.Covers k (1 + i)
  | cell {a : Address} {i j k : Nat} (row : e.rows.Holds i a.row.val)
      (column : e.columns.Holds j a.column.val) (inside : k < columnWidth) :
      e.Covers (labelWidth + columnWidth * j + k) (1 + i)

/-- Above its last line the screen is a window on cells that show these texts: every visible cell stands
under its column's letter and beside its row's number, there is nothing else, and the style of the cursor
is the cursor's own. -/
structure IsWindow (screen : Canvas) (e : Editor) (shown : Address → String) : Prop where
  room : ∀ {x y}, e.Covers x y → x < screen.width ∧ y + 1 < screen.height
  letter : ∀ {column : Fin columnCount} {j}, e.columns.Holds j column.val →
    screen.strip (Editor.labelWidth + columnWidth * j) 0 columnWidth =
      styled (Frame.labelStyle (column = e.cursor.column)) (Frame.columnHeading column)
  number : ∀ {row : Fin rowCount} {i}, e.rows.Holds i row.val →
    screen.strip 0 (1 + i) Editor.labelWidth =
      styled (Frame.labelStyle (row = e.cursor.row)) (Frame.rowHeading row)
  cell : ∀ {a : Address} {i j}, e.rows.Holds i a.row.val → e.columns.Holds j a.column.val →
    screen.strip (Editor.labelWidth + columnWidth * j) (1 + i) columnWidth =
      styled (Frame.cellStyle (a = e.cursor) (shown a)) (columnContent (shown a))
  blank : ∀ {x y}, x < screen.width → y + 1 < screen.height → ¬e.Covers x y →
    screen.get x y = .blank
  cursor : ∃ i j, e.rows.Holds i e.cursor.row.val ∧ e.columns.Holds j e.cursor.column.val ∧
    ∀ x y, x < screen.width → y + 1 < screen.height →
      ((screen.get x y).style = .cursor ↔
        y = 1 + i ∧ ∃ k < columnWidth, x = Editor.labelWidth + columnWidth * j + k)

namespace Frame

open Sheet (shownBy)

theorem cellStyle_eq_cursor_iff {current : Bool} {shown : String} :
    cellStyle current shown = .cursor ↔ current = true := by
  unfold cellStyle
  cases current with
  | true => exact ⟨fun _ => rfl, fun _ => rfl⟩
  | false =>
      rw [if_neg Bool.false_ne_true]
      split
      · decide
      · decide

theorem labelStyle_ne_cursor (current : Bool) : labelStyle current ≠ .cursor := by
  cases current with
  | true | false => decide

section Picture

variable {e : Editor} {width height : Nat}

theorem get_picture {x y : Nat} (uncovered : e.mode = .help → Help.ink width height x y = .none)
    (column : x < width) (line : y + 1 < height) :
    (picture e width height).get x y = ((draw e.beginPass).1.inkAt x y).apply .blank := by
  refine get_paint_blank (fun help => uncovered ?_) column line
  rw [help_draw] at help
  exact of_decide_eq_true help

/-- All that is visible has room on the screen. -/
theorem room_of_fits (fits : e.view.FitsTo width height)
    (wide : Editor.labelWidth + columnWidth ≤ width) (high : Editor.chromeHeight + 1 ≤ height)
    {x y : Nat} (covers : e.Covers x y) : x < width ∧ y + 1 < height := by
  obtain ⟨columns, lines⟩ := fits.room wide high
  change _ + _ * e.columns.shown ≤ _ at columns
  change e.rows.shown + _ ≤ _ at lines
  unfold Editor.chromeHeight at lines
  cases covers with
  | letter visible inside =>
      have seen := visible.seen
      unfold columnWidth at *
      omega
  | number visible inside =>
      have seen := visible.seen
      omega
  | cell row column inside =>
      have above := row.seen
      have left := column.seen
      unfold columnWidth at *
      omega

theorem glyph_cell {a : Address} {i j k : Nat} (row : e.rows.Holds i a.row.val)
    (column : e.columns.Holds j a.column.val) (inside : k < columnWidth)
    (room : Editor.labelWidth + columnWidth * j + k < width ∧ 1 + i + 1 < height)
    (uncovered : e.mode = .help →
      Help.ink width height (Editor.labelWidth + columnWidth * j + k) (1 + i) = .none) :
    (styled (cellStyle (a = e.cursor) (shownBy e.sheet.texts a))
        (columnContent (shownBy e.sheet.texts a)))[k]? =
      some ((picture e width height).get (Editor.labelWidth + columnWidth * j + k) (1 + i)) := by
  rw [get_picture uncovered room.1 room.2, inkAt_row, Axis.getElem?_visible_eq_some_iff.mpr row,
    Option.bind_some, getElem?_rowLine_cell _ _ _ _ j inside, Axis.getElem?_visible_eq_some_iff.mpr column,
    Option.bind_some]
  exact styled_of_inked (by rwa [length_columnContent])

section Glyphs

variable (uncovered : e.mode ≠ .help) {i j k : Nat}

include uncovered

theorem glyph_letter {column : Fin columnCount} (visible : e.columns.Holds j column.val)
    (inside : k < columnWidth) (room : Editor.labelWidth + columnWidth * j + k < width ∧ 0 + 1 < height) :
    (styled (labelStyle (column = e.cursor.column)) (columnHeading column))[k]? =
      some ((picture e width height).get (Editor.labelWidth + columnWidth * j + k) 0) := by
  rw [get_picture (absurd · uncovered) room.1 room.2, inkAt_header e j inside,
    Axis.getElem?_visible_eq_some_iff.mpr visible, Option.bind_some]
  exact styled_of_inked (by rwa [length_columnHeading])

theorem glyph_number {row : Fin rowCount} (visible : e.rows.Holds i row.val)
    (inside : k < Editor.labelWidth) (room : k < width ∧ 1 + i + 1 < height) :
    (styled (labelStyle (row = e.cursor.row)) (rowHeading row))[k]? =
      some ((picture e width height).get k (1 + i)) := by
  rw [get_picture (absurd · uncovered) room.1 room.2, inkAt_row, Axis.getElem?_visible_eq_some_iff.mpr visible,
    Option.bind_some, getElem?_rowLine_number _ _ _ _ inside]
  exact styled_of_inked (by rwa [length_rowHeading])

/-- A place is left of the first column, or in a column's block. -/
theorem glyph_blank {x y : Nat} (column : x < width) (line : y + 1 < height) (bare : ¬e.Covers x y) :
    (picture e width height).get x y = .blank := by
  have width : 0 < columnWidth := by decide
  rw [get_picture (absurd · uncovered) column line]
  by_cases left : x < Editor.labelWidth
  · rcases y with _ | i
    · exact inkAt_corner e left
    · rw [Nat.add_comm i 1] at bare ⊢
      rw [inkAt_row]
      cases visible : (e.rows.visible rowCount)[i]? with
      | none => rfl
      | some row => exact absurd (.number (Axis.getElem?_visible_eq_some_iff.mp visible) left) bare
  · obtain ⟨j, k, inside, rfl⟩ : ∃ j k, k < columnWidth ∧ x = Editor.labelWidth + columnWidth * j + k := by
      refine ⟨(x - Editor.labelWidth) / columnWidth, (x - Editor.labelWidth) % columnWidth,
        Nat.mod_lt _ width, ?_⟩
      rw [Nat.add_assoc, Nat.div_add_mod]
      omega
    rcases y with _ | i
    · rw [inkAt_header e j inside]
      cases visible : (e.columns.visible columnCount)[j]? with
      | none => rfl
      | some letter => exact absurd (.letter (Axis.getElem?_visible_eq_some_iff.mp visible) inside) bare
    · rw [Nat.add_comm i 1] at bare ⊢
      rw [inkAt_row]
      cases above : (e.rows.visible rowCount)[i]? with
      | none => rfl
      | some row =>
          rw [Option.bind_some, getElem?_rowLine_cell _ _ _ _ j inside]
          cases visible : (e.columns.visible columnCount)[j]? with
          | none => rfl
          | some letter =>
              have row := Axis.getElem?_visible_eq_some_iff.mp above
              have column := Axis.getElem?_visible_eq_some_iff.mp visible
              exact absurd (.cell (a := ⟨_, _⟩) row column inside) bare

/-- No letter, no number and no other cell has the style of the cursor's cell. -/
theorem style_picture_eq_cursor_iff (row : e.rows.Holds i e.cursor.row.val)
    (column : e.columns.Holds j e.cursor.column.val) {x y : Nat} (inside : x < width)
    (above : y + 1 < height) : ((picture e width height).get x y).style = .cursor ↔
      y = 1 + i ∧ ∃ k < columnWidth, x = Editor.labelWidth + columnWidth * j + k := by
  constructor
  · intro marked
    by_cases covers : e.Covers x y
    · cases covers with
      | letter visible within =>
          have style := style_of_styled (glyph_letter uncovered visible within ⟨inside, above⟩)
          exact absurd (style.symm.trans marked) (labelStyle_ne_cursor _)
      | number visible within =>
          have style := style_of_styled (glyph_number uncovered visible within ⟨inside, above⟩)
          exact absurd (style.symm.trans marked) (labelStyle_ne_cursor _)
      | cell there left within =>
          have style := style_of_styled (glyph_cell there left within ⟨inside, above⟩ (absurd · uncovered))
          have current := of_decide_eq_true (cellStyle_eq_cursor_iff.mp (style.symm.trans marked))
          subst current
          rw [row.number_eq there, column.number_eq left]
          exact ⟨rfl, _, within, rfl⟩
    · rw [glyph_blank uncovered inside above covers] at marked
      cases marked
  · rintro ⟨rfl, k, within, rfl⟩
    have style := style_of_styled (glyph_cell row column within ⟨inside, above⟩ (absurd · uncovered))
    exact style.trans (cellStyle_eq_cursor_iff.mpr (decide_eq_true rfl))

theorem isWindow_picture (sound : e.view.Sound) (fits : e.view.FitsTo width height)
    (wide : Editor.labelWidth + columnWidth ≤ width) (high : Editor.chromeHeight + 1 ≤ height) :
    IsWindow (picture e width height) e (shownBy e.sheet.texts) := by
  have room {x y : Nat} (covers : e.Covers x y) : x < width ∧ y + 1 < height :=
    room_of_fits fits wide high covers
  have row := sound.row.holds
  have column := sound.column.holds
  refine ⟨room, ?_, ?_, ?_, glyph_blank uncovered, _, _, row, column, fun x y inside above =>
    style_picture_eq_cursor_iff uncovered row column inside above⟩
  · intro letter j visible
    exact Canvas.strip_eq (by rw [styled, List.length_map, length_columnHeading]) fun k within =>
      glyph_letter uncovered visible within (room (.letter visible within))
  · intro number i visible
    refine Canvas.strip_eq (by rw [styled, List.length_map, length_rowHeading]) fun k within => ?_
    rw [Nat.zero_add]
    exact glyph_number uncovered visible within (room (.number visible within))
  · intro a i j above left
    exact Canvas.strip_eq (by rw [styled, List.length_map, length_columnContent]) fun k within =>
      glyph_cell above left within (room (.cell above left within)) (absurd · uncovered)

end Glyphs

end Picture

end Frame

namespace Terminal

/-- On a terminal with room for a cell, a frame shows what the visible cells come to when all texts are
recomputed, whatever has been remembered of them, and nothing else above its last line. That is what the
terminal shows then, whatever it showed before. -/
theorem frame_isWindow {e : Editor} (uncovered : e.mode ≠ .help) {width height : Nat}
    (wide : Editor.labelWidth + columnWidth ≤ width) (high : Editor.chromeHeight + 1 ≤ height) :
    IsWindow ((Frame.draw (e.resize width height).beginPass).1.paint (.blank width height))
        (e.resize width height) (Sheet.shownBy e.sheet.texts) ∧
      ∀ t : Terminal, t.Works none → t.Clear → t.width = width → t.height = height →
        IsWindow (t.draw (e.resize width height).beginPass).1.screen (e.resize width height)
          (Sheet.shownBy e.sheet.texts) := by
  have window : IsWindow (Frame.picture (e.resize width height) width height) (e.resize width height)
      (Sheet.shownBy e.sheet.texts) :=
    Frame.isWindow_picture uncovered (View.sound_fit e.view width height)
      (View.fitsTo_fit e.view width height) wide high
  refine ⟨window, ?_⟩
  rintro t works clear rfl rfl
  rw [draw, (drawUnder_of_works works clear _).1]
  exact window

/-- `A1` was a cycle when it was evaluated, and has another text by now. -/
def outdated : Editor :=
  let cyclic := Sheet.empty.setRecord .origin (.settled (.error .cycle))
  { Editor.new "f" with sheet := cyclic.setText .origin "text" }

theorem frame_isWindow_of_outdated :
    (outdated.mode ≠ .help ∧ Editor.labelWidth + columnWidth ≤ 14 ∧ Editor.chromeHeight + 1 ≤ 3) ∧
      (outdated.sheet.record .origin).error = some .cycle ∧
      let screen := ((new 14 3).draw (outdated.resize 14 3).beginPass).1.screen
      screen.text = ["        A", "  1 text", "A1 [text] val="] ∧
        IsWindow screen (outdated.resize 14 3) (Sheet.shownBy outdated.sheet.texts) := by
  have uncovered : outdated.mode ≠ .help := nofun
  have wide : Editor.labelWidth + columnWidth ≤ 14 := by decide
  have high : Editor.chromeHeight + 1 ≤ 3 := by decide
  have window := (frame_isWindow uncovered wide high).2 (new 14 3) ⟨rfl, rfl, rfl⟩ ⟨14, 3, rfl⟩ rfl rfl
  exact ⟨⟨uncovered, wide, high⟩, by decide +kernel, by decide +kernel, window⟩

end Terminal

end Worksheet
