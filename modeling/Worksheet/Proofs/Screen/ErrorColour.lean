import Worksheet.Proofs.Evaluation.Invariants
import Worksheet.Proofs.Evaluation.Origin
import Worksheet.Proofs.Screen.Window
import Worksheet.Proofs.Sheet.Retyped

/-!
Which cells have the colour of errors.

A frame colours a cell by the text that it shows, and not by its record. An error shows as its name behind
a number sign, and no finite number is displayed with one in front (`display_numberSign_iff`). But a text
may begin with a number sign itself; it is shown as it is, and coloured like an error although it has none.
So a cell has the colour exactly if its record carries an error or its text begins with a number sign
(`Terminal.style_eq_error_iff`).
-/

namespace Worksheet

/-! ## What begins with a number sign -/

theorem head?_formatNumber_ne {x : Float} (finite : x.isFinite = true) :
    (formatNumber x).toList.head? ≠ some '#' := by
  rw [← isSome_rational?] at finite
  obtain ⟨q, exact⟩ := Option.isSome_iff_exists.mp finite
  obtain ⟨c, cs, chars, -, plain⟩ := exists_formatNumber_cons exact
  rw [chars]
  exact fun same => plain (Option.some.inj same)

theorem display_numberSign_iff (t : CellText) {r : Record} (finite : r.value.isFinite = true) :
    (display t r).toList.head? = some '#' ↔
      r.error.isSome = true ∨ t.chars.head? = some '#' := by
  unfold display
  cases r.error with
  | some k =>
      refine iff_of_true ?_ (.inl rfl)
      change k.display.toList.head? = some '#'
      cases k with
      | parse | badReference | divisionByZero | cycle | dependency => decide
  | none =>
      rw [Option.isSome_none, or_iff_right Bool.false_ne_true]
      dsimp only
      have spec := t.content_spec
      cases kind : t.content with
      | nothing =>
          rw [kind] at spec
          rw [spec]
          exact iff_of_false nofun nofun
      | formula body =>
          rw [kind] at spec
          rw [spec]
          exact iff_of_false (head?_formatNumber_ne finite) fun first => by cases first
      | number value =>
          rw [kind] at spec
          refine iff_of_false (head?_formatNumber_ne (Numeral.isFinite_literal spec.2)) fun first => ?_
          obtain ⟨cs, chars⟩ := List.head?_eq_some_iff.mp first
          have refused := Numeral.literal?_numberSign cs
          rw [← chars, spec.2] at refused
          cases refused
      | words => exact Iff.rfl

theorem Sheet.shownBy_numberSign_iff (texts : Grid CellText) (a : Address) :
    (shownBy texts a).toList.head? = some '#' ↔
      ((Records.recompute texts).get a).error.isSome = true ∨
        (texts.get a).chars.head? = some '#' := by
  obtain ⟨rest, -⟩ := Records.Rest.recompute Record.lawful Record.lawful_unvisited texts
  exact display_numberSign_iff _ (rest.all a).isFinite_value

/-! ## What a frame evaluates -/

namespace Frame

/-- The status line asks for the cursor's cell once more; a prompt asks for none. -/
theorem sheet_lastLine (e : Editor) : ∃ cells : List Address,
    (lastLine e).2.sheet = cells.foldl Sheet.visit e.sheet := by
  unfold lastLine
  split
  · exact ⟨[], rfl⟩
  · exact ⟨[e.cursor], rfl⟩
  · exact ⟨[e.cursor], rfl⟩

/-- Once a frame has been drawn, the records of its cells hold what the texts come to. -/
theorem record_draw (e : Editor) {a : Address} {i j : Nat} (row : e.rows.Holds i a.row.val)
    (column : e.columns.Holds j a.column.val) :
    (draw e.beginPass).2.sheet.record a = (Records.recompute e.sheet.texts).get a := by
  obtain ⟨S⟩ := exists_solution e.sheet.texts
  obtain ⟨more, last⟩ := sheet_lastLine { e.beginPass with
    sheet := (rows e.cursor (e.columns.visible columnCount) (e.rows.visible rowCount)
      e.sheet.beginPass).2 }
  have drawn : (draw e.beginPass).2.sheet =
      ((e.rows.visible rowCount).flatMap (rowCells (e.columns.visible columnCount)) ++ more).foldl
        Sheet.visit e.sheet.beginPass := by
    rw [List.foldl_append, ← snd_rows e.cursor]
    exact last
  have aside := List.mem_of_getElem? (Axis.getElem?_visible_eq_some_iff.mpr column)
  have below := List.mem_of_getElem? (Axis.getElem?_visible_eq_some_iff.mpr row)
  rw [drawn, Records.get_recompute S]
  refine (Sheet.beginPass_inPass e.sheet S).visitAll (List.mem_append_left more ?_)
  exact List.mem_flatMap.mpr ⟨a.row, below, List.mem_map.mpr ⟨a.column, aside, rfl⟩⟩

theorem cellStyle_eq_error_iff {shown : String} :
    cellStyle false shown = .error ↔ shown.toList.head? = some '#' := by
  unfold cellStyle
  rw [if_neg Bool.false_ne_true]
  split
  · next sign => exact iff_of_true rfl sign
  · next sign => exact iff_of_false (by decide) sign

end Frame

/-! ## The colour on the screen -/

/-- A cell can be seen at a place of the screen: the place belongs to its block, and neither the last line
nor the help lies there. -/
structure Editor.ShowsAt (e : Editor) (width height : Nat) (a : Address) (x y : Nat) : Prop where
  block : ∃ i j k, e.rows.Holds i a.row.val ∧ e.columns.Holds j a.column.val ∧ k < columnWidth ∧
    x = labelWidth + columnWidth * j + k ∧ y = 1 + i
  column : x < width
  line : y + 1 < height
  uncovered : e.mode = .help → Help.ink width height x y = .none

theorem Terminal.record_draw {t : Terminal} (works : t.Works none) (e : Editor) {a : Address} {i j : Nat}
    (row : e.rows.Holds i a.row.val) (column : e.columns.Holds j a.column.val) :
    (t.draw e.beginPass).2.sheet.record a = (Records.recompute e.sheet.texts).get a := by
  rw [draw, snd_drawUnder_of_works works, Frame.record_draw e row column]

/-- A frame evaluates every cell that can be seen. Apart from the cursor's, it has the colour of errors
exactly if its record carries an error or its text begins with a number sign. -/
theorem Terminal.style_eq_error_iff {t : Terminal} (works : t.Works none) (clear : t.Clear)
    {e : Editor} {a : Address} {x y : Nat} (shows : e.ShowsAt t.width t.height a x y)
    (other : a ≠ e.cursor) :
    let drawn := t.draw e.beginPass
    let r := drawn.2.sheet.record a
    r.evaluated = true ∧
      ((drawn.1.screen.get x y).style = .error ↔
        r.error.isSome = true ∨ (e.sheet.texts.get a).chars.head? = some '#') := by
  obtain ⟨⟨i, j, k, row, column, inside, rfl, rfl⟩, room, line, uncovered⟩ := shows
  intro drawn r
  have record : r = (Records.recompute e.sheet.texts).get a := record_draw works e row column
  have style := style_of_styled (Frame.glyph_cell row column inside ⟨room, line⟩ uncovered)
  have screen : drawn.1.screen = Frame.picture e t.width t.height :=
    (drawUnder_of_works works clear e.beginPass).1
  have others : decide (a = e.cursor) = false := decide_eq_false other
  rw [screen, style, record, others, Frame.cellStyle_eq_error_iff, Sheet.shownBy_numberSign_iff]
  refine ⟨?_, Iff.rfl⟩
  exact (Records.Rest.recompute Record.lawful Record.lawful_unvisited e.sheet.texts).2 a

namespace Terminal

/-- The second cell names a row outside the grid. -/
theorem style_eq_error_iff_of_astray :
    let e := { Editor.new "f" with sheet := Sheet.astray }.resize 24 3
    let a := firstRowCell 1
    let drawn := (new 24 3).draw e.beginPass
    let r := drawn.2.sheet.record a
    e.ShowsAt 24 3 a 14 1 ∧ a ≠ e.cursor ∧ r.evaluated = true ∧ r.error = some .badReference ∧
      (drawn.1.screen.get 14 1).style = .error := by
  intro e a drawn r
  have row : e.rows.Holds 0 a.row.val := ⟨rfl, by decide⟩
  have column : e.columns.Holds 1 a.column.val := ⟨rfl, by decide⟩
  have shows : e.ShowsAt 24 3 a 14 1 :=
    ⟨⟨0, 1, 0, row, column, by decide, rfl, rfl⟩, by decide, by decide, nofun⟩
  have other : a ≠ e.cursor := by decide
  have works : (new 24 3).Works none := ⟨rfl, rfl, rfl⟩
  have failed : r.error = some .badReference := by
    obtain ⟨S⟩ := exists_solution Sheet.astray.texts
    have record : r = (Records.recompute Sheet.astray.texts).get a := record_draw works e row column
    rw [record, Records.get_recompute S, S.solves, Sheet.evaluateIn_astray_second]
    rfl
  obtain ⟨evaluated, colour⟩ := style_eq_error_iff works ⟨24, 3, rfl⟩ shows other
  exact ⟨shows, other, evaluated, failed, colour.mpr (.inl (congrArg Option.isSome failed))⟩

/-- A text behind a number sign has the colour of errors too, and no error. -/
theorem style_eq_error_of_numberSign :
    let s := Sheet.empty.setText (firstRowCell 1) "#1"
    let e := { Editor.new "f" with sheet := s }.resize 24 3
    let a := firstRowCell 1
    let drawn := (new 24 3).draw e.beginPass
    let r := drawn.2.sheet.record a
    e.ShowsAt 24 3 a 14 1 ∧ a ≠ e.cursor ∧ r.evaluated = true ∧ r.error = none ∧
      (drawn.1.screen.get 14 1).style = .error := by
  intro s e a drawn r
  have shows : e.ShowsAt 24 3 a 14 1 :=
    ⟨⟨0, 1, 0, ⟨rfl, by decide⟩, ⟨rfl, by decide⟩, by decide, rfl, rfl⟩, by decide, by decide, nofun⟩
  exact ⟨shows, by decide, by decide +kernel, by decide +kernel, by decide +kernel⟩

end Terminal

end Worksheet
