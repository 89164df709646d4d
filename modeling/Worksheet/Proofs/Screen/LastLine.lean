import Worksheet.Proofs.Editor.StatusLine
import Worksheet.Proofs.Screen.Layout
import Worksheet.Proofs.Session.Lasting

/-!
What the last line of a screen shows.

The status line is drawn after the grid, when the visible cells have been evaluated. Within a pass that
makes no difference to it (`Frame.last_draw`), so the last line of a frame is what the editor says before
anything is drawn. On a screen of two lines or more it stands there from the left edge on, as far as there
is room (`Frame.endsWith_paint`); a single line is the header's. Only messages have the style of
messages: a last line without a message shows nothing in that style, and neither do the header and the help
(`Frame.quiet_paint`).
-/

namespace Worksheet

/-! ## What is drawn there -/

namespace Frame

/-- The cells of a row. -/
def rowCells (columns : List (Fin columnCount)) (row : Fin rowCount) : List Address :=
  columns.map fun column => ⟨row, column⟩

theorem snd_cells (cursor : Address) (row : Fin rowCount) (columns : List (Fin columnCount))
    (s : Sheet) : (cells cursor row columns s).2 = (rowCells columns row).foldl Sheet.visit s := by
  induction columns generalizing s with
  | nil => rfl
  | cons column columns ih =>
      rw [cells_cons, ih]
      rfl

theorem snd_rows (cursor : Address) (columns : List (Fin columnCount)) (places : List (Fin rowCount))
    (s : Sheet) :
    (rows cursor columns places s).2 = (places.flatMap (rowCells columns)).foldl Sheet.visit s := by
  induction places generalizing s with
  | nil => rfl
  | cons row places ih => rw [rows_cons, ih, snd_cells, List.flatMap_cons, List.foldl_append]

theorem mode_lastLine (e : Editor) : (lastLine e).2.mode = e.mode := by
  have same : (lastLine e).2.lasting.mode = e.lasting.mode :=
    congrArg Editor.mode (lasting_lastLine e)
  exact same

theorem fst_lastLine (e : Editor) : (lastLine e).1 =
    match e.mode with
    | .prompt kind =>
      inked .promptLabel (kind.label ++ ": ").toList ++ inked .plain (inLine e.prompt) ++
        inked .caret ['_']
    | .normal | .help =>
      inked (if e.status.isSome then .notice else .dim) (inLine e.statusLine.1) := by
  unfold lastLine
  rcases e.statusLine with ⟨text, after⟩
  cases e.mode with
  | prompt | normal | help => rfl

theorem help_draw (e : Editor) : (draw e).1.help = decide (e.mode = .help) := by
  have drawn : (draw e).1.help = decide ((lastLine { e with
      sheet := (rows e.cursor (e.columns.visible columnCount) (e.rows.visible rowCount) e.sheet).2 }).2.mode =
        .help) :=
    rfl
  rw [drawn, mode_lastLine]

/-- Cells evaluated in the pass make no difference to the status line. -/
theorem statusLine_visitAll (e : Editor) (cells : List Address) :
    ({ e.beginPass with sheet := cells.foldl Sheet.visit e.beginPass.sheet } : Editor).statusLine.1 =
      e.beginPass.statusLine.1 := by
  obtain ⟨S⟩ := exists_solution e.sheet.texts
  have begun := Sheet.beginPass_inPass e.sheet S
  have later : (cells.foldl Sheet.visit e.beginPass.sheet).InPass S := begun.foldl cells
  have outcome : ((cells.foldl Sheet.visit e.beginPass.sheet).result e.beginPass.cursor).1 =
      (e.beginPass.sheet.result e.beginPass.cursor).1 :=
    congrArg Record.outcome ((later.visit e.cursor).2.trans (begun.visit e.cursor).2.symm)
  rw [Editor.fst_statusLine, Editor.fst_statusLine]
  dsimp only
  rw [outcome, Sheet.foldl_visit]
  rfl

/-- Nothing drawn before it changes the last line. -/
theorem last_draw (e : Editor) : (draw e.beginPass).1.last = (lastLine e.beginPass).1 := by
  have line := statusLine_visitAll e
    ((e.rows.visible rowCount).flatMap (rowCells (e.columns.visible columnCount)))
  rw [← snd_rows e.cursor] at line
  have drawn : (draw e.beginPass).1.last = (lastLine { e.beginPass with
      sheet := (rows e.cursor (e.columns.visible columnCount) (e.rows.visible rowCount)
        e.beginPass.sheet).2 }).1 :=
    rfl
  rw [drawn, fst_lastLine, fst_lastLine, line]

end Frame

/-! ## What is seen there -/

/-- The last line of a screen shows these characters, as far as there is room, and blanks after them. -/
def Canvas.EndsWith (screen : Canvas) (glyphs : List Glyph) : Prop :=
  screen.strip 0 (screen.height - 1) screen.width =
    glyphs.take screen.width ++ List.replicate (screen.width - glyphs.length) .blank

/-- Nothing on the last line of a screen has the style of messages. -/
def Canvas.Quiet (screen : Canvas) : Prop :=
  ∀ x < screen.width, (screen.get x (screen.height - 1)).style ≠ .notice

/-- Nothing in a line has the style of messages once it is drawn on blanks. -/
def Unmarked (inks : InkLine) : Prop :=
  ∀ ink ∈ inks, (ink.apply .blank).style ≠ .notice

theorem unmarked_inked {style : Style} (other : style ≠ .notice) (cs : List Char) :
    Unmarked (inked style cs) := by
  intro ink member
  obtain ⟨c, -, rfl⟩ := List.mem_map.mp member
  change style.onto .plain ≠ .notice
  rwa [Style.onto_plain]

theorem Unmarked.append {xs ys : InkLine} (left : Unmarked xs) (right : Unmarked ys) :
    Unmarked (xs ++ ys) :=
  List.forall_mem_append.mpr ⟨left, right⟩

theorem Unmarked.getD {inks : InkLine} (unmarked : Unmarked inks) (x : Nat) :
    ((inks.toArray.getD x .none).apply .blank).style ≠ .notice := by
  rw [Array.getD_eq_getD_getElem?, List.getElem?_toArray]
  cases found : inks[x]? with
  | none => exact nofun
  | some ink => exact unmarked ink (List.mem_of_getElem? found)

/-- The help has styles of its own. -/
theorem Help.style_ink_ne (width height x y : Nat) :
    ((Help.ink width height x y).apply .blank).style ≠ .notice := by
  have lines (cs : List Char) : Help.styleOf cs ≠ .notice := by
    unfold Help.styleOf
    split
    · decide
    · decide
    · decide
  unfold Help.ink Help.inkInside
  dsimp only
  split
  · split
    · exact nofun
    split
    · exact lines _
    · exact nofun
  · exact nofun

namespace Frame

theorem unmarked_header (e : Editor) : Unmarked (header e) := by
  have margin : ∀ ink ∈ Ink.draw ' ' .plain :: List.replicate 3 .none,
      (ink.apply .blank).style ≠ .notice := by
    decide
  refine Unmarked.append margin fun ink member => ?_
  obtain ⟨column, -, drawn⟩ := List.mem_flatMap.mp member
  refine unmarked_inked ?_ _ ink drawn
  cases decide (column = e.cursor.column) with
  | true | false => decide

theorem lastLine_of_message {e : Editor} (pending : e.status.isSome = true) (normal : e.mode = .normal) :
    (lastLine e).1 = inked .notice (inLine e.statusLine.1) := by
  rw [fst_lastLine, normal]
  dsimp only
  rw [if_pos pending]

theorem unmarked_lastLine {e : Editor} (quiet : e.status = none) : Unmarked (lastLine e).1 := by
  rw [fst_lastLine, quiet]
  split
  · exact .append (.append (unmarked_inked (by decide) _) (unmarked_inked (by decide) _))
      (unmarked_inked (by decide) _)
  · exact unmarked_inked (by decide) _
  · exact unmarked_inked (by decide) _

/-- What an editor shows on a screen of its own. -/
def picture (e : Editor) (width height : Nat) : Canvas :=
  (draw e.beginPass).1.paint (.blank width height)

section Picture

variable {e : Editor} {width height : Nat}

theorem get_picture_last (uncovered : e.mode ≠ .help) (high : 2 ≤ height) {x : Nat} (column : x < width) :
    (picture e width height).get x (height - 1) =
      ((lastLine e.beginPass).1[x]?.getD .none).apply .blank := by
  have line : height - 1 < height := by omega
  have bottom : 0 < height - 1 ∧ height - 1 + 1 = height := by omega
  have bare : (draw e.beginPass).1.help = false := (help_draw e.beginPass).trans (decide_eq_false uncovered)
  unfold picture paint
  dsimp only
  rw [Canvas.get_paint _ _ column line, Canvas.get_blank]
  change Ink.apply _ (ink _ _ _ width height x _) = _
  rw [bare, ink, if_neg Bool.false_ne_true, if_pos bottom, Array.getD_eq_getD_getElem?,
    List.getElem?_toArray, last_draw]

/-- On a screen of two lines or more the last line is seen. -/
theorem endsWith_picture (uncovered : e.mode ≠ .help) (high : 2 ≤ height) {style : Style} {cs : List Char}
    (last : (lastLine e.beginPass).1 = inked style cs) :
    (picture e width height).EndsWith (styled style cs) := by
  have length : (styled style cs).length = cs.length := List.length_map _
  change (picture e width height).strip 0 (height - 1) width =
    (styled style cs).take width ++ List.replicate (width - (styled style cs).length) .blank
  refine Canvas.strip_eq ?_ fun k inside => ?_
  · rw [List.length_append, List.length_take, List.length_replicate]
    omega
  rw [Nat.zero_add, get_picture_last uncovered high inside, last]
  by_cases written : k < cs.length
  · rw [List.getElem?_append_left (by rw [List.length_take]; omega), List.getElem?_take_of_lt inside]
    exact styled_of_inked written
  · rw [List.getElem?_append_right (by rw [List.length_take]; omega), List.getElem?_replicate,
      if_pos (by rw [List.length_take]; omega), List.getElem?_eq_none (by rw [length_inked]; omega)]
    rfl

/-- By the lines of the screen: a single one is the header's, and of two or more the lowest is the last
line's. -/
theorem quiet_picture (last : 2 ≤ height → Unmarked (lastLine e.beginPass).1) :
    (picture e width height).Quiet := by
  intro x column
  have column : x < width := column
  change ((picture e width height).get x (height - 1)).style ≠ .notice
  rcases Nat.eq_zero_or_pos height with rfl | some
  · have nothing : (picture e width 0).glyphs.size = 0 := Array.size_ofFn
    rw [Canvas.get_of_size_eq_zero nothing]
    exact nofun
  have line : height - 1 < height := by omega
  unfold picture paint
  dsimp only
  rw [Canvas.get_paint _ _ column line, Canvas.get_blank]
  change (Ink.apply _ (ink _ _ _ width height x _)).style ≠ _
  rw [last_draw]
  have base : ((ink ((draw e.beginPass).1.grid.map List.toArray).toArray
      (lastLine e.beginPass).1.toArray false width height x (height - 1)).apply .blank).style ≠
        .notice := by
    rw [ink, if_neg Bool.false_ne_true]
    split
    · next bottom => exact (last (by omega)).getD x
    · next single =>
      have top : height - 1 = 0 := by omega
      have drawn : ((draw e.beginPass).1.grid.map List.toArray).toArray.getD 0 #[] =
          (header e.beginPass).toArray :=
        rfl
      rw [top, drawn]
      exact (unmarked_header e.beginPass).getD x
  unfold ink
  cases (draw e.beginPass).1.help with
  | false => exact base
  | true =>
    rw [if_pos rfl]
    split
    · exact base
    · exact Help.style_ink_ne width height x _

end Picture

end Frame

/-- A line that there is room for is seen as a whole. -/
theorem Canvas.EndsWith.strip_of_fits {screen : Canvas} {glyphs : List Glyph}
    (ends : screen.EndsWith glyphs) (fits : glyphs.length ≤ screen.width) :
    screen.strip 0 (screen.height - 1) screen.width =
      glyphs ++ List.replicate (screen.width - glyphs.length) .blank := by
  rw [ends, List.take_of_length_le fits]

end Worksheet
