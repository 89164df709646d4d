import Worksheet.Proofs.Checked.Commands
import Worksheet.Screen.Frame

/-!
The whole program with every place checked.

A program is a list of turns, each an act on the editor or a frame, in any order. `Checked.play` reckons all
places as numbers and stops at the first fault; `Workspace.play` is what the library does. They come to the
same (`Checked.play_faultless`): there is no fault, whatever is typed, whatever stands in the files and however
small the terminal is.
-/

namespace Worksheet

/-! ## Turns -/

/-- What happens to an editor next. -/
inductive Turn where
  | act (act : Act)
  /-- A frame is drawn. -/
  | frame

namespace Workspace

/-- Draws a frame of the editor. -/
def drawFrame (w : Workspace) : Frame × Workspace :=
  let (frame, e) := Frame.draw w.editor.beginPass
  (frame, { w with editor := e.endFrame })

/-- Takes turns one after the other, and gives the frames drawn on the way. -/
def play (w : Workspace) : List Turn → List Frame × Workspace
  | [] => ([], w)
  | .act act :: turns => (w.perform act).play turns
  | .frame :: turns =>
    let (frame, w) := w.drawFrame
    let (frames, w) := w.play turns
    (frame :: frames, w)

end Workspace

namespace Checked

/-! ## Drawing -/

/-- The letter of a column, in the middle of its column. -/
def columnHeading (e : Editor) (column : Nat) : Checked InkLine := do
  let letter ← letterOf column
  return inked (Frame.labelStyle (column = e.cursor.column.val))
    (List.replicate 4 ' ' ++ letter :: List.replicate 5 ' ')

/-- The header line. -/
def header (e : Editor) : Checked InkLine := do
  let headings ← (stretch columnCount e.columns).mapM (columnHeading e)
  return .draw ' ' .plain :: List.replicate 3 .none ++ headings.flatten

/-- Draws a cell, evaluating it first. -/
def cell (cursor : Address) (row column : Nat) (s : Sheet) : Checked (InkLine × Sheet) := do
  let (shown, s) ← display s row column
  let current : Bool := row = cursor.row.val && column = cursor.column.val
  return (inked (Frame.cellStyle current shown) (columnContent shown), s)

/-- Draws cells from left to right. -/
def cells (cursor : Address) (row : Nat) : List Nat → Sheet → Checked (InkLine × Sheet)
  | [], s => return ([], s)
  | column :: columns, s => do
    let (here, s) ← cell cursor row column s
    let (rest, s) ← cells cursor row columns s
    return (here ++ rest, s)

/-- Draws rows from top to bottom. -/
def rows (cursor : Address) (columns : List Nat) :
    List Nat → Sheet → Checked (List InkLine × Sheet)
  | [], s => return ([], s)
  | row :: rest, s => do
    let label := inked (Frame.labelStyle (row = cursor.row.val))
      ((Nat.toDigits 10 (row + 1)).leftpad 3 ' ' ++ [' '])
    let (line, s) ← cells cursor row columns s
    let (lines, s) ← rows cursor columns rest s
    return ((label ++ line) :: lines, s)

/-- The status line. -/
def statusLine (e : Editor) : Checked (String × Editor) := do
  let a ← current e
  let raw := String.ofList ((e.sheet.texts.get a).chars.map Text.shown)
  let (outcome, sheet) ← result e.sheet e.cursor.row.val e.cursor.column.val
  let value :=
    match outcome with
    | .ok x => "val=" ++ formatNumber x
    | .error k => "err=" ++ k.name
  let letter ← letterOf e.cursor.column.val
  let label := String.ofList
    (letter :: Nat.toDigits 10 ((e.cursor.row.val + 1) % Address.rowNumberBound))
  let mark := if sheet.modified then " [+]" else ""
  let message :=
    match e.status with
    | some s => "  " ++ s
    | none => ""
  return (label ++ " [" ++ raw ++ "] " ++ value ++ mark ++ message, { e with sheet := sheet })

/-- The prompt if one is open, and the status otherwise. -/
def lastLine (e : Editor) : Checked (InkLine × Editor) := do
  match e.mode with
  | .prompt _ => return Frame.lastLine e
  | .normal | .help =>
    let style := if e.status.isSome then .notice else .dim
    let (line, e) ← statusLine e
    return (inked style (Frame.inLine line), e)

/-- Draws the editor, evaluating what it shows. -/
def draw (e : Editor) : Checked (Frame × Editor) := do
  let header ← header e
  let (lines, sheet) ←
    rows e.cursor (stretch columnCount e.columns) (stretch rowCount e.rows) e.sheet
  let (last, e) ← lastLine { e with sheet := sheet }
  return (⟨header :: lines, last, e.mode = .help⟩, e)

theorem columnHeading_eq (e : Editor) (column : Fin columnCount) :
    columnHeading e column.val = .ok (inked (Frame.labelStyle (column = e.cursor.column))
      (Frame.columnHeading column)) := by
  rw [columnHeading, letterOf_column, ok_bind]
  simp only [Fin.ext_iff]
  rfl

theorem header_eq (e : Editor) : header e = .ok (Frame.header e) := by
  have headings (columns : List (Fin columnCount)) :
      (columns.map Fin.val).mapM (columnHeading e) =
        .ok (columns.map fun column => inked (Frame.labelStyle (column = e.cursor.column))
          (Frame.columnHeading column)) := by
    induction columns with
    | nil => rfl
    | cons column columns ih =>
        rw [List.map_cons, List.mapM_cons, columnHeading_eq, ok_bind, ih]
        rfl
  rw [header, stretch_eq, headings, ok_bind, Frame.header, List.flatMap_def]
  rfl

theorem cell_eq (cursor a : Address) (s : Sheet) :
    cell cursor a.row.val a.column.val s = .ok (Frame.cell cursor a s) := by
  have same : (decide (a.row.val = cursor.row.val) && decide (a.column.val = cursor.column.val)) =
      decide (a = cursor) := by
    rw [← Bool.decide_and, decide_eq_decide, ← Fin.ext_iff, ← Fin.ext_iff]
    exact Address.mk.injEq .. ▸ Iff.rfl
  rw [cell, display_eq, ok_bind]
  dsimp only
  rw [same]
  rfl

theorem cells_eq (cursor : Address) (row : Fin rowCount) (columns : List (Fin columnCount))
    (s : Sheet) : cells cursor row.val (columns.map Fin.val) s =
      .ok (Frame.cells cursor row columns s) := by
  induction columns generalizing s with
  | nil => rfl
  | cons column columns ih =>
      rw [List.map_cons, cells, cell_eq cursor ⟨row, column⟩, ok_bind, Frame.cells]
      rcases Frame.cell cursor ⟨row, column⟩ s with ⟨here, s⟩
      dsimp only
      rw [ih]
      rfl

theorem rows_eq (cursor : Address) (columns : List (Fin columnCount)) (places : List (Fin rowCount))
    (s : Sheet) : rows cursor (columns.map Fin.val) (places.map Fin.val) s =
      .ok (Frame.rows cursor columns places s) := by
  induction places generalizing s with
  | nil => rfl
  | cons row places ih =>
      rw [List.map_cons, rows, cells_eq, ok_bind]
      dsimp only
      rw [ih, ok_bind, Frame.rows]
      simp only [Fin.ext_iff]
      rfl

theorem statusLine_eq (e : Editor) : statusLine e = .ok e.statusLine := by
  rw [statusLine, current_eq, ok_bind, result_eq, ok_bind, letterOf_column]
  rfl

theorem lastLine_eq (e : Editor) : lastLine e = .ok (Frame.lastLine e) := by
  unfold lastLine Frame.lastLine
  cases e.mode with
  | prompt kind => rfl
  | normal | help =>
      dsimp only
      rw [statusLine_eq]
      rfl

theorem draw_eq (e : Editor) : draw e = .ok (Frame.draw e) := by
  rw [draw, header_eq, ok_bind, stretch_eq, stretch_eq, rows_eq, ok_bind]
  dsimp only
  rw [lastLine_eq]
  rfl

/-! ## Programs -/

/-- Does one thing to the editor. -/
def perform (w : Workspace) : Act → Checked Workspace
  | .resize width height => return { w with editor := ← resize w.editor width height }
  | .press k => return (← press w k).2
  | .moveBy dx dy => return { w with editor := ← moveBy w.editor dx dy }
  | .moveTo row column => return { w with editor := ← moveTo w.editor row column }
  | .openPrompt kind initial => return w.mapEditor (·.openPrompt kind initial)
  | .commit kind => commit w kind
  | .cancel => return w.mapEditor Editor.closePrompt
  | .save path => return w.save path
  | .load path => load w path
  | .change disk => return { w with disk := disk }

/-- Draws a frame of the editor. -/
def drawFrame (w : Workspace) : Checked (Frame × Workspace) := do
  let (frame, e) ← draw w.editor.beginPass
  return (frame, { w with editor := e.endFrame })

/-- Takes turns one after the other, and gives the frames drawn on the way. -/
def play (w : Workspace) : List Turn → Checked (List Frame × Workspace)
  | [] => return ([], w)
  | .act act :: turns => do play (← perform w act) turns
  | .frame :: turns => do
    let (frame, w) ← drawFrame w
    let (frames, w) ← play w turns
    return (frame :: frames, w)

theorem perform_eq (w : Workspace) (act : Act) : perform w act = .ok (w.perform act) := by
  cases act with
  | resize width height =>
      rw [perform, resize_eq]
      rfl
  | press k =>
      rw [perform, press_eq]
      rfl
  | moveBy dx dy =>
      rw [perform, moveBy_eq]
      rfl
  | moveTo row column =>
      rw [perform, moveTo_eq]
      rfl
  | commit kind => exact commit_eq w kind
  | load path => exact load_eq w path
  | openPrompt | cancel | save | change => rfl

theorem drawFrame_eq (w : Workspace) : drawFrame w = .ok w.drawFrame := by
  rw [drawFrame, draw_eq]
  rfl

/-- Whatever an editor goes through, its checked program comes to no fault: it draws the same frames and
ends in the same state. -/
theorem play_faultless (w : Workspace) (turns : List Turn) : play w turns = .ok (w.play turns) := by
  induction turns generalizing w with
  | nil => rfl
  | cons turn turns ih =>
      cases turn with
      | act act => rw [play, perform_eq, ok_bind, ih, Workspace.play]
      | frame =>
          rw [play, drawFrame_eq, ok_bind]
          dsimp only
          rw [ih]
          rfl

end Checked

end Worksheet
