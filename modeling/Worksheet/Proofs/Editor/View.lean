import Worksheet.Proofs.Editor.Keys

/-!
The cursor is always in view.

An axis shows a place that is neither before its first one nor beyond its last. Whatever happens to an
editor leaves its cursor and view alone, or puts the cursor on some cell and follows it there
(`View.Steers`), or fits the view to a new size. The first two keep how much is visible, so the cursor
stays in view and the view within the terminal; the third establishes both (`cursor_inView`).
-/

namespace Worksheet

/-! ## One axis -/

namespace Axis

/-- A place is in the visible stretch. -/
structure Shows (x : Axis) (place : Nat) : Prop where
  first_le : x.first ≤ place
  lt_end : place < x.first + x.shown

variable {x : Axis} {place : Nat}

theorem Shows.shown_pos (seen : x.Shows place) : 0 < x.shown := by
  have first := seen.first_le
  have last := seen.lt_end
  omega

theorem Shows.lt_stop {limit : Nat} (seen : x.Shows place) (inside : place < limit) :
    place < x.stop limit :=
  Nat.lt_min.mpr ⟨seen.lt_end, inside⟩

theorem Shows.follow_eq (seen : x.Shows place) : x.follow place = x := by
  rw [follow, if_neg (Nat.not_lt.mpr seen.first_le), if_neg (Nat.not_le.mpr seen.lt_end)]

theorem shown_follow (x : Axis) (place : Nat) : (x.follow place).shown = x.shown := by
  unfold follow
  split
  · rfl
  split
  · rfl
  · rfl

theorem shows_follow (place : Nat) (room : 0 < x.shown) : (x.follow place).Shows place := by
  unfold follow
  split
  · exact ⟨Nat.le_refl place, Nat.lt_add_of_pos_right room⟩
  next notBefore =>
  split
  · next beyond =>
      constructor
      · dsimp only
        omega
      · dsimp only
        omega
  · next notBeyond => exact ⟨Nat.le_of_not_lt notBefore, Nat.lt_of_not_le notBeyond⟩

end Axis

/-! ## The view -/

/-- The cursor and what is visible around it. -/
structure View where
  cursor : Address
  rows : Axis
  columns : Axis

namespace View

/-- Moves the cursor to a cell and follows it. -/
def goTo (v : View) (a : Address) : View :=
  ⟨a, v.rows.follow a.row.val, v.columns.follow a.column.val⟩

/-- The view fitted to a terminal. -/
def fit (v : View) (width height : Nat) : View :=
  goTo
    { v with
      rows := { v.rows with shown := max 1 (height - Editor.chromeHeight) }
      columns := { v.columns with shown := max 1 ((width - Editor.labelWidth) / columnWidth) } }
    v.cursor

/-- The cursor is visible. -/
structure Sound (v : View) : Prop where
  row : v.rows.Shows v.cursor.row.val
  column : v.columns.Shows v.cursor.column.val

/-- As much is visible as a terminal has room for, and at least one cell. -/
structure FitsTo (v : View) (width height : Nat) : Prop where
  rows : v.rows.shown = max 1 (height - Editor.chromeHeight)
  columns : v.columns.shown = max 1 ((width - Editor.labelWidth) / columnWidth)

/-- What a view becomes while the size of the terminal stays. -/
inductive Steers (v : View) : View → Prop where
  | stay : Steers v v
  | goTo (a : Address) : Steers v (v.goTo a)

variable {v u : View} {width height : Nat}

theorem sound_goTo (rows : 0 < v.rows.shown) (columns : 0 < v.columns.shown) (a : Address) :
    (v.goTo a).Sound :=
  ⟨Axis.shows_follow a.row.val rows, Axis.shows_follow a.column.val columns⟩

theorem sound_fit (v : View) (width height : Nat) : (v.fit width height).Sound :=
  sound_goTo (Nat.le_max_left 1 _) (Nat.le_max_left 1 _) v.cursor

theorem fitsTo_fit (v : View) (width height : Nat) : (v.fit width height).FitsTo width height :=
  ⟨Axis.shown_follow _ _, Axis.shown_follow _ _⟩

theorem Sound.goTo_cursor (sound : v.Sound) : v.goTo v.cursor = v := by
  rw [goTo, sound.row.follow_eq, sound.column.follow_eq]

theorem Sound.fit_eq (sound : v.Sound) (fits : v.FitsTo width height) : v.fit width height = v := by
  rw [fit, ← fits.rows, ← fits.columns]
  exact sound.goTo_cursor

theorem Sound.steers (sound : v.Sound) (steers : v.Steers u) : u.Sound := by
  cases steers with
  | stay => exact sound
  | goTo a => exact sound_goTo sound.row.shown_pos sound.column.shown_pos a

theorem FitsTo.steers (fits : v.FitsTo width height) (steers : v.Steers u) :
    u.FitsTo width height := by
  cases steers with
  | stay => exact fits
  | goTo a => exact ⟨(Axis.shown_follow _ _).trans fits.rows, (Axis.shown_follow _ _).trans fits.columns⟩

/-- A terminal with room for a cell has room for all cells that are visible. -/
theorem FitsTo.room (fits : v.FitsTo width height)
    (wide : Editor.labelWidth + columnWidth ≤ width) (high : Editor.chromeHeight + 1 ≤ height) :
    Editor.labelWidth + columnWidth * v.columns.shown ≤ width ∧
      v.rows.shown + Editor.chromeHeight ≤ height := by
  rw [fits.rows, fits.columns]
  unfold Editor.labelWidth Editor.chromeHeight columnWidth at *
  omega

end View

/-! ## What steers an editor -/

namespace Editor

def view (e : Editor) : View :=
  ⟨e.cursor, e.rows, e.columns⟩

theorem view_resize (e : Editor) (width height : Nat) :
    (e.resize width height).view = e.view.fit width height :=
  rfl

theorem steers_moveBy (e : Editor) (dx dy : Int) : e.view.Steers (e.moveBy dx dy).view :=
  .goTo _

theorem steers_moveTo (e : Editor) (row column : Nat) : e.view.Steers (e.moveTo row column).view :=
  .goTo _

theorem steers_goTo (e : Editor) (input : String) : e.view.Steers (e.goTo input).view := by
  unfold goTo
  split
  · exact e.steers_moveTo _ _
  · exact .stay

theorem steers_run (e : Editor) (command : Command) : e.view.Steers (e.run command).view := by
  cases command with
  | move dx dy => exact e.steers_moveBy dx dy
  | firstColumn | lastColumn => exact e.steers_moveTo _ _
  | pageUp | pageDown => exact e.steers_moveBy _ _
  | editCell | editFormula | clearCell | goTo | save | load | help | quit => exact .stay

end Editor

namespace Workspace

/-- Files change the sheet and leave messages; they leave the view alone. -/
theorem view_save (w : Workspace) (path : String) : (w.save path).editor.view = w.editor.view := by
  obtain ⟨_, _, same⟩ := w.editor_save path
  rw [same]
  rfl

theorem view_load (w : Workspace) (path : String) : (w.load path).editor.view = w.editor.view := by
  obtain ⟨_, _, same⟩ := w.editor_load path
  rw [same]
  rfl

theorem steers_commit (w : Workspace) (kind : PromptKind) :
    w.editor.view.Steers (w.commit kind).editor.view := by
  have committed := w.committed_commit kind
  generalize w.commit kind = u at committed ⊢
  cases committed with
  | edit | noPath => exact .stay
  | goTo =>
      rw [editor_mapEditor]
      exact (w.closing .goTo).editor.steers_goTo w.editor.prompt
  | save path =>
      rw [view_save]
      exact .stay
  | load path =>
      rw [view_load]
      exact .stay

theorem steers_press (w : Workspace) (k : Key) : w.editor.view.Steers (w.press k).2.editor.view := by
  have pressed := w.pressed_press k
  generalize (w.press k).2 = u at pressed ⊢
  cases pressed with
  | run command => exact w.editor.steers_run command
  | commit kind => exact w.steers_commit kind
  | type | leave => exact .stay

end Workspace

/-! ## Histories of an editor -/

/-- What can be done to an editor, from the keyboard or from a program. -/
inductive Act where
  | resize (width height : Nat)
  | press (k : Key)
  | moveBy (dx dy : Int)
  | moveTo (row column : Nat)
  | openPrompt (kind : PromptKind) (initial : String)
  | commit (kind : PromptKind)
  | cancel
  | save (path : String)
  | load (path : String)
  /-- The files become others. -/
  | change (disk : Disk)

/-- The size that an act fits the editor to. -/
def Act.size? : Act → Option (Nat × Nat)
  | resize width height => some (width, height)
  | _ => none

namespace Workspace

def perform (w : Workspace) : Act → Workspace
  | .resize width height => w.mapEditor (·.resize width height)
  | .press k => (w.press k).2
  | .moveBy dx dy => w.mapEditor (·.moveBy dx dy)
  | .moveTo row column => w.mapEditor (·.moveTo row column)
  | .openPrompt kind initial => w.mapEditor (·.openPrompt kind initial)
  | .commit kind => w.commit kind
  | .cancel => w.mapEditor Editor.closePrompt
  | .save path => w.save path
  | .load path => w.load path
  | .change disk => { w with disk := disk }

/-- A workspace after a history, whose latest act stands first. -/
def after (start : Workspace) : List Act → Workspace
  | [] => start
  | act :: earlier => (after start earlier).perform act

theorem steers_perform (w : Workspace) {act : Act} (noSize : act.size? = none) :
    w.editor.view.Steers (w.perform act).editor.view := by
  cases act with
  | resize => cases noSize
  | press k => exact w.steers_press k
  | moveBy dx dy => exact w.editor.steers_moveBy dx dy
  | moveTo row column => exact w.editor.steers_moveTo row column
  | openPrompt | cancel | change => exact .stay
  | commit kind => exact w.steers_commit kind
  | save path => exact w.view_save path ▸ .stay
  | load path => exact w.view_load path ▸ .stay

theorem view_perform_of_size (w : Workspace) {act : Act} {width height : Nat}
    (size : act.size? = some (width, height)) :
    (w.perform act).editor.view = w.editor.view.fit width height := by
  cases act with
  | resize =>
      cases size
      exact w.editor.view_resize width height
  | _ => cases size

theorem sound_after (start : Workspace) (sound : start.editor.view.Sound) (history : List Act) :
    (start.after history).editor.view.Sound := by
  induction history with
  | nil => exact sound
  | cons act earlier ih =>
      cases size : act.size? with
      | none => exact ih.steers (steers_perform _ size)
      | some terminal => exact view_perform_of_size _ size ▸ View.sound_fit _ _ _

/-- The view fits the terminal that it was fitted to last. -/
theorem fitsTo_after (start : Workspace) {history : List Act} {width height : Nat}
    (last : history.findSome? Act.size? = some (width, height)) :
    (start.after history).editor.view.FitsTo width height := by
  induction history with
  | nil => cases last
  | cons act earlier ih =>
      rw [List.findSome?_cons] at last
      cases size : act.size? with
      | none =>
          rw [size] at last
          exact (ih last).steers (steers_perform _ size)
      | some terminal =>
          rw [size] at last
          cases last
          exact view_perform_of_size _ size ▸ View.fitsTo_fit _ _ _

/-- Whatever has been done to a new editor, its cursor is in the grid and in view. Once the view has been
fitted to a terminal with room for a cell, all that is visible has room there. -/
theorem cursor_inView (defaultFile : String) (disk : Disk) (journal : List Event)
    (history : List Act) :
    let e := (after ⟨.new defaultFile, disk, journal⟩ history).editor
    (e.cursor.row.val < rowCount ∧ e.cursor.column.val < columnCount) ∧
      (1 ≤ e.rows.shown ∧ 1 ≤ e.columns.shown) ∧
      (e.rows.first ≤ e.cursor.row.val ∧ e.cursor.row.val < e.rows.stop rowCount) ∧
      (e.columns.first ≤ e.cursor.column.val ∧ e.cursor.column.val < e.columns.stop columnCount) ∧
      ∀ width height, history.findSome? Act.size? = some (width, height) →
        Editor.labelWidth + columnWidth ≤ width → Editor.chromeHeight + 1 ≤ height →
        Editor.labelWidth + columnWidth * e.columns.shown ≤ width ∧
          e.rows.shown + Editor.chromeHeight ≤ height := by
  intro e
  have start : (Editor.new defaultFile).view.Sound :=
    ⟨⟨Nat.le_refl 0, Nat.one_pos⟩, ⟨Nat.le_refl 0, Nat.one_pos⟩⟩
  have sound : e.view.Sound := sound_after _ start history
  refine ⟨⟨e.cursor.row.isLt, e.cursor.column.isLt⟩, ⟨sound.row.shown_pos, sound.column.shown_pos⟩,
    ⟨sound.row.first_le, sound.row.lt_stop e.cursor.row.isLt⟩,
    ⟨sound.column.first_le, sound.column.lt_stop e.cursor.column.isLt⟩, ?_⟩
  intro width height last wide high
  exact (fitsTo_after _ last).room wide high

/-- The cursor is sent below the grid and back while the terminal takes a new size. -/
def wandering : List Act :=
  [.moveBy 5 (-70), .press .pageDown, .resize 60 12, .press .end, .moveTo 500 3, .resize 3 1]

theorem cursor_inView_of_wandering :
    let e := (after ⟨.new "f", .empty, []⟩ wandering).editor
    e.view = ⟨⟨⟨29, by decide⟩, ⟨25, by decide⟩⟩, ⟨29, 10⟩, ⟨25, 5⟩⟩ ∧
      wandering.findSome? Act.size? = some (60, 12) ∧
      Editor.labelWidth + columnWidth ≤ 60 ∧ Editor.chromeHeight + 1 ≤ 12 ∧
      Editor.labelWidth + columnWidth * e.columns.shown ≤ 60 ∧
      e.rows.shown + Editor.chromeHeight ≤ 12 := by
  intro e
  have last : wandering.findSome? Act.size? = some (60, 12) := rfl
  have wide : Editor.labelWidth + columnWidth ≤ 60 := by decide
  have high : Editor.chromeHeight + 1 ≤ 12 := by decide
  obtain ⟨-, -, -, -, room⟩ := cursor_inView "f" .empty [] wandering
  exact ⟨rfl, last, wide, high, room 60 12 last wide high⟩

end Workspace

end Worksheet
