import Mathlib.Data.Nat.Dist
import Worksheet.Proofs.Editor.View

/-!
The view is scrolled no farther than it has to be.

The origins from which a stretch shows the cursor are those between two bounds (`Axis.mem_visible_iff`), and
following the cursor takes the stretch to the origin between them that is nearest to its own
(`Axis.first_follow`). So every other origin that shows the cursor is farther away (`Axis.ScrollsTo`). A move
and a jump follow the cursor from where it was, and so does a change of size, with the stretches that have
room then. Nothing else that is done to an editor scrolls its view (`Workspace.scrollsTo_perform`).
-/

namespace Worksheet

/-! ## One axis -/

namespace Axis

variable {limit first origin : Nat} {place : Fin limit} {x y : Axis}

/-- As much is visible as before, and that from the one origin nearest to the origin before which shows
the place. -/
structure ScrollsTo (x : Axis) (place : Fin limit) (y : Axis) : Prop where
  shown_eq : y.shown = x.shown
  visible : place ∈ y.visible limit
  nearest : ∀ origin, place ∈ (Axis.mk origin x.shown).visible limit → origin ≠ y.first →
    Nat.dist x.first y.first < Nat.dist x.first origin

/-- The origins that show a place lie between two bounds. -/
theorem mem_visible_iff :
    place ∈ x.visible limit ↔ place.val + 1 - x.shown ≤ x.first ∧ x.first ≤ place.val := by
  simp only [visible, List.mem_filter, List.mem_finRange, true_and, Bool.and_eq_true, decide_eq_true_eq]
  omega

theorem shows_iff_mem_visible : x.Shows place.val ↔ place ∈ x.visible limit := by
  rw [mem_visible_iff]
  constructor
  · intro seen
    have before := seen.first_le
    have within := seen.lt_end
    omega
  · rintro ⟨low, high⟩
    exact ⟨high, by omega⟩

/-- Following cuts the origin to the bounds. -/
theorem first_follow (x : Axis) (cursor : Nat) (room : 1 ≤ x.shown) :
    (x.follow cursor).first = min cursor (max (cursor + 1 - x.shown) x.first) := by
  unfold follow
  split
  · next before =>
      dsimp only
      omega
  next notBefore =>
  split
  · next beyond =>
      dsimp only
      omega
  · next notBeyond => omega

theorem scrollsTo_follow (x : Axis) (place : Fin limit) (room : 1 ≤ x.shown) :
    x.ScrollsTo place (x.follow place.val) := by
  have cut := x.first_follow place.val room
  refine ⟨x.shown_follow _, ?_, ?_⟩
  · rw [mem_visible_iff, cut, shown_follow]
    omega
  · intro origin shows other
    rw [mem_visible_iff] at shows
    unfold Nat.dist
    dsimp only at shows
    omega

/-- A place that is visible already is shown best from where the stretch begins. -/
theorem scrollsTo_self (seen : place ∈ x.visible limit) : x.ScrollsTo place x := by
  have shows := shows_iff_mem_visible.mpr seen
  have follows := x.scrollsTo_follow place shows.shown_pos
  rwa [shows.follow_eq] at follows

end Axis

/-! ## The view -/

namespace View

/-- Both axes scroll just far enough to show the new view's cursor. -/
structure ScrollsTo (v u : View) : Prop where
  rows : v.rows.ScrollsTo u.cursor.row u.rows
  columns : v.columns.ScrollsTo u.cursor.column u.columns

/-- As much is visible as a terminal has room for, from where the view began. -/
def sized (v : View) (width height : Nat) : View :=
  { v with
    rows := { v.rows with shown := max 1 (height - Editor.chromeHeight) }
    columns := { v.columns with shown := max 1 ((width - Editor.labelWidth) / columnWidth) } }

/-- The view that an act starts from: a change of size comes before the scrolling. -/
def before (v : View) (act : Act) : View :=
  match act.size? with
  | some (width, height) => v.sized width height
  | none => v

variable {v u : View}

theorem scrollsTo_goTo (rows : 1 ≤ v.rows.shown) (columns : 1 ≤ v.columns.shown) (a : Address) :
    v.ScrollsTo (v.goTo a) :=
  ⟨v.rows.scrollsTo_follow a.row rows, v.columns.scrollsTo_follow a.column columns⟩

theorem scrollsTo_fit (v : View) (width height : Nat) :
    (v.sized width height).ScrollsTo (v.fit width height) :=
  scrollsTo_goTo (Nat.le_max_left 1 _) (Nat.le_max_left 1 _) v.cursor

theorem Sound.scrollsTo (sound : v.Sound) (steers : v.Steers u) : v.ScrollsTo u := by
  cases steers with
  | stay =>
      constructor
      · exact Axis.scrollsTo_self (Axis.shows_iff_mem_visible.mp sound.row)
      · exact Axis.scrollsTo_self (Axis.shows_iff_mem_visible.mp sound.column)
  | goTo a => exact scrollsTo_goTo sound.row.shown_pos sound.column.shown_pos a

end View

/-! ## The editor -/

theorem Workspace.scrollsTo_perform (w : Workspace) (sound : w.editor.view.Sound) (act : Act) :
    (w.editor.view.before act).ScrollsTo (w.perform act).editor.view := by
  unfold View.before
  cases size : act.size? with
  | none => exact sound.scrollsTo (w.steers_perform size)
  | some terminal =>
      rw [w.view_perform_of_size size]
      exact w.editor.view.scrollsTo_fit _ _

namespace Editor

/-- From whatever origin, the view is scrolled to the nearest one that shows the cursor, on each axis:
after a move, after a jump and after a change of size, which decides first how much is visible. A cursor that
is visible already leaves the view where it is, and so does following it again. So every act of every history
of a new editor scrolls its view just far enough. -/
theorem follow_scrolls_least (e : Editor) (rows : 1 ≤ e.rows.shown) (columns : 1 ≤ e.columns.shown) :
    (e.view.ScrollsTo e.follow.view ∧ e.follow.cursor = e.cursor) ∧
      (e.cursor.row ∈ e.rows.visible rowCount → e.follow.rows = e.rows) ∧
      (e.cursor.column ∈ e.columns.visible columnCount → e.follow.columns = e.columns) ∧
      e.follow.follow = e.follow ∧
      (∀ dx dy, e.view.ScrollsTo (e.moveBy dx dy).view) ∧
      (∀ row column, e.view.ScrollsTo (e.moveTo row column).view) ∧
      (∀ width height, (e.view.sized width height).ScrollsTo (e.resize width height).view) ∧
      ∀ defaultFile disk journal history act,
        let w := Workspace.after ⟨.new defaultFile, disk, journal⟩ history
        (w.editor.view.before act).ScrollsTo (w.perform act).editor.view := by
  have goes (a : Address) : e.view.ScrollsTo (e.view.goTo a) := View.scrollsTo_goTo rows columns a
  have row := Axis.shows_follow e.cursor.row.val rows
  have column := Axis.shows_follow e.cursor.column.val columns
  refine ⟨⟨goes e.cursor, rfl⟩, ?_, ?_, ?_, fun dx dy => goes _, fun row column => goes _,
    fun width height => e.view.scrollsTo_fit width height, ?_⟩
  · intro seen
    exact (Axis.shows_iff_mem_visible.mpr seen).follow_eq
  · intro seen
    exact (Axis.shows_iff_mem_visible.mpr seen).follow_eq
  · have again : e.follow.follow = { e with
        rows := (e.rows.follow e.cursor.row.val).follow e.cursor.row.val
        columns := (e.columns.follow e.cursor.column.val).follow e.cursor.column.val } := rfl
    rw [again, row.follow_eq, column.follow_eq]
    rfl
  · intro defaultFile disk journal history act w
    have start : (Editor.new defaultFile).view.Sound :=
      ⟨⟨Nat.le_refl 0, Nat.one_pos⟩, ⟨Nat.le_refl 0, Nat.one_pos⟩⟩
    exact w.scrollsTo_perform (Workspace.sound_after _ start history) act

/-- The cursor is below the rows that are visible and left of the columns. -/
def scrolledAway : Editor :=
  { Editor.new "f" with
    cursor := ⟨⟨40, by decide⟩, ⟨2, by decide⟩⟩, rows := ⟨7, 10⟩, columns := ⟨20, 3⟩ }

theorem follow_scrolls_least_of_scrolledAway :
    (1 ≤ scrolledAway.rows.shown ∧ 1 ≤ scrolledAway.columns.shown) ∧
      scrolledAway.follow.view = ⟨scrolledAway.cursor, ⟨31, 10⟩, ⟨2, 3⟩⟩ ∧
      scrolledAway.view.ScrollsTo scrolledAway.follow.view ∧
      scrolledAway.view.ScrollsTo (scrolledAway.moveBy (-1) (-30)).view ∧
      (scrolledAway.moveBy (-1) (-30)).rows = scrolledAway.rows := by
  have rows : 1 ≤ scrolledAway.rows.shown := by decide
  have columns : 1 ≤ scrolledAway.columns.shown := by decide
  obtain ⟨⟨follows, -⟩, -, -, -, moves, -⟩ := scrolledAway.follow_scrolls_least rows columns
  exact ⟨⟨rows, columns⟩, rfl, follows, moves (-1) (-30), rfl⟩

end Editor

end Worksheet
