import Worksheet.Proofs.Checked.Places
import Worksheet.Screen.Frame

/-!
Where things stand on a screen.

Every part of a line has a width of its own: a column's content and its letter take ten characters, a row's
number four. So the parts of a line stand at places that do not depend on what they hold
(`getElem?_flatMap_of_length`), and what is painted on a blank canvas is read back place by place
(`Canvas.get_paint`, `Canvas.get_blank`).
-/

namespace Worksheet

/-! ## Widths -/

theorem length_fitToWidth_le (cs : List Char) (width : Nat) :
    (fitToWidth cs width).length ≤ width - 1 := by
  unfold fitToWidth
  dsimp only
  split
  · next fits => exact fits
  split
  · exact Nat.zero_le _
  · rw [List.length_append, List.length_take, List.length_singleton]
    omega

theorem length_columnContent (shown : String) : (columnContent shown).length = columnWidth := by
  have fits : ((fitToWidth shown.toList columnWidth).map Text.shown).length ≤ columnWidth - 1 := by
    rw [List.length_map]
    exact length_fitToWidth_le _ _
  have width : 1 ≤ columnWidth := by decide
  unfold columnContent
  dsimp only
  split
  · rw [List.length_append, List.length_leftpad, List.length_singleton]
    omega
  · rw [List.length_rightpad]
    omega

namespace Frame

theorem length_columnHeading (column : Fin columnCount) :
    (columnHeading column).length = columnWidth :=
  rfl

theorem length_rowHeading (row : Fin rowCount) : (rowHeading row).length = Editor.labelWidth := by
  revert row
  decide

end Frame

theorem length_inked (style : Style) (cs : List Char) : (inked style cs).length = cs.length :=
  List.length_map _

/-! ## Blocks of one width -/

/-- Parts of one length stand at multiples of it. -/
theorem getElem?_flatMap_of_length {α β : Type} {f : α → List β} {n : Nat}
    (length : ∀ a, (f a).length = n) (as : List α) (j : Nat) {k : Nat} (inside : k < n) :
    (as.flatMap f)[n * j + k]? = as[j]?.bind fun a => (f a)[k]? := by
  induction as generalizing j with
  | nil => rfl
  | cons a as ih =>
      rw [List.flatMap_cons]
      cases j with
      | zero =>
          rw [Nat.mul_zero, Nat.zero_add, List.getElem?_append_left (by rwa [length])]
          rfl
      | succ j =>
          rw [List.getElem?_append_right (by rw [length, Nat.mul_succ]; omega), length,
            show n * (j + 1) + k - n = n * j + k by rw [Nat.mul_succ]; omega, ih]
          rfl

/-! ## The visible places -/

namespace Axis

/-- A place is the visible one with this number. -/
structure Holds (x : Axis) (i place : Nat) : Prop where
  offset : place = x.first + i
  seen : i < x.shown

variable {x : Axis} {limit i place : Nat}

theorem Shows.holds (shows : x.Shows place) : x.Holds (place - x.first) place := by
  have first := shows.first_le
  have last := shows.lt_end
  exact ⟨by omega, by omega⟩

theorem Holds.number_eq (holds : x.Holds i place) {other : Nat} (same : x.Holds other place) :
    other = i :=
  Nat.add_left_cancel (same.offset.symm.trans holds.offset)

/-- The visible places stand one after the other, from the first of them to the last that is shown and
in the grid. -/
theorem getElem?_visible (x : Axis) (limit i : Nat) :
    ((x.visible limit)[i]?).map Fin.val =
      if i < x.stop limit - x.first then some (x.first + i) else none := by
  rw [← List.getElem?_map, ← Checked.stretch_eq, Checked.stretch]
  split
  · next seen => rw [List.getElem?_range' seen, Nat.one_mul]
  · next unseen => exact List.getElem?_eq_none (by rw [List.length_range']; omega)

theorem getElem?_visible_eq_some_iff {place : Fin limit} :
    (x.visible limit)[i]? = some place ↔ x.Holds i place.val := by
  have inGrid := place.isLt
  have offset := x.getElem?_visible limit i
  unfold stop at offset
  constructor
  · intro found
    rw [found, Option.map_some] at offset
    split at offset
    · next seen => exact ⟨Option.some.inj offset, by omega⟩
    · cases offset
  · rintro ⟨there, seen⟩
    rw [if_pos (by omega)] at offset
    obtain ⟨other, found, same⟩ := Option.map_eq_some_iff.mp offset
    rw [found, Fin.ext (same.trans there.symm)]

end Axis

/-! ## Canvases -/

theorem Style.onto_plain (style : Style) : style.onto .plain = style := by
  rcases style with ⟨_ | _, _ | _, _ | _, _ | _⟩ <;> rfl

/-- Characters in one style. -/
def styled (style : Style) (cs : List Char) : List Glyph :=
  cs.map (⟨·, style⟩)

theorem styled_of_inked {style : Style} {cs : List Char} {k : Nat} (inside : k < cs.length) :
    (styled style cs)[k]? = some (((inked style cs)[k]?.getD .none).apply .blank) := by
  rw [styled, inked, List.getElem?_map, List.getElem?_map, List.getElem?_eq_getElem inside]
  change some _ = some (Glyph.mk _ (style.onto .plain))
  rw [Style.onto_plain]

theorem style_of_styled {style : Style} {cs : List Char} {k : Nat} {g : Glyph}
    (found : (styled style cs)[k]? = some g) : g.style = style := by
  rw [styled, List.getElem?_map] at found
  obtain ⟨c, -, rfl⟩ := Option.map_eq_some_iff.mp found
  rfl

namespace Canvas

theorem get_blank (width height x y : Nat) : (blank width height).get x y = .blank := by
  unfold get blank
  split
  · rw [Array.getD_eq_getD_getElem?, Array.getElem?_replicate]
    split
    · rfl
    · rfl
  · rfl

theorem get_of_size_eq_zero {c : Canvas} (nothing : c.glyphs.size = 0) (x y : Nat) :
    c.get x y = .blank := by
  unfold get
  split
  · rw [Array.getD_eq_getD_getElem?, Array.getElem?_eq_none (nothing ▸ Nat.zero_le _)]
    rfl
  · rfl

/-- The place of a column and a line in the sequence of characters. -/
theorem place_lt {width height x y : Nat} (column : x < width) (line : y < height) :
    y * width + x < width * height := by
  have lines : (y + 1) * width ≤ height * width := Nat.mul_le_mul_right width line
  rw [Nat.succ_mul, Nat.mul_comm height] at lines
  omega

/-- Characters of a line, from a column on. -/
def strip (c : Canvas) (x y n : Nat) : List Glyph :=
  (List.range n).map fun k => c.get (x + k) y

theorem strip_eq {c : Canvas} {x y n : Nat} {glyphs : List Glyph} (length : glyphs.length = n)
    (get : ∀ k < n, glyphs[k]? = some (c.get (x + k) y)) : c.strip x y n = glyphs := by
  refine List.ext_getElem? fun k => ?_
  rw [strip, List.getElem?_map]
  by_cases inside : k < n
  · rw [List.getElem?_range inside, get k inside, Option.map_some]
  · rw [List.getElem?_eq_none (by rw [List.length_range]; omega), List.getElem?_eq_none (by omega),
      Option.map_none]

/-- What is painted at a place is seen there. -/
theorem get_paint (c : Canvas) (ink : Nat → Nat → Ink) {x y : Nat} (column : x < c.width)
    (line : y < c.height) : (c.paint ink).get x y = (ink x y).apply (c.get x y) := by
  have place := place_lt column line
  have sameColumn : (y * c.width + x) % c.width = x := by
    rw [Nat.mul_comm, Nat.mul_add_mod, Nat.mod_eq_of_lt column]
  have sameLine : (y * c.width + x) / c.width = y := by
    rw [Nat.mul_comm, Nat.mul_add_div (by omega), Nat.div_eq_of_lt column, Nat.add_zero]
  unfold get paint
  dsimp only
  rw [if_pos column, if_pos column, Array.getD_eq_getD_getElem?,
    Array.getElem?_ofFn, dif_pos place, Option.getD_some, sameColumn, sameLine]

end Canvas

end Worksheet
