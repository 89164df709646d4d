import Worksheet.Address

/-!
A value for every cell.

A `Grid α` is read and written by address, so no access can fall outside it. `Grid.get_set` says
what a write does: it changes the one cell and leaves the others.
-/

namespace Worksheet

/-- One value for each of the 2600 cells, in row-major order. -/
structure Grid (α : Type) where
  cells : Vector α cellCount

namespace Grid

variable {α : Type}

/-- The same value everywhere. -/
def fill (x : α) : Grid α := ⟨Vector.replicate cellCount x⟩

/-- The value of a cell. -/
def get (g : Grid α) (a : Address) : α := g.cells[a.index]

/-- Changes the value of one cell. -/
def set (g : Grid α) (a : Address) (x : α) : Grid α := ⟨g.cells.set a.index x⟩

/-- The cells with their addresses, row by row. -/
def toList (g : Grid α) : List (Address × α) :=
  Address.all.map fun a => (a, g.get a)

/-! ## Reading back -/

theorem get_fill (x : α) (a : Address) : (fill x).get a = x := by
  simp [fill, get]

end Grid

/-- Two addresses with one position are the same. -/
theorem Address.index_injective {a b : Address} (h : a.index = b.index) : a = b := by
  rcases a with ⟨⟨r, hr⟩, ⟨c, hc⟩⟩
  rcases b with ⟨⟨s, hs⟩, ⟨d, hd⟩⟩
  have position : r * 26 + c = s * 26 + d := congrArg Fin.val h
  have left : c < 26 := hc
  have right : d < 26 := hd
  simp only [Address.mk.injEq, Fin.mk.injEq]
  omega

/-- Every position is that of an address. -/
theorem Address.exists_index (i : Fin cellCount) : ∃ a : Address, a.index = i := by
  have bound : i.val < 100 * 26 := i.isLt
  have row : i.val / 26 < 100 := by omega
  have column : i.val % 26 < columnCount := Nat.mod_lt _ (by decide)
  exact ⟨⟨⟨i.val / 26, row⟩, ⟨i.val % 26, column⟩⟩, Fin.ext (Nat.div_add_mod' i.val 26)⟩

/-- Grids with the same values are the same. -/
theorem Grid.ext_get {α : Type} {g h : Grid α} (same : ∀ a, g.get a = h.get a) : g = h := by
  rcases g with ⟨g⟩
  rcases h with ⟨h⟩
  congr 1
  refine Vector.ext fun i bound => ?_
  obtain ⟨a, index⟩ := Address.exists_index ⟨i, bound⟩
  have cell := same a
  simp only [get, index] at cell
  exact cell

theorem Grid.get_set {α : Type} (g : Grid α) (a b : Address) (x : α) :
    (g.set a x).get b = if a = b then x else g.get b := by
  simp only [Grid.get, Grid.set, Fin.getElem_fin, Vector.getElem_set]
  by_cases h : a = b
  · subst h
    simp
  · rw [if_neg h, if_neg fun e => h (Address.index_injective (Fin.ext e))]

theorem Grid.set_get {α : Type} (g : Grid α) (a : Address) : g.set a (g.get a) = g := by
  refine Grid.ext_get fun b => ?_
  rw [Grid.get_set]
  split
  · next here => rw [here]
  · rfl

end Worksheet
