/-!
The part of the grid that is visible, one axis at a time.

An `Axis` shows `shown` rows or columns from `first` on. When the cursor leaves it, `Axis.follow`
scrolls just far enough to bring the cursor back to the nearer edge.
-/

namespace Worksheet

/-- The visible stretch of the rows or of the columns. -/
structure Axis where
  first : Nat
  shown : Nat
deriving DecidableEq, Repr

namespace Axis

/-- A single row or column at the start. -/
def initial : Axis := ⟨0, 1⟩

/-- Scrolls until the cursor is visible. -/
def follow (x : Axis) (cursor : Nat) : Axis :=
  if cursor < x.first then { x with first := cursor }
  else if x.first + x.shown ≤ cursor then { x with first := cursor + 1 - x.shown }
  else x

/-- Where the visible stretch ends in a grid of `limit` rows or columns; the end itself is not
visible. -/
def stop (x : Axis) (limit : Nat) : Nat :=
  min (x.first + x.shown) limit

/-- The visible rows or columns. -/
def visible (x : Axis) (limit : Nat) : List (Fin limit) :=
  (List.finRange limit).filter fun i => x.first ≤ i.val && i.val < x.first + x.shown

end Axis

end Worksheet
