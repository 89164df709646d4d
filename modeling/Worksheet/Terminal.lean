import Worksheet.Screen.Frame

/-!
The terminal that frames are drawn on.

A frame is drawn on a pending canvas and then shown. When showing fails, the screen stays as it was
and the pending canvas keeps what was drawn, so the next frame goes over it. A new size clears the
screen, and if the size cannot be asked for, nothing is drawn at all. What fails may last, as a part of
the terminal's state, or it is a `FrameFault` of a single frame.
-/

namespace Worksheet

/-- The state of a terminal. -/
structure Terminal where
  width : Nat
  height : Nat
  /-- Asking for the size fails. -/
  sizeFails : Bool
  /-- Showing a frame fails. -/
  showFails : Bool
  /-- What can be seen. -/
  screen : Canvas
  /-- What the next frame is drawn on. -/
  pending : Canvas

/-- Where a single frame may fail, besides what already ails the terminal. -/
inductive FrameFault where
  /-- The size cannot be asked for, so nothing is fitted and nothing is drawn. -/
  | size
  /-- The size can be asked for once, but not again when drawing begins. -/
  | start
  /-- The frame is drawn and cannot be shown. -/
  | finish
deriving DecidableEq, Repr

namespace Terminal

/-- A clear terminal. -/
def new (width height : Nat) : Terminal :=
  ⟨width, height, false, false, .blank width height, .blank width height⟩

/-- The size, if it can be asked for. -/
def size? (t : Terminal) : Option (Nat × Nat) :=
  if t.sizeFails then none else some (t.width, t.height)

/-- The size that a frame with this fault is fitted to. -/
def sizeUnder (fault : Option FrameFault) (t : Terminal) : Option (Nat × Nat) :=
  if fault = some .size then none else t.size?

/-- Takes notice of the size: when it changed, the screen is cleared and the pending canvas takes
the new size. -/
def fit (t : Terminal) (width height : Nat) : Terminal :=
  if t.pending.width = width ∧ t.pending.height = height then t
  else { t with screen := .blank width height, pending := t.pending.resize width height }

/-- Draws the editor and shows the frame, unless a fault prevents it. -/
def drawUnder (fault : Option FrameFault) (t : Terminal) (e : Editor) : Terminal × Editor :=
  match if fault = some .start then none else t.sizeUnder fault with
  | none => (t, e)
  | some (width, height) =>
    let t := t.fit width height
    let (frame, e) := Frame.draw e
    let drawn := frame.paint t.pending
    if t.showFails ∨ fault = some .finish then ({ t with pending := drawn }, e)
    else ({ t with screen := drawn, pending := .blank width height }, e)

/-- Draws the editor and shows the frame. -/
def draw (t : Terminal) (e : Editor) : Terminal × Editor :=
  t.drawUnder none e

end Terminal

end Worksheet
