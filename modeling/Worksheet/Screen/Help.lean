import Worksheet.Screen.Canvas

/-!
The help, and the box it is shown in.

The box lies over the middle of the screen: it leaves 15 percent of the width and 10 percent of the
height free on every side. Its edges are rounded to the nearest line or column.
-/

namespace Worksheet.Help

/-- The lines of the help. Headings start at the margin, and keys are indented by two blanks. -/
def lines : List String :=
  ["Navigation:",
   "  Arrow keys       Move cursor",
   "  Tab / Shift+Tab  Move right / left",
   "  Home / End       First / last column",
   "  PageUp / PageDn  Scroll by a screen",
   "  g                Go to cell (e.g. C12)",
   "",
   "Editing:",
   "  Enter / e        Edit cell",
   "  =                Start a formula",
   "  c / Delete       Clear cell",
   "  Esc / Ctrl+g     Cancel prompt",
   "",
   "Files:",
   "  s                Save",
   "  l                Load",
   "",
   "Other:",
   "  ?                This help (any key closes)",
   "  q / Ctrl+c       Quit"]

/-- The title in the upper border. -/
def title : String := " tinysheet help "

/-- The style of a line: headings stand out. -/
def styleOf (line : List Char) : Style :=
  match line with
  | [] | ' ' :: ' ' :: _ => .helpText
  | _ => .helpHeading

/-! ## The box -/

/-- A rectangle on the screen. -/
structure Box where
  left : Nat
  top : Nat
  width : Nat
  height : Nat
deriving DecidableEq, Repr

/-- So many percent of a length, rounded to the nearest number, and upwards from the middle. -/
def percent (part whole : Nat) : Nat :=
  (part * whole + 50) / 100

/-- The box on a screen of a size. -/
def box (width height : Nat) : Box :=
  ⟨percent 15 width, percent 10 height, percent 85 width - percent 15 width,
    percent 90 height - percent 10 height⟩

example : box 80 24 = ⟨12, 2, 56, 20⟩ := rfl

/-- The character of the border at a column and a line of a box, if that is on its edge. -/
def Box.border? (b : Box) (x y : Nat) : Option Char :=
  let right := x + 1 = b.width
  let bottom := y + 1 = b.height
  if x = 0 ∧ y = 0 then some '┌'
  else if right ∧ y = 0 then some '┐'
  else if x = 0 ∧ bottom then some '└'
  else if right ∧ bottom then some '┘'
  else if y = 0 ∨ bottom then some '─'
  else if x = 0 ∨ right then some '│'
  else none

/-- What is drawn at a column and a line of the box: the border with the title in it, and the text,
which is cut at the border. -/
def inkInside (b : Box) (x y : Nat) : Ink :=
  match b.border? x y with
  | some symbol =>
    let titled := if y = 0 ∧ 1 ≤ x ∧ x + 1 < b.width then title.toList[x - 1]? else none
    .replace (titled.getD symbol) .helpBorder
  | none =>
    let cs := ((lines[y - 1]?).getD "").toList
    match cs[x - 1]? with
    | some c => .replace c (styleOf cs)
    | none => .replace ' ' .helpText

/-- What the help draws at a column and a line of the screen. -/
def ink (width height x y : Nat) : Ink :=
  let b := box width height
  if b.left ≤ x ∧ x < b.left + b.width ∧ b.top ≤ y ∧ y < b.top + b.height then
    inkInside b (x - b.left) (y - b.top)
  else .none

end Worksheet.Help
