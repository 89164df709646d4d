/-!
Colours and emphasis of characters on the screen.

A style may leave things open. Drawn over a character, it changes what it names and keeps the rest.
-/

namespace Worksheet

/-- The colours in use. -/
inductive Color where
  | black
  | white
  | darkGray
  | cyan
  | red
  | yellow
  | green
deriving DecidableEq, Repr

/-- The look of a character; a colour left out is the terminal's own. -/
structure Style where
  foreground : Option Color
  background : Option Color
  bold : Bool
  blink : Bool
deriving DecidableEq, Repr

namespace Style

/-- Nothing in particular. -/
def plain : Style := ⟨none, none, false, false⟩

/-- Draws a style onto another: what it names wins, and emphasis adds up. -/
def onto (new old : Style) : Style :=
  ⟨new.foreground.or old.foreground, new.background.or old.background,
   new.bold || old.bold, new.blink || old.blink⟩

/-- A foreground colour. -/
def colored (c : Color) : Style := { plain with foreground := some c }

/-! ## The styles of a frame -/

/-- Labels of rows and columns, and the status line. -/
def dim : Style := colored .darkGray

/-- The labels of the cursor's row and column. -/
def heading : Style := ⟨some .black, some .white, true, false⟩

/-- The cursor's cell. -/
def cursor : Style := ⟨some .black, some .cyan, true, false⟩

/-- A cell with an error. -/
def error : Style := colored .red

/-- A status line with a message. -/
def notice : Style := colored .yellow

/-- What stands in front of a prompt. -/
def promptLabel : Style := { colored .yellow with bold := true }

/-- The place where typing goes on. -/
def caret : Style := { plain with blink := true }

/-- The lines of the help. -/
def helpText : Style := ⟨some .white, some .black, false, false⟩

/-- The frame around the help. -/
def helpBorder : Style := ⟨some .green, some .black, false, false⟩

/-- The headings of the help. -/
def helpHeading : Style := ⟨some .yellow, some .black, true, false⟩

end Style

end Worksheet
