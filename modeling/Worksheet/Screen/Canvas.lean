import Worksheet.Screen.Style

/-!
A rectangle of characters.

A `Canvas` keeps its characters line after line. `Canvas.paint` draws on it: at each place the ink
leaves the character alone, draws over it, or replaces it together with its style.
-/

namespace Worksheet

/-- A character on the screen. -/
structure Glyph where
  symbol : Char
  style : Style
deriving DecidableEq, Repr

/-- A blank. -/
def Glyph.blank : Glyph := ⟨' ', .plain⟩

/-- What is drawn at one place. -/
inductive Ink where
  /-- Nothing. -/
  | none
  /-- A character, with a style over the one that is there. -/
  | draw (symbol : Char) (style : Style)
  /-- A character with a style of its own. -/
  | replace (symbol : Char) (style : Style)
deriving DecidableEq, Repr

/-- The character after drawing. -/
def Ink.apply (old : Glyph) : Ink → Glyph
  | .none => old
  | .draw symbol style => ⟨symbol, style.onto old.style⟩
  | .replace symbol style => ⟨symbol, style⟩

/-- The characters of a screen, line after line. -/
structure Canvas where
  width : Nat
  height : Nat
  glyphs : Array Glyph

namespace Canvas

/-- A canvas of blanks. -/
def blank (width height : Nat) : Canvas :=
  ⟨width, height, Array.replicate (width * height) .blank⟩

/-- A canvas of another size that keeps the sequence of characters, so that lines break anew. It is
cut short or filled up with blanks. -/
def resize (c : Canvas) (width height : Nat) : Canvas :=
  ⟨width, height, Array.ofFn fun i : Fin (width * height) => c.glyphs.getD i.val .blank⟩

/-- The character at a column and a line. -/
def get (c : Canvas) (x y : Nat) : Glyph :=
  if x < c.width then c.glyphs.getD (y * c.width + x) .blank else .blank

/-- Draws with the ink that each column and line is given. -/
def paint (c : Canvas) (ink : Nat → Nat → Ink) : Canvas :=
  ⟨c.width, c.height,
   Array.ofFn fun i : Fin (c.width * c.height) =>
     (ink (i.val % c.width) (i.val / c.width)).apply (c.glyphs.getD i.val .blank)⟩

/-- The lines of the canvas. -/
def lines (c : Canvas) : List (List Glyph) :=
  (List.range c.height).map fun y => (List.range c.width).map fun x => c.get x y

/-- The text of the lines, without the blanks at their ends. -/
def text (c : Canvas) : List String :=
  c.lines.map fun line =>
    String.ofList ((line.map Glyph.symbol).reverse.dropWhile (· = ' ')).reverse

end Canvas

end Worksheet
