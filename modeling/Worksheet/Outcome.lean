/-!
What evaluating a cell gives: a number, or the reason why there is none.
-/

namespace Worksheet

/-- Why a cell has no value. -/
inductive CellError where
  /-- The formula breaks the grammar, or a number in it is not finite. -/
  | parse
  /-- A label names a row outside the grid. -/
  | badReference
  /-- A divisor equals zero. -/
  | divisionByZero
  /-- The cell needs its own value. -/
  | cycle
  /-- Held in reserve for a failed dependency; no evaluation gives it. -/
  | dependency
deriving DecidableEq, Repr

namespace CellError

/-- The short name of an error. -/
def name : CellError → String
  | .parse => "PARSE"
  | .badReference => "BADREF"
  | .divisionByZero => "DIV/0"
  | .cycle => "CYCLE"
  | .dependency => "DEPERR"

/-- What a cell with this error shows. -/
def display (k : CellError) : String :=
  "#" ++ k.name

end CellError

/-- The outcome of an evaluation. -/
abbrev Outcome := Except CellError Float

/-- A number that is not finite counts as a grammar error. -/
def finite (x : Float) : Outcome :=
  if x.isFinite then .ok x else .error .parse

end Worksheet
