import Worksheet.Outcome

/-!
What is remembered about a cell during one pass.
-/

namespace Worksheet

/-- The memo of a cell: its value and error, whether they are settled, and whether its evaluation is
under way. -/
structure Record where
  value : Float
  error : Option CellError
  evaluated : Bool
  evaluating : Bool

namespace Record

/-- A cell that nothing has asked for. -/
def unvisited : Record := ⟨0.0, none, false, false⟩

/-- The outcome a record holds. -/
def outcome (r : Record) : Outcome :=
  match r.error with
  | some k => .error k
  | none => .ok r.value

/-- The evaluation of the cell begins. -/
def begun (r : Record) : Record :=
  { r with error := none, evaluating := true }

/-- A cell asked for while its evaluation is under way is settled as a cycle at once; the evaluation
goes on. -/
def reentered (r : Record) : Record :=
  { r with value := 0.0, error := some .cycle, evaluated := true }

/-- The record of a settled outcome; an error has the value zero. -/
def settled : Outcome → Record
  | .ok x => ⟨x, none, true, false⟩
  | .error k => ⟨0.0, some k, true, false⟩

/-- Two records agree if their flags and errors are the same and their values are equal numbers, so
zeros of either sign agree and a NaN agrees with nothing. -/
def agrees (r s : Record) : Bool :=
  r.value == s.value && r.error = s.error && r.evaluated = s.evaluated &&
    r.evaluating = s.evaluating

end Record

end Worksheet
