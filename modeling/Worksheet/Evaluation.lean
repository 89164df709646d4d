import Worksheet.CellText
import Worksheet.Formula.Evaluation
import Worksheet.Grid
import Worksheet.Record

/-!
Evaluating cells on demand.

`visit` settles one cell: it evaluates the cell's text and, on the way, whatever the text refers to.
A cell settled earlier in the pass keeps its record, and one whose evaluation is still under way is
settled as a cycle. Every visit that evaluates a text marks its cell first, and no mark is taken back
before the cell is settled, so visits nest at most as deep as the grid has cells.
-/

namespace Worksheet

/-- The records of all cells. -/
abbrev Records := Grid Record

/-- A call to settle a cell. -/
structure Call where
  /-- The cells whose texts are being evaluated around the call, the innermost first. -/
  outer : List Address
  cell : Address
  /-- Whether the call evaluates the text of its cell. -/
  evaluates : Bool
deriving DecidableEq

namespace Records

/-- Nothing has been asked for. -/
def unvisited : Records := Grid.fill .unvisited

/-! ## One cell -/

/-- The outcome of a text, asking `resolve` for the cells that a formula refers to. A text that is
no number counts as zero. -/
def outcomeOf {m : Type → Type} [Monad m] (resolve : Address → m Outcome) (text : CellText) :
    m Outcome :=
  match text.content with
  | .formula body => (Expr.ofChars body).evaluate resolve
  | .number value => pure (.ok value)
  | .nothing | .words => pure (.ok 0.0)

/-- Settles a cell and notes every call on the way. Calls nest at most `depth` deep, and one more is
`tooDeep`; `outer` lists the cells under way around the call, the innermost first. -/
def visitNoting {m : Type → Type} [Monad m] [MonadState Records m] (note : Call → m Unit)
    (tooDeep : m Unit) (texts : Grid CellText) : Nat → List Address → Address → m Unit
  | depth, outer, a => do
    let r := (← get).get a
    if r.evaluated then note ⟨outer, a, false⟩
    else if r.evaluating then do
      note ⟨outer, a, false⟩
      modify (·.set a r.reentered)
    else
      match depth with
      | 0 => tooDeep
      | depth + 1 => do
        note ⟨outer, a, true⟩
        modify (·.set a r.begun)
        let outcome ← outcomeOf
          (fun b => do
            visitNoting note tooDeep texts depth (a :: outer) b
            return ((← get).get b).outcome)
          (texts.get a)
        modify (·.set a (.settled outcome))

/-- Settles a cell, with calls nested at most `depth` deep; `none` tells that this was too few. -/
def visit (texts : Grid CellText) (depth : Nat) (a : Address) : StateT Records Option Unit :=
  visitNoting (fun _ => pure ()) failure texts depth [] a

/-- Settles a cell; the depth allowed is the number of cells. -/
def settle (texts : Grid CellText) (a : Address) (rs : Records) : Records :=
  match (visit texts cellCount a).run rs with
  | some ((), rs) => rs
  | none => rs

/-! ## The whole grid -/

/-- Forgets all records and settles every cell, row by row. -/
def recompute (texts : Grid CellText) : Records :=
  Address.all.foldl (fun rs a => settle texts a rs) unvisited

/-- How many cells carry an error. -/
def errorCount (rs : Records) (k : CellError) : Nat :=
  (rs.toList.filter fun cell => cell.2.error = some k).length

end Records

end Worksheet
