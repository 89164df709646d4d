import Worksheet.Editor

/-!
What the keys do.

In normal mode a key stands for a `Command`; at a prompt it edits the line, commits or cancels; and
any key closes the help, except the null key, which does nothing in any mode.
-/

namespace Worksheet

/-- A command of normal mode. -/
inductive Command where
  /-- Moves the cursor by columns and rows. -/
  | move (dx dy : Int)
  | firstColumn
  | lastColumn
  | pageUp
  | pageDown
  | editCell
  /-- Edits the cell anew, starting from an equals sign. -/
  | editFormula
  | clearCell
  | goTo
  | save
  | load
  | help
  | quit
deriving DecidableEq, Repr

/-- The keys of normal mode. -/
def Command.ofKey? : Key → Option Command
  | .up => some (.move 0 (-1))
  | .down => some (.move 0 1)
  | .left | .backTab => some (.move (-1) 0)
  | .right | .tab => some (.move 1 0)
  | .home => some .firstColumn
  | .end => some .lastColumn
  | .pageUp => some .pageUp
  | .pageDown => some .pageDown
  | .enter => some .editCell
  | .delete => some .clearCell
  | .controlC => some .quit
  | .byte b =>
    match Char.ofNat b.toNat with
    | 'e' => some .editCell
    | '=' => some .editFormula
    | 'c' => some .clearCell
    | 'g' => some .goTo
    | 's' => some .save
    | 'l' => some .load
    | '?' => some .help
    | 'q' => some .quit
    | _ => none
  | .backspace | .controlG | .escape | .null => none

namespace Editor

/-- Carries out a command, apart from quitting, which leaves the editor as it is. -/
def run (e : Editor) : Command → Editor
  | .move dx dy => e.moveBy dx dy
  | .firstColumn => e.moveTo e.cursor.row.val 0
  | .lastColumn => e.moveTo e.cursor.row.val columnCount
  | .pageUp => e.moveBy 0 (-e.rows.shown)
  | .pageDown => e.moveBy 0 e.rows.shown
  | .editCell => e.openPrompt .edit (e.sheet.text e.cursor)
  | .editFormula => e.openPrompt .edit "="
  | .clearCell => e.clearCell
  | .goTo => e.openPrompt .goTo ""
  | .save => e.openPrompt .save e.suggestedPath
  | .load => e.openPrompt .load e.suggestedPath
  | .help => { e with mode := .help }
  | .quit => e

end Editor

namespace Workspace

/-- Takes a key, and tells whether it asks to quit. -/
def press (w : Workspace) (k : Key) : Bool × Workspace :=
  match w.editor.mode with
  | .normal =>
    match Command.ofKey? k with
    | some command => (command = .quit, w.mapEditor (·.run command))
    | none => (false, w)
  | .prompt kind =>
    let (event, text) := editLine w.editor.prompt k
    let w := w.mapEditor ({ · with prompt := text })
    match event with
    | .pending => (false, w)
    | .commit => (false, w.commit kind)
    | .cancel => (false, w.mapEditor Editor.closePrompt)
  | .help =>
    (false, if k = .null then w else w.mapEditor ({ · with mode := .normal }))

/-- Takes keys one after the other, and tells whether any of them asks to quit. -/
def pressAll (w : Workspace) (keys : List Key) : Bool × Workspace :=
  keys.foldl
    (fun state k =>
      let (quit, w) := state.2.press k
      (state.1 || quit, w))
    (false, w)

end Workspace

end Worksheet
