import Worksheet.Proofs.Checked.Evaluation

/-!
The editor with every place checked.

A file's numbers, a typed label, a move of the cursor and the rows and columns that scroll with it are
reckoned as words. The cursor is checked where it is put, and again wherever something goes to its cell.
Each function here does what its namesake does, without a fault.
-/

namespace Worksheet.Checked

/-! ## Reading a file -/

/-- Takes one line. A cell outside the grid is passed over. -/
def addLine (c : SheetFile.Contents) (line : Text.Bytes) : Checked SheetFile.Contents :=
  match SheetFile.readLine line with
  | none => return c
  | some l =>
    if l.row < rowCount ∧ l.column < columnCount then do
      let a ← locate l.row l.column
      return { c with texts := c.texts.set a l.text, stored := c.stored + 1 }
    else return { c with outside := c.outside ++ [(l.row, l.column)] }

/-- Reads lines. -/
def readLines (ls : List Text.Bytes) : Checked SheetFile.Contents :=
  ls.foldlM addLine .empty

theorem ofPair?_of_outside {row column : Nat} (outside : ¬(row < rowCount ∧ column < columnCount)) :
    Address.ofPair? row column = none := by
  unfold Address.ofPair?
  by_cases inRows : row < rowCount
  · rw [dif_pos inRows, dif_neg fun inColumns => outside ⟨inRows, inColumns⟩]
  · rw [dif_neg inRows]

theorem addLine_eq (c : SheetFile.Contents) (line : Text.Bytes) :
    addLine c line = .ok (c.addLine line) := by
  unfold addLine SheetFile.Contents.addLine
  cases SheetFile.readLine line with
  | none => rfl
  | some l =>
      dsimp only
      by_cases inside : l.row < rowCount ∧ l.column < columnCount
      · rw [if_pos inside, locate_of_lt inside.1 inside.2, Address.ofPair?, dif_pos inside.1,
          dif_pos inside.2]
        rfl
      · rw [if_neg inside, ofPair?_of_outside inside]
        rfl

theorem readLines_eq (ls : List Text.Bytes) : readLines ls = .ok (SheetFile.readLines ls) := by
  unfold readLines SheetFile.readLines
  generalize SheetFile.Contents.empty = c
  induction ls generalizing c with
  | nil => rfl
  | cons line ls ih => rw [List.foldlM_cons, addLine_eq, ok_bind, ih, List.foldl_cons]

/-- Learns what reading a path came to. -/
def loaded (s : Sheet) (path : String) :
    ReadOutcome → Checked (Except DiskError Nat × List (Nat × Nat) × Sheet)
  | .unopened e => return (.error e, [], s)
  | .interrupted before e => do
    let contents ← readLines before
    return (.error e, contents.outside, s.takeContents contents)
  | .whole bytes => do
    let contents ← readLines (SheetFile.lines bytes)
    let s := s.takeContents contents
    return (.ok contents.stored, contents.outside, { s with path := some path, modified := false })

theorem loaded_eq (s : Sheet) (path : String) (outcome : ReadOutcome) :
    loaded s path outcome = .ok (s.loaded path outcome) := by
  cases outcome with
  | unopened => rfl
  | interrupted | whole =>
      rw [loaded, readLines_eq]
      rfl

/-- Loads the sheet and says how that went. -/
def load (w : Workspace) (path : String) : Checked Workspace := do
  let (result, outside, sheet) ← loaded w.editor.sheet path (w.disk.read path)
  let w := { w with editor := { w.editor with sheet := sheet } }
  let w := w.note (outside.map fun place => .skippedOutside place.1 place.2)
  match result with
  | .ok count =>
    return (w.note [.loaded path count, .sheetReplaced path count]).mapEditor
      (·.say ("Loaded " ++ toString count ++ " cells from " ++ path))
  | .error e =>
    return (w.note [.loadFailed path e.sheetMessage]).mapEditor
      (·.say ("Load failed: " ++ e.sheetMessage))

theorem load_eq (w : Workspace) (path : String) : load w path = .ok (w.load path) := by
  rw [load, loaded_eq, ok_bind]
  unfold Workspace.load Sheet.load
  rcases w.editor.sheet.loaded path (w.disk.read path) with ⟨_ | _, _, _⟩
  · rfl
  · rfl

/-! ## Cursor and view -/

/-- Scrolls the cursor into view. -/
def follow (e : Editor) : Checked Editor := do
  let columns ← followAxis e.columns e.cursor.column.val
  let rows ← followAxis e.rows e.cursor.row.val
  return { e with rows := rows, columns := columns }

/-- Puts the cursor on the cell at a row and a column, and follows it. -/
def put (e : Editor) (row column : Nat) : Checked Editor := do
  follow { e with cursor := ← locate row column }

/-- Fits the view to a terminal. A terminal that has no room for the labels counts as one that has none
for anything else. -/
def resize (e : Editor) (width height : Nat) : Checked Editor :=
  follow { e with
    rows := { e.rows with shown := max 1 (height - Editor.chromeHeight) }
    columns := { e.columns with shown := max 1 ((width - Editor.labelWidth) / columnWidth) } }

/-- Moves the cursor by columns and rows, as far as the grid goes. -/
def moveBy (e : Editor) (dx dy : Int) : Checked Editor :=
  put e (word (clamp (e.cursor.row.val + dy) (rowCount - 1)))
    (word (clamp (e.cursor.column.val + dx) (columnCount - 1)))

/-- Moves the cursor to a row and a column, or to the last one there is. -/
def moveTo (e : Editor) (row column : Nat) : Checked Editor :=
  put e (min row (rowCount - 1)) (min column (columnCount - 1))

/-- Goes to the cell with a label. -/
def goTo (e : Editor) (input : String) : Checked Editor := do
  match ← label? (Text.trim input) with
  | some (row, column) =>
    if row < rowCount ∧ column < columnCount then moveTo e row column
    else return e.say ("Bad cell: " ++ Text.trim input)
  | none => return e.say ("Bad cell: " ++ Text.trim input)

theorem follow_eq (e : Editor) : follow e = .ok e.follow := by
  rw [follow, followAxis_eq, ok_bind, followAxis_eq, ok_bind]
  rfl

theorem put_eq (e : Editor) (a : Address) :
    put e a.row.val a.column.val = .ok { e with cursor := a }.follow := by
  rw [put, locate_address, ok_bind, follow_eq]

theorem resize_eq (e : Editor) (width height : Nat) :
    resize e width height = .ok (e.resize width height) :=
  follow_eq _

theorem moveBy_eq (e : Editor) (dx dy : Int) : moveBy e dx dy = .ok (e.moveBy dx dy) := by
  have rows : rowCount - 1 < Nat.pow 2 64 := by decide
  have columns : columnCount - 1 < Nat.pow 2 64 := by decide
  rw [moveBy, word_clamp rows, word_clamp columns]
  exact put_eq e (.nearest (e.cursor.row.val + dy) (e.cursor.column.val + dx))

theorem moveTo_eq (e : Editor) (row column : Nat) :
    moveTo e row column = .ok (e.moveTo row column) :=
  put_eq e (.nearest row column)

theorem goTo_eq (e : Editor) (input : String) : goTo e input = .ok (e.goTo input) := by
  rw [goTo, label?_eq, ok_bind, Editor.goTo]
  cases Address.ofLabel? (Text.trim input) with
  | none => rfl
  | some a =>
      dsimp only [Option.map_some]
      rw [if_pos ⟨a.row.isLt, a.column.isLt⟩, moveTo_eq]

/-! ## Keys -/

/-- The cell under the cursor. -/
def current (e : Editor) : Checked Address :=
  locate e.cursor.row.val e.cursor.column.val

/-- Carries out a command. The last column is sought at the end of the words. -/
def run (e : Editor) : Command → Checked Editor
  | .move dx dy => moveBy e dx dy
  | .firstColumn => moveTo e e.cursor.row.val 0
  | .lastColumn => moveTo e e.cursor.row.val (Nat.pow 2 64 - 1)
  | .pageUp => moveBy e 0 (-e.rows.shown)
  | .pageDown => moveBy e 0 e.rows.shown
  | .editCell => do return e.openPrompt .edit (e.sheet.text (← current e))
  | .clearCell => do return { e with sheet := e.sheet.clear (← current e) }
  | command => return e.run command

/-- Closes the prompt and does what its text says. -/
def commit (w : Workspace) (kind : PromptKind) : Checked Workspace := do
  let input := w.editor.prompt
  let path := Workspace.promptedPath? input w.editor.promptDefault
  let w := (w.mapEditor Editor.closePrompt).note [.promptCommitted kind input]
  match kind, path with
  | .edit, _ => return { w with editor := w.editor.setText (← current w.editor) input }
  | .goTo, _ => return { w with editor := ← goTo w.editor input }
  | .save, some path => return w.save path
  | .load, some path => load w path
  | .save, none | .load, none => return w.mapEditor (·.say "No file name")

/-- Takes a key, and tells whether it asks to quit. -/
def press (w : Workspace) (k : Key) : Checked (Bool × Workspace) := do
  match w.editor.mode with
  | .normal =>
    match Command.ofKey? k with
    | some command => return (command = .quit, { w with editor := ← run w.editor command })
    | none => return (false, w)
  | .prompt kind =>
    let (event, text) := editLine w.editor.prompt k
    let w := w.mapEditor ({ · with prompt := text })
    match event with
    | .pending => return (false, w)
    | .commit => return (false, ← commit w kind)
    | .cancel => return (false, w.mapEditor Editor.closePrompt)
  | .help => return (false, if k = .null then w else w.mapEditor ({ · with mode := .normal }))

theorem current_eq (e : Editor) : current e = .ok e.cursor :=
  locate_address e.cursor

theorem run_eq (e : Editor) (command : Command) : run e command = .ok (e.run command) := by
  cases command with
  | move dx dy => exact moveBy_eq e dx dy
  | firstColumn | lastColumn => exact moveTo_eq e _ _
  | pageUp | pageDown => exact moveBy_eq e _ _
  | editCell | clearCell =>
      rw [run, current_eq]
      rfl
  | editFormula | goTo | save | load | help | quit => rfl

theorem commit_eq (w : Workspace) (kind : PromptKind) : commit w kind = .ok (w.commit kind) := by
  unfold commit Workspace.commit
  dsimp only
  cases kind with
  | edit =>
      rw [current_eq]
      rfl
  | goTo =>
      rw [goTo_eq]
      rfl
  | save =>
      cases Workspace.promptedPath? w.editor.prompt w.editor.promptDefault with
      | none => rfl
      | some path => rfl
  | load =>
      cases Workspace.promptedPath? w.editor.prompt w.editor.promptDefault with
      | none => rfl
      | some path => exact load_eq _ path

theorem press_eq (w : Workspace) (k : Key) : press w k = .ok (w.press k) := by
  unfold press Workspace.press
  cases w.editor.mode with
  | normal =>
      dsimp only
      cases Command.ofKey? k with
      | none => rfl
      | some command =>
          dsimp only
          rw [run_eq]
          rfl
  | prompt kind =>
      dsimp only
      rcases editLine w.editor.prompt k with ⟨_ | _ | _, text⟩
      · rfl
      · dsimp only
        rw [commit_eq]
        rfl
      · rfl
  | help => rfl

end Worksheet.Checked
