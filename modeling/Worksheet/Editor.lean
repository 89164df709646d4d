import Worksheet.Journal
import Worksheet.Sheet
import Worksheet.View

/-!
The editor's state: the sheet, the cursor and what is visible around it, the prompt and the status.

The cursor is an address, so it never leaves the grid, and every move of it and every change of size
scrolls it back into view. What touches files works on a `Workspace`, which holds the disk and the
journal beside the editor.
-/

namespace Worksheet

/-! ## State -/

/-- What the keyboard drives. -/
inductive Mode where
  /-- The cursor, and commands of a single key. -/
  | normal
  /-- The prompt. -/
  | prompt (kind : PromptKind)
  /-- The help, which any key closes. -/
  | help
deriving DecidableEq, Repr

/-- The state of the editor. -/
structure Editor where
  sheet : Sheet
  cursor : Address
  rows : Axis
  columns : Axis
  mode : Mode
  /-- What has been typed at the prompt. -/
  prompt : String
  /-- The text the prompt was opened with; a path prompt left blank means this path. -/
  promptDefault : String
  /-- A message for the next frame. -/
  status : Option String
  /-- The path that is suggested before the sheet has a file. -/
  defaultFile : String

namespace Editor

/-- An editor with an empty sheet. -/
def new (defaultFile : String) : Editor where
  sheet := .empty
  cursor := .origin
  rows := .initial
  columns := .initial
  mode := .normal
  prompt := ""
  promptDefault := ""
  status := none
  defaultFile := defaultFile

/-- Leaves a message for the next frame. -/
def say (e : Editor) (message : String) : Editor :=
  { e with status := some message }

/-! ## Cursor and view -/

/-- Scrolls the cursor into view. -/
def follow (e : Editor) : Editor :=
  { e with
    rows := e.rows.follow e.cursor.row.val
    columns := e.columns.follow e.cursor.column.val }

/-- Lines of the screen that show no row: the header and the status. -/
def chromeHeight : Nat := 2

/-- The width of the row labels. -/
def labelWidth : Nat := 4

/-- Fits the view to a terminal; at least one row and one column stay visible. -/
def resize (e : Editor) (width height : Nat) : Editor :=
  { e with
    rows := { e.rows with shown := max 1 (height - chromeHeight) }
    columns := { e.columns with shown := max 1 ((width - labelWidth) / columnWidth) } }.follow

/-- Moves the cursor by columns and rows, as far as the grid goes. -/
def moveBy (e : Editor) (dx dy : Int) : Editor :=
  { e with cursor := .nearest (e.cursor.row.val + dy) (e.cursor.column.val + dx) }.follow

/-- Moves the cursor to a row and a column, or to the last one there is. -/
def moveTo (e : Editor) (row column : Nat) : Editor :=
  { e with cursor := .nearest row column }.follow

/-! ## Frames -/

/-- Begins a frame: every cell is evaluated anew when it is asked for. -/
def beginPass (e : Editor) : Editor :=
  { e with sheet := e.sheet.beginPass }

/-- Ends a frame: the message has been shown. -/
def endFrame (e : Editor) : Editor :=
  { e with status := none }

/-- The status line: the cell's label and text, its value or error, a mark if the sheet is modified,
and the message. -/
def statusLine (e : Editor) : String × Editor :=
  let raw := String.ofList ((e.sheet.texts.get e.cursor).chars.map Text.shown)
  let (outcome, sheet) := e.sheet.result e.cursor
  let value :=
    match outcome with
    | .ok x => "val=" ++ formatNumber x
    | .error k => "err=" ++ k.name
  let mark := if sheet.modified then " [+]" else ""
  let message :=
    match e.status with
    | some s => "  " ++ s
    | none => ""
  (e.cursor.label ++ " [" ++ raw ++ "] " ++ value ++ mark ++ message, { e with sheet := sheet })

/-! ## Prompts -/

/-- Opens a prompt with a text already typed. -/
def openPrompt (e : Editor) (kind : PromptKind) (initial : String) : Editor :=
  { e with prompt := initial, promptDefault := initial, mode := .prompt kind }

/-- Closes the prompt. -/
def closePrompt (e : Editor) : Editor :=
  { e with prompt := "", mode := .normal }

/-- The path offered for saving and loading. -/
def suggestedPath (e : Editor) : String :=
  e.sheet.path.getD e.defaultFile

/-- Replaces the text of a cell. -/
def setText (e : Editor) (a : Address) (text : String) : Editor :=
  { e with sheet := e.sheet.setText a text }

/-- Empties the current cell. -/
def clearCell (e : Editor) : Editor :=
  { e with sheet := e.sheet.clear e.cursor }

/-- Goes to the cell with a label. -/
def goTo (e : Editor) (input : String) : Editor :=
  match Address.ofLabel? (Text.trim input) with
  | some a => e.moveTo a.row.val a.column.val
  | none => e.say ("Bad cell: " ++ Text.trim input)

end Editor

/-! ## The editor with its surroundings -/

/-- An editor, the disk it saves to and loads from, and the events so far, the latest last. -/
structure Workspace where
  editor : Editor
  disk : Disk
  journal : List Event

namespace Workspace

/-- Changes the editor alone. -/
def mapEditor (w : Workspace) (f : Editor → Editor) : Workspace :=
  { w with editor := f w.editor }

/-- Notes events down. -/
def note (w : Workspace) (events : List Event) : Workspace :=
  { w with journal := w.journal ++ events }

@[simp]
theorem editor_mapEditor (w : Workspace) (f : Editor → Editor) :
    (w.mapEditor f).editor = f w.editor :=
  rfl

@[simp]
theorem editor_note (w : Workspace) (events : List Event) : (w.note events).editor = w.editor :=
  rfl

/-- Saves the sheet and says how that went. -/
def save (w : Workspace) (path : String) : Workspace :=
  let (result, sheet, disk) := w.editor.sheet.save w.disk path
  let w := { w with editor := { w.editor with sheet := sheet }, disk := disk }
  match result with
  | .ok count =>
    (w.note [.saved path count]).mapEditor
      (·.say ("Saved " ++ toString count ++ " cells to " ++ path))
  | .error e =>
    (w.note [.saveFailed path e.sheetMessage]).mapEditor (·.say ("Save failed: " ++ e.sheetMessage))

/-- Loads the sheet and says how that went. -/
def load (w : Workspace) (path : String) : Workspace :=
  let (result, outside, sheet) := w.editor.sheet.load w.disk path
  let w := { w with editor := { w.editor with sheet := sheet } }
  let w := w.note (outside.map fun place => .skippedOutside place.1 place.2)
  match result with
  | .ok count =>
    (w.note [.loaded path count, .sheetReplaced path count]).mapEditor
      (·.say ("Loaded " ++ toString count ++ " cells from " ++ path))
  | .error e =>
    (w.note [.loadFailed path e.sheetMessage]).mapEditor (·.say ("Load failed: " ++ e.sheetMessage))

/-- The path a prompt asks for: what was typed, or the default if that is blank. White space around
it does not count, and a blank path is none. -/
def promptedPath? (input default : String) : Option String :=
  let path := if Text.isAllWhiteSpace input then default else input
  if Text.isAllWhiteSpace path then none else some (Text.trim path)

/-- Closes the prompt and does what its text says. -/
def commit (w : Workspace) (kind : PromptKind) : Workspace :=
  let input := w.editor.prompt
  let path := promptedPath? input w.editor.promptDefault
  let w := (w.mapEditor Editor.closePrompt).note [.promptCommitted kind input]
  match kind, path with
  | .edit, _ => w.mapEditor fun e => e.setText e.cursor input
  | .goTo, _ => w.mapEditor (·.goTo input)
  | .save, some path => w.save path
  | .load, some path => w.load path
  | .save, none | .load, none => w.mapEditor (·.say "No file name")

end Workspace

end Worksheet
