import Worksheet.Disk
import Worksheet.Display
import Worksheet.Evaluation
import Worksheet.SheetFile.Format

/-!
A sheet: its texts, what is remembered about their values, and its file.

Texts change through `Sheet.setText` and `Sheet.load` only; asking for values changes nothing but
records. A pass begins by forgetting the records, and within it every cell is evaluated at most once,
when something asks for it.
-/

namespace Worksheet

/-- The state of a sheet. -/
structure Sheet where
  texts : Grid CellText
  records : Records
  /-- The file last saved to or loaded from. -/
  path : Option String
  /-- Whether a text changed since the last save or load. -/
  modified : Bool

namespace Sheet

/-- A sheet without texts and without a file. -/
def empty : Sheet := ⟨.fill .empty, .unvisited, none, false⟩

/-! ## Texts -/

/-- The text of a cell. -/
def text (s : Sheet) (a : Address) : String :=
  (s.texts.get a).text

/-- Replaces the text of a cell. A text other than the stored one modifies the sheet. -/
def setText (s : Sheet) (a : Address) (new : String) : Sheet :=
  if s.text a = new then s
  else { s with texts := s.texts.set a (.ofString new), modified := true }

theorem texts_setText (s : Sheet) (a b : Address) (new : String) :
    (s.setText a new).texts.get b = if a = b then .ofString new else s.texts.get b := by
  unfold setText
  split
  · next same =>
      split
      · next here => rw [← here, ← same, text, CellText.ofString_text]
      · rfl
  · exact Grid.get_set s.texts a b _

theorem modified_setText (s : Sheet) (a : Address) (new : String) :
    (s.setText a new).modified = (s.modified || new ≠ s.text a) := by
  unfold setText
  split
  · next same => simp [same]
  · next other => simp [Ne.symm other]

theorem setText_eq (s : Sheet) (a : Address) (new : String) : s.setText a new =
    { s with texts := (s.setText a new).texts, modified := (s.setText a new).modified } := by
  unfold setText
  split
  · rfl
  · rfl

/-- Empties a cell. -/
def clear (s : Sheet) (a : Address) : Sheet :=
  s.setText a ""

/-- Stores a text without counting it as a modification. -/
def store (s : Sheet) (a : Address) (new : String) : Sheet :=
  { s with texts := s.texts.set a (.ofString new) }

/-- Empties a cell and forgets its record. -/
def wipe (s : Sheet) (a : Address) : Sheet :=
  { s with texts := s.texts.set a .empty, records := s.records.set a .unvisited }

/-- Empties all cells and forgets all records. -/
def wipeAll (s : Sheet) : Sheet :=
  { s with texts := .fill .empty, records := .unvisited }

/-- How many cells are not empty. -/
def filledCount (s : Sheet) : Nat :=
  (SheetFile.filled s.texts).length

/-! ## Values -/

/-- Begins a pass: the records are forgotten. -/
def beginPass (s : Sheet) : Sheet :=
  { s with records := .unvisited }

/-- Evaluates every cell anew. -/
def recompute (s : Sheet) : Sheet :=
  { s with records := .recompute s.texts }

/-- Evaluates a cell if the pass has not done so. -/
def visit (s : Sheet) (a : Address) : Sheet :=
  { s with records := s.records.settle s.texts a }

/-- The record of a cell. -/
def record (s : Sheet) (a : Address) : Record :=
  s.records.get a

/-- The outcome of a cell in this pass. -/
def result (s : Sheet) (a : Address) : Outcome × Sheet :=
  let s := s.visit a
  ((s.record a).outcome, s)

/-- What a cell shows in this pass. -/
def display (s : Sheet) (a : Address) : String × Sheet :=
  let s := s.visit a
  (Worksheet.display (s.texts.get a) (s.record a), s)

/-- Puts a record in place of a cell's own. -/
def setRecord (s : Sheet) (a : Address) (r : Record) : Sheet :=
  { s with records := s.records.set a r }

/-! ## Comparing -/

/-- Two sheets have the same texts. -/
def sameTexts (s t : Sheet) : Bool :=
  Address.all.all fun a => s.texts.get a = t.texts.get a

/-- Two sheets have the same texts, and their records agree. -/
def agrees (s t : Sheet) : Bool :=
  s.sameTexts t && Address.all.all fun a => (s.records.get a).agrees (t.records.get a)

/-! ## Files -/

/-- The content of the sheet's file. -/
def content (s : Sheet) : String :=
  SheetFile.write s.texts

/-- Takes the texts that were read in place of its own; all records are forgotten. -/
def takeContents (s : Sheet) (contents : SheetFile.Contents) : Sheet :=
  { s with texts := contents.texts, records := .unvisited }

/-- Takes texts from a file's content. -/
def parse (s : Sheet) (bytes : Text.Bytes) : SheetFile.Contents × Sheet :=
  let contents := SheetFile.read bytes
  (contents, s.takeContents contents)

/-- Learns how writing its file went. Only a save that succeeds remembers the path and counts the
sheet as unmodified. -/
def saved (s : Sheet) (path : String) : Except DiskError Unit → Except DiskError Nat × Sheet
  | .ok () => (.ok s.filledCount, { s with path := some path, modified := false })
  | .error e => (.error e, s)

/-- Saves to a path, on a disk that may fail while it takes the content. -/
def saveUnder (fault : Option DiskError) (s : Sheet) (disk : Disk) (path : String) :
    Except DiskError Nat × Sheet × Disk :=
  let (written, disk) := disk.replace fault path (Text.encode s.content)
  let (result, s) := s.saved path written
  (result, s, disk)

/-- Saves to a path. -/
def save (s : Sheet) (disk : Disk) (path : String) : Except DiskError Nat × Sheet × Disk :=
  s.saveUnder none disk path

/-- Learns what reading a path came to, and tells which places outside the grid were passed over. A
path that cannot be opened leaves the sheet alone. When reading is interrupted the sheet has been
emptied, and it holds what was read by then. -/
def loaded (s : Sheet) (path : String) :
    ReadOutcome → Except DiskError Nat × List (Nat × Nat) × Sheet
  | .unopened e => (.error e, [], s)
  | .interrupted before e =>
    let contents := SheetFile.readLines before
    (.error e, contents.outside, s.takeContents contents)
  | .whole bytes =>
    let (contents, s) := s.parse bytes
    (.ok contents.stored, contents.outside, { s with path := some path, modified := false })

/-- Loads from a path. -/
def load (s : Sheet) (disk : Disk) (path : String) :
    Except DiskError Nat × List (Nat × Nat) × Sheet :=
  s.loaded path (disk.read path)

end Sheet

/-- What is said when saving or loading fails. -/
def DiskError.sheetMessage (e : DiskError) : String :=
  "IO error: " ++ e.message

end Worksheet
