import Worksheet.Proofs.CellText.Cut
import Worksheet.Proofs.Checked.Places
import Worksheet.Proofs.Editor.View
import Worksheet.Proofs.Sheet.History
import Worksheet.Proofs.Text.Boundary

/-!
Cells that are buffers of bytes.

A `CellText` is never too long. Here a cell is a buffer that any bytes could stand in. What is written into
it is cut on bytes: from the capacity on the cut goes back, one byte at a time, to a place where a character
begins, and going back beyond the first byte is a fault. This keeps the longest run of whole characters
there is room for (`Checked.cut_encode`).

The buffers are written beside a workspace, by everything that writes texts: keys, prompts, files and
operations on the sheet. Each of these is proved to leave in the buffers the bytes of the texts that the
library has (`Buffers.along_eq`), so that no way of writing a text gets around the cut.
-/

namespace Worksheet

open Text (Bytes)

/-! ## The cut -/

namespace Checked

/-- The last boundary at a place or before it. -/
def lastBoundary (bs : Bytes) : Nat → Checked Nat
  | 0 => if Text.isBoundary bs 0 then .ok 0 else .error (.underflow 0 1)
  | place + 1 => if Text.isBoundary bs (place + 1) then .ok (place + 1) else lastBoundary bs place

/-- Cuts bytes to the capacity of a cell. -/
def cut (bs : Bytes) : Checked Bytes := do
  if bs.length ≤ cellCapacity then return bs
  else return bs.take (← lastBoundary bs cellCapacity)

theorem lastBoundary_eq {bs : Bytes} {n place : Nat} (le : n ≤ place)
    (boundary : Text.isBoundary bs n = true)
    (none : ∀ m, n < m → m ≤ place → Text.isBoundary bs m = false) :
    lastBoundary bs place = .ok n := by
  induction place with
  | zero =>
      obtain rfl := Nat.le_zero.mp le
      rw [lastBoundary, if_pos boundary]
  | succ place ih =>
      rw [lastBoundary]
      rcases Nat.lt_or_eq_of_le le with less | rfl
      · rw [none (place + 1) less (Nat.le_refl _), if_neg Bool.false_ne_true]
        exact ih (Nat.le_of_lt_succ less) fun m above within => none m above (Nat.le_succ_of_le within)
      · rw [if_pos boundary]

/-- Within a character the cut goes back to where the character begins. -/
theorem lastBoundary_encodeChars {front rest : List Char} {c : Char} {place : Nat}
    (le : (Text.encodeChars front).length ≤ place)
    (lt : place < (Text.encodeChars front).length + c.utf8Size) :
    lastBoundary (Text.encodeChars (front ++ c :: rest)) place =
      .ok (Text.encodeChars front).length := by
  refine lastBoundary_eq le (Text.isBoundary_front front rest c) fun m above within => ?_
  obtain ⟨i, rfl⟩ := Nat.exists_eq_add_of_lt above
  exact Text.isBoundary_inside front rest c (Nat.succ_pos i) (by omega)

/-- The bytes of a text are cut to the bytes of what a cell stores of it. -/
theorem cut_encode (s : String) :
    cut (Text.encode s) = .ok (Text.encode (CellText.ofString s).text) := by
  unfold cut
  by_cases fits : s.utf8ByteSize ≤ cellCapacity
  · rw [if_pos (by rwa [Text.length_encode]), CellText.ofString_of_fits fits]
    rfl
  rw [if_neg (by rwa [Text.length_encode])]
  have size := (CellText.ofString s).size_le
  rcases CellText.ofString_cases s with whole | ⟨c, rest, split, full⟩
  · rw [whole] at size
    exact absurd size fits
  -- the capacity lies within the first character that is left out
  have kept : Text.encode (CellText.ofString s).text =
    Text.encodeChars (CellText.ofString s).chars := Text.encode_eq _
  rw [← Text.length_encode, kept] at size full
  rw [Text.encode_eq s, split, lastBoundary_encodeChars size full, ok_bind, Text.encodeChars_append,
    List.take_left, kept]
  rfl

end Checked

/-! ## Buffers -/

/-- What every cell holds, as bytes. -/
abbrev Buffers := Grid Bytes

namespace Buffers

/-- The buffers that hold the bytes of texts. -/
def ofTexts (texts : Grid CellText) : Buffers := ⟨texts.cells.map fun t => Text.encode t.text⟩

/-- Writes a text into a cell, cut to its capacity. -/
def store (g : Buffers) (a : Address) (new : String) : Checked Buffers := do
  return g.set a (← Checked.cut (Text.encode new))

/-- Replaces the text of a cell by another one. -/
def setText (g : Buffers) (a : Address) (new : String) : Checked Buffers :=
  if g.get a = Text.encode new then .ok g else g.store a new

theorem get_ofTexts (texts : Grid CellText) (a : Address) :
    (ofTexts texts).get a = Text.encode (texts.get a).text := by
  simp only [ofTexts, Grid.get, Fin.getElem_fin, Vector.getElem_map]

theorem ofTexts_fill : ofTexts (.fill .empty) = .fill [] := by
  refine Grid.ext_get fun a => ?_
  rw [get_ofTexts, Grid.get_fill, Grid.get_fill]
  rfl

theorem store_eq (texts : Grid CellText) (a : Address) (new : String) :
    (ofTexts texts).store a new = .ok (ofTexts (texts.set a (.ofString new))) := by
  rw [store, Checked.cut_encode, Checked.ok_bind]
  refine congrArg Except.ok (Grid.ext_get fun b => ?_)
  rw [Grid.get_set, get_ofTexts, get_ofTexts, Grid.get_set]
  split
  · rfl
  · rfl

theorem setText_eq (s : Sheet) (a : Address) (new : String) :
    (ofTexts s.texts).setText a new = .ok (ofTexts (s.setText a new).texts) := by
  unfold setText Sheet.setText
  have compares : (ofTexts s.texts).get a = Text.encode new ↔ s.text a = new := by
    rw [get_ofTexts, Text.encode_inj, Sheet.text]
  by_cases same : s.text a = new
  · rw [if_pos (compares.mpr same), if_pos same]
  · rw [if_neg (mt compares.mp same), if_neg same]
    exact store_eq s.texts a new

/-! ## Files -/

/-- The place that a line names, and its text with nothing cut. -/
def readLine (line : Bytes) : Option (Nat × Nat × String) := do
  let (row, bs) ← SheetFile.readNumber (line.dropWhile SheetFile.isSpace)
  let (column, bs) ← SheetFile.readNumber (bs.dropWhile SheetFile.isSpace)
  let payload := bs.dropWhile fun b => b = 0x20 || b = 0x09
  return (row, column, String.ofList (Text.decode (SheetFile.unescape payload)))

/-- Takes one line. -/
def addLine (g : Buffers) (line : Bytes) : Checked Buffers :=
  match readLine line with
  | none => .ok g
  | some (row, column, new) =>
    match Address.ofPair? row column with
    | some a => g.store a new
    | none => .ok g

/-- Takes lines, after emptying all cells. -/
def readLines (ls : List Bytes) : Checked Buffers :=
  ls.foldlM addLine (.fill [])

/-- Learns what reading a path came to. -/
def loaded (g : Buffers) : ReadOutcome → Checked Buffers
  | .unopened _ => .ok g
  | .interrupted before _ => readLines before
  | .whole bytes => readLines (SheetFile.lines bytes)

theorem readLine_eq (line : Bytes) : SheetFile.readLine line =
    (readLine line).map fun (row, column, new) => ⟨row, column, .ofString new⟩ := by
  unfold SheetFile.readLine readLine
  dsimp only [Option.bind_eq_bind]
  cases SheetFile.readNumber (line.dropWhile SheetFile.isSpace) with
  | none => rfl
  | some row =>
      dsimp only [Option.bind_some]
      cases SheetFile.readNumber (row.2.dropWhile SheetFile.isSpace) with
      | none => rfl
      | some column => rfl

theorem addLine_eq (c : SheetFile.Contents) (line : Bytes) :
    (ofTexts c.texts).addLine line = .ok (ofTexts (c.addLine line).texts) := by
  unfold addLine SheetFile.Contents.addLine
  rw [readLine_eq]
  rcases readLine line with _ | ⟨row, column, new⟩
  · rfl
  dsimp only [Option.map_some]
  cases Address.ofPair? row column with
  | none => rfl
  | some a => exact store_eq c.texts a new

theorem foldlM_addLine (c : SheetFile.Contents) (ls : List Bytes) :
    ls.foldlM addLine (ofTexts c.texts) = .ok (ofTexts (ls.foldl SheetFile.Contents.addLine c).texts) := by
  induction ls generalizing c with
  | nil => rfl
  | cons line ls ih => rw [List.foldlM_cons, addLine_eq, Checked.ok_bind, ih, List.foldl_cons]

theorem readLines_eq (ls : List Bytes) :
    readLines ls = .ok (ofTexts (SheetFile.readLines ls).texts) := by
  rw [readLines, ← ofTexts_fill]
  exact foldlM_addLine .empty ls

theorem loaded_eq (s : Sheet) (path : String) (read : ReadOutcome) :
    (ofTexts s.texts).loaded read = .ok (ofTexts (s.loaded path read).2.2.texts) := by
  cases read with
  | unopened e => rfl
  | interrupted before e => exact readLines_eq before
  | whole bytes => exact readLines_eq (SheetFile.lines bytes)

/-! ## The editor -/

/-- What a commit writes. -/
def commit (g : Buffers) (w : Workspace) : PromptKind → Checked Buffers
  | .edit => g.setText w.editor.cursor w.editor.prompt
  | .load =>
    match Workspace.promptedPath? w.editor.prompt w.editor.promptDefault with
    | some path => g.loaded (w.disk.read path)
    | none => .ok g
  | .goTo | .save => .ok g

/-- What a key writes. -/
def press (g : Buffers) (w : Workspace) (k : Key) : Checked Buffers :=
  match w.editor.mode with
  | .normal => if Command.ofKey? k = some .clearCell then g.setText w.editor.cursor "" else .ok g
  | .prompt kind =>
    let (event, text) := editLine w.editor.prompt k
    if event = .commit then g.commit (w.mapEditor ({ · with prompt := text })) kind else .ok g
  | .help => .ok g

/-- What an act writes. -/
def act (g : Buffers) (w : Workspace) : Act → Checked Buffers
  | .press k => g.press w k
  | .commit kind => g.commit w kind
  | .load path => g.loaded (w.disk.read path)
  | .resize _ _ | .moveBy _ _ | .moveTo _ _ | .openPrompt _ _ | .cancel | .save _ | .change _ => .ok g

/-- What an operation writes. -/
def operation (g : Buffers) : Operation → Checked Buffers
  | .setText a new => g.setText a new
  | .clear a => g.setText a ""
  | .load _ read => g.loaded read
  | .beginPass | .recompute | .result _ | .display _ | .save _ _ => .ok g

section Steps

variable (w : Workspace)

theorem load_eq (path : String) : (ofTexts w.editor.sheet.texts).loaded (w.disk.read path) =
    .ok (ofTexts (w.load path).editor.sheet.texts) := by
  rw [Workspace.sheet_load]
  exact loaded_eq w.editor.sheet path (w.disk.read path)

theorem commit_eq (kind : PromptKind) : (ofTexts w.editor.sheet.texts).commit w kind =
    .ok (ofTexts (w.commit kind).editor.sheet.texts) := by
  cases kind with
  | edit => exact setText_eq w.editor.sheet w.editor.cursor w.editor.prompt
  | goTo =>
      have keeps := ((w.closing .goTo).editor.goTo_keeps w.editor.prompt).1
      rw [Workspace.commit_goTo, Workspace.editor_mapEditor, keeps]
      rfl
  | save =>
      cases prompted : Workspace.promptedPath? w.editor.prompt w.editor.promptDefault with
      | none =>
          rw [Workspace.commit_of_no_path rfl prompted]
          rfl
      | some path =>
          rw [Workspace.commit_save prompted, Workspace.texts_save]
          rfl
  | load =>
      unfold commit
      dsimp only
      cases prompted : Workspace.promptedPath? w.editor.prompt w.editor.promptDefault with
      | none =>
          rw [Workspace.commit_of_no_path rfl prompted]
          rfl
      | some path =>
          rw [Workspace.commit_load prompted]
          exact load_eq (w.closing .load) path

theorem run_eq (command : Command) :
    (if some command = some .clearCell then
      (ofTexts w.editor.sheet.texts).setText w.editor.cursor "" else .ok (ofTexts w.editor.sheet.texts)) =
      .ok (ofTexts (w.editor.run command).sheet.texts) := by
  cases command with
  | clearCell => exact setText_eq w.editor.sheet w.editor.cursor ""
  | _ => rfl

theorem press_eq (k : Key) : (ofTexts w.editor.sheet.texts).press w k =
    .ok (ofTexts (w.press k).2.editor.sheet.texts) := by
  unfold press Workspace.press
  cases w.editor.mode with
  | normal =>
      dsimp only
      cases Command.ofKey? k with
      | none => rfl
      | some command => exact run_eq w command
  | prompt kind =>
      dsimp only
      rcases editLine w.editor.prompt k with ⟨_ | _ | _, text⟩
      · rfl
      · exact commit_eq (w.mapEditor ({ · with prompt := text })) kind
      · rfl
  | help =>
      dsimp only
      split
      · rfl
      · rfl

theorem act_eq (a : Act) : (ofTexts w.editor.sheet.texts).act w a =
    .ok (ofTexts (w.perform a).editor.sheet.texts) := by
  cases a with
  | press k => exact press_eq w k
  | commit kind => exact commit_eq w kind
  | load path => exact load_eq w path
  | save path =>
      rw [Workspace.perform, Workspace.texts_save]
      rfl
  | resize | moveBy | moveTo | openPrompt | cancel | change => rfl

end Steps

theorem operation_eq (s : Sheet) (o : Operation) :
    (ofTexts s.texts).operation o = .ok (ofTexts (s.perform o).texts) := by
  cases o with
  | setText a new => exact setText_eq s a new
  | clear a => exact setText_eq s a ""
  | load path read => exact loaded_eq s path read
  | save path written =>
      cases written with
      | ok => rfl
      | error => rfl
  | recompute =>
      rw [Sheet.perform, Sheet.recompute]
      rfl
  | beginPass | result | display => rfl

end Buffers

/-! ## Everything that writes -/

/-- Anything that may write texts: an act on the editor, an operation on its sheet, or content that the
sheet takes. -/
inductive Deed where
  | act (a : Act)
  | operation (o : Operation)
  | parse (content : Bytes)

namespace Workspace

def carryOut (w : Workspace) : Deed → Workspace
  | .act a => w.perform a
  | .operation o => w.mapEditor fun e => { e with sheet := e.sheet.perform o }
  | .parse content => w.mapEditor fun e => { e with sheet := (e.sheet.parse content).2 }

def carryOutAll (w : Workspace) (deeds : List Deed) : Workspace :=
  deeds.foldl carryOut w

end Workspace

namespace Buffers

/-- What a deed writes. -/
def carryOut (g : Buffers) (w : Workspace) : Deed → Checked Buffers
  | .act a => g.act w a
  | .operation o => g.operation o
  | .parse content => readLines (SheetFile.lines content)

/-- The buffers after deeds, beside the workspace on which the deeds are carried out. -/
def along (g : Buffers) (w : Workspace) : List Deed → Checked Buffers
  | [] => .ok g
  | deed :: deeds => do (← g.carryOut w deed).along (w.carryOut deed) deeds

theorem carryOut_eq (w : Workspace) (deed : Deed) : (ofTexts w.editor.sheet.texts).carryOut w deed =
    .ok (ofTexts (w.carryOut deed).editor.sheet.texts) := by
  cases deed with
  | act a => exact act_eq w a
  | operation o => exact operation_eq w.editor.sheet o
  | parse content => exact readLines_eq (SheetFile.lines content)

theorem along_eq (w : Workspace) (deeds : List Deed) : (ofTexts w.editor.sheet.texts).along w deeds =
    .ok (ofTexts (w.carryOutAll deeds).editor.sheet.texts) := by
  induction deeds generalizing w with
  | nil => rfl
  | cons deed deeds ih =>
      rw [along, carryOut_eq, Checked.ok_bind]
      exact ih (w.carryOut deed)

end Buffers

/-- Whatever is carried out, every buffer holds at most as many bytes as a cell has room for, and these
are the UTF-8 of the cell's text. A text is stored up to the last whole character there is room for: as it
is if it fits, and with at most three bytes left free otherwise; and what is stored so is not cut again. -/
theorem Workspace.texts_cut_to_capacity (w : Workspace) (deeds : List Deed) :
    (∃ g, (Buffers.ofTexts w.editor.sheet.texts).along w deeds = .ok g ∧ ∀ a,
      (g.get a).length ≤ cellCapacity ∧
        Text.decode? (g.get a) = some ((w.carryOutAll deeds).editor.sheet.text a)) ∧
    ∀ new : String,
      let kept := CellText.ofString new
      Checked.cut (Text.encode new) = .ok (Text.encode kept.text) ∧
        (∀ (s : Sheet) (a : Address),
          (s.setText a new).texts.get a = kept ∧ (s.store a new).texts.get a = kept) ∧
        kept.CutOf new ∧
        (new.utf8ByteSize ≤ cellCapacity → kept.text = new) ∧
        (cellCapacity < new.utf8ByteSize → cellCapacity - 3 ≤ kept.text.utf8ByteSize) ∧
        CellText.ofString kept.text = kept ∧
        Checked.cut (Text.encode kept.text) = .ok (Text.encode kept.text) := by
  refine ⟨⟨_, Buffers.along_eq w deeds, fun a => ?_⟩, fun new => ?_⟩
  · rw [Buffers.get_ofTexts, Text.length_encode, Text.decode?_encode]
    exact ⟨CellText.size_le _, rfl⟩
  have again := CellText.ofString_text (CellText.ofString new)
  refine ⟨Checked.cut_encode new, fun s a => ⟨?_, ?_⟩, CellText.cutOf_ofString new,
    fun fits => congrArg CellText.text (CellText.ofString_of_fits fits),
    CellText.capacity_le_of_long, again, ?_⟩
  · rw [Sheet.texts_setText, if_pos rfl]
  · exact (Grid.get_set s.texts a a _).trans (if_pos rfl)
  · rw [Checked.cut_encode, again]

end Worksheet
