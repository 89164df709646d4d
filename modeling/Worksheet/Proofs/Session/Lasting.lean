import Worksheet.Session

/-!
What lasts beyond a frame.

Records belong to a pass, a message to the next frame, and the journal is only ever added to. All else
in a workspace lasts: texts, file and mark of the sheet, cursor and view, mode and prompt, and the disk.
Drawing touches nothing that lasts (`lasting_drawUnder`), and keys heed nothing else: what lasts of a
workspace decides what lasts of it after a key, and whether the key asks to quit (`press_congr`).
-/

namespace Worksheet

/-- The editor without records and message. -/
def Editor.lasting (e : Editor) : Editor :=
  e.beginPass.endFrame

/-- The workspace without records, message and journal. -/
def Workspace.lasting (w : Workspace) : Workspace :=
  ⟨w.editor.lasting, w.disk, []⟩

/-! ## Drawing -/

namespace Frame

theorem beginPass_cell (cursor a : Address) (s : Sheet) : (cell cursor a s).2.beginPass = s.beginPass :=
  rfl

theorem cells_cons (cursor : Address) (row : Fin rowCount) (column : Fin columnCount)
    (columns : List (Fin columnCount)) (s : Sheet) :
    (cells cursor row (column :: columns) s).2 =
      (cells cursor row columns (cell cursor ⟨row, column⟩ s).2).2 := by
  rw [cells]

theorem beginPass_cells (cursor : Address) (row : Fin rowCount) (columns : List (Fin columnCount))
    (s : Sheet) : (cells cursor row columns s).2.beginPass = s.beginPass := by
  induction columns generalizing s with
  | nil => rfl
  | cons column columns ih => rw [cells_cons, ih, beginPass_cell]

theorem rows_cons (cursor : Address) (columns : List (Fin columnCount)) (row : Fin rowCount)
    (places : List (Fin rowCount)) (s : Sheet) :
    (rows cursor columns (row :: places) s).2 =
      (rows cursor columns places (cells cursor row columns s).2).2 := by
  rw [rows]

theorem beginPass_rows (cursor : Address) (columns : List (Fin columnCount))
    (places : List (Fin rowCount)) (s : Sheet) :
    (rows cursor columns places s).2.beginPass = s.beginPass := by
  induction places generalizing s with
  | nil => rfl
  | cons row places ih => rw [rows_cons, ih, beginPass_cells]

theorem lasting_lastLine (e : Editor) : (lastLine e).2.lasting = e.lasting := by
  unfold lastLine
  split
  · rfl
  · rfl
  · rfl

theorem lasting_draw (e : Editor) : (draw e).2.lasting = e.lasting := by
  refine (lasting_lastLine _).trans ?_
  exact congrArg (fun s => ({ e with sheet := s } : Editor).endFrame) (beginPass_rows _ _ _ _)

end Frame

namespace Terminal

theorem lasting_drawUnder (fault : Option FrameFault) (t : Terminal) (e : Editor) :
    (t.drawUnder fault e).2.lasting = e.lasting := by
  unfold drawUnder
  split
  · rfl
  dsimp only
  split
  · exact Frame.lasting_draw e
  · exact Frame.lasting_draw e

def size (t : Terminal) : Nat × Nat :=
  (t.width, t.height)

theorem size_fit (t : Terminal) (width height : Nat) : (t.fit width height).size = t.size := by
  unfold fit
  split
  · rfl
  · rfl

theorem size_drawUnder (fault : Option FrameFault) (t : Terminal) (e : Editor) :
    (t.drawUnder fault e).1.size = t.size := by
  unfold drawUnder
  split
  · rfl
  dsimp only
  split
  · exact t.size_fit _ _
  · exact t.size_fit _ _

end Terminal

/-! ## Keys -/

namespace Sheet

theorem beginPass_setText (s : Sheet) (a : Address) (new : String) :
    (s.beginPass.setText a new).beginPass = (s.setText a new).beginPass := by
  have same : s.beginPass.text a = s.text a := rfl
  unfold setText
  rw [same]
  split
  · rfl
  · rfl

end Sheet

namespace Editor

/-- A change that heeds only what lasts. -/
def Respects (f : Editor → Editor) : Prop :=
  ∀ e, (f e.lasting).lasting = (f e).lasting

theorem respects_setText (input : String) : Respects fun e => e.setText e.cursor input :=
  fun e => congrArg (fun s => ({ e with sheet := s } : Editor).endFrame)
    (e.sheet.beginPass_setText e.cursor input)

theorem respects_goTo (input : String) : Respects (·.goTo input) := by
  intro e
  change (e.lasting.goTo input).lasting = (e.goTo input).lasting
  unfold goTo
  split
  · rfl
  · rfl

theorem respects_run (command : Command) : Respects (·.run command) := by
  cases command with
  | clearCell => exact respects_setText ""
  | move | firstColumn | lastColumn | pageUp | pageDown | editCell | editFormula | goTo | save | load
  | help | quit => exact fun e => rfl

end Editor

namespace Workspace

def Respects (f : Workspace → Workspace) : Prop :=
  ∀ w, (f w.lasting).lasting = (f w).lasting

theorem Respects.congr {f : Workspace → Workspace} (respects : Respects f) {w u : Workspace}
    (same : w.lasting = u.lasting) : (f w).lasting = (f u).lasting := by
  rw [← respects w, same, respects u]

theorem respects_mapEditor {f : Editor → Editor} (respects : Editor.Respects f) :
    Respects (·.mapEditor f) :=
  fun w => congrArg (fun e => Workspace.mk e w.disk []) (respects w.editor)

theorem respects_save (path : String) : Respects (·.save path) := by
  intro w
  change (w.lasting.save path).lasting = (w.save path).lasting
  have content : w.lasting.editor.sheet.content = w.editor.sheet.content := rfl
  have disk : w.lasting.disk = w.disk := rfl
  unfold save Sheet.save Sheet.saveUnder
  rw [content, disk]
  rcases w.disk.replace none path (Text.encode w.editor.sheet.content) with ⟨_ | _, _⟩
  · rfl
  · rfl

theorem respects_load (path : String) : Respects (·.load path) := by
  intro w
  change (w.lasting.load path).lasting = (w.load path).lasting
  have disk : w.lasting.disk = w.disk := rfl
  unfold load Sheet.load
  rw [disk]
  cases w.disk.read path with
  | unopened | interrupted | whole => rfl

theorem respects_commit (kind : PromptKind) : Respects (·.commit kind) := by
  intro w
  change (w.lasting.commit kind).lasting = (w.commit kind).lasting
  have input : w.lasting.editor.prompt = w.editor.prompt := rfl
  have offered : w.lasting.editor.promptDefault = w.editor.promptDefault := rfl
  have closed (events : List Event) :
      ((w.lasting.mapEditor Editor.closePrompt).note events).lasting =
        ((w.mapEditor Editor.closePrompt).note events).lasting := rfl
  unfold commit
  rw [input, offered]
  dsimp only
  split
  · exact (respects_mapEditor (Editor.respects_setText w.editor.prompt)).congr (closed _)
  · exact (respects_mapEditor (Editor.respects_goTo w.editor.prompt)).congr (closed _)
  · exact (respects_save _).congr (closed _)
  · exact (respects_load _).congr (closed _)
  · rfl
  · rfl

theorem lasting_press (w : Workspace) (k : Key) :
    (w.lasting.press k).1 = (w.press k).1 ∧
      (w.lasting.press k).2.lasting = (w.press k).2.lasting := by
  have mode : w.lasting.editor.mode = w.editor.mode := rfl
  have typed : w.lasting.editor.prompt = w.editor.prompt := rfl
  unfold press
  rw [mode, typed]
  split
  · split
    · next command _ => exact ⟨rfl, respects_mapEditor (Editor.respects_run command) w⟩
    · exact ⟨rfl, rfl⟩
  · dsimp only
    split
    · exact ⟨rfl, rfl⟩
    · exact ⟨rfl, (respects_commit _).congr rfl⟩
    · exact ⟨rfl, rfl⟩
  · dsimp only
    split
    · exact ⟨rfl, rfl⟩
    · exact ⟨rfl, rfl⟩

theorem press_congr {w u : Workspace} (same : w.lasting = u.lasting) (k : Key) :
    (w.press k).1 = (u.press k).1 ∧ (w.press k).2.lasting = (u.press k).2.lasting := by
  obtain ⟨quits, lasts⟩ := w.lasting_press k
  obtain ⟨quits', lasts'⟩ := u.lasting_press k
  rw [same] at quits lasts
  exact ⟨quits.symm.trans quits', lasts.symm.trans lasts'⟩

end Workspace

end Worksheet
