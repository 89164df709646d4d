import Worksheet.Editor.Commands

/-!
What a key can do.

In normal mode a key carries out a command, at a prompt Enter commits it, and apart from that a key
changes what has been typed and goes back to normal mode at most (`Pressed`). A commit closes the prompt
and then edits a cell, goes to one, saves, loads, or says that it has no path (`Committed`). What a key
keeps is proved by these cases, and what a run of keys keeps by induction on the keys.
-/

namespace Worksheet

/-! ## Parts of a commit -/

theorem Editor.goTo_keeps (e : Editor) (input : String) :
    (e.goTo input).sheet = e.sheet ∧ (e.goTo input).mode = e.mode := by
  unfold goTo
  split
  · exact ⟨rfl, rfl⟩
  · exact ⟨rfl, rfl⟩

/-- A prompt for a path is open. -/
def Mode.asksPath : Mode → Bool
  | .prompt .save | .prompt .load => true
  | _ => false

namespace Workspace

variable {w : Workspace} {path : String} {kind : PromptKind}

/-- A save changes the sheet and leaves a message. -/
theorem editor_save (w : Workspace) (path : String) : ∃ sheet message,
    (w.save path).editor = { w.editor with sheet := sheet, status := message } := by
  unfold save
  rcases w.editor.sheet.save w.disk path with ⟨_ | _, sheet, _⟩
  · exact ⟨sheet, _, rfl⟩
  · exact ⟨sheet, _, rfl⟩

/-- So does a load. -/
theorem editor_load (w : Workspace) (path : String) : ∃ sheet message,
    (w.load path).editor = { w.editor with sheet := sheet, status := message } := by
  unfold load
  rcases w.editor.sheet.load w.disk path with ⟨_ | _, _, sheet⟩
  · exact ⟨sheet, _, rfl⟩
  · exact ⟨sheet, _, rfl⟩

theorem texts_save (w : Workspace) (path : String) :
    (w.save path).editor.sheet.texts = w.editor.sheet.texts := by
  unfold save Sheet.save Sheet.saveUnder
  rcases w.disk.replace none path (Text.encode w.editor.sheet.content) with ⟨_ | _, _⟩
  · rfl
  · rfl

theorem sheet_load (w : Workspace) (path : String) : (w.load path).editor.sheet =
    (w.editor.sheet.loaded path (w.disk.read path)).2.2 := by
  unfold load Sheet.load
  rcases w.editor.sheet.loaded path (w.disk.read path) with ⟨_ | _, _, _⟩
  · rfl
  · rfl

/-- Closes the prompt and notes down what it was committed with. -/
def closing (w : Workspace) (kind : PromptKind) : Workspace :=
  (w.mapEditor Editor.closePrompt).note [.promptCommitted kind w.editor.prompt]

theorem commit_edit (w : Workspace) :
    w.commit .edit = (w.closing .edit).mapEditor fun e => e.setText e.cursor w.editor.prompt :=
  rfl

theorem commit_goTo (w : Workspace) :
    w.commit .goTo = (w.closing .goTo).mapEditor (·.goTo w.editor.prompt) :=
  rfl

theorem commit_save (prompted : promptedPath? w.editor.prompt w.editor.promptDefault = some path) :
    w.commit .save = (w.closing .save).save path := by
  unfold commit
  dsimp only
  rw [prompted]
  rfl

theorem commit_load (prompted : promptedPath? w.editor.prompt w.editor.promptDefault = some path) :
    w.commit .load = (w.closing .load).load path := by
  unfold commit
  dsimp only
  rw [prompted]
  rfl

theorem commit_of_no_path (asks : (Mode.prompt kind).asksPath = true)
    (blank : promptedPath? w.editor.prompt w.editor.promptDefault = none) :
    w.commit kind = (w.closing kind).mapEditor (·.say "No file name") := by
  unfold commit
  dsimp only
  rw [blank]
  cases kind with
  | save | load => rfl
  | edit | goTo => cases asks

/-- What a commit can make of a workspace. -/
inductive Committed (w : Workspace) : PromptKind → Workspace → Prop where
  | edit : Committed w .edit
      ((w.closing .edit).mapEditor fun e => e.setText e.cursor w.editor.prompt)
  | goTo : Committed w .goTo ((w.closing .goTo).mapEditor (·.goTo w.editor.prompt))
  | save (path : String) : Committed w .save ((w.closing .save).save path)
  | load (path : String) : Committed w .load ((w.closing .load).load path)
  | noPath (kind : PromptKind) :
    Committed w kind ((w.closing kind).mapEditor (·.say "No file name"))

theorem committed_commit (w : Workspace) (kind : PromptKind) : w.Committed kind (w.commit kind) := by
  cases prompted : promptedPath? w.editor.prompt w.editor.promptDefault with
  | none =>
      cases kind with
      | edit => exact .edit
      | goTo => exact .goTo
      | save | load =>
          rw [commit_of_no_path rfl prompted]
          exact .noPath _
  | some path =>
      cases kind with
      | edit => exact .edit
      | goTo => exact .goTo
      | save =>
          rw [commit_save prompted]
          exact .save path
      | load =>
          rw [commit_load prompted]
          exact .load path

end Workspace

/-! ## One key -/

theorem eq_enter_of_editLine {text : String} {k : Key} (commits : (editLine text k).1 = .commit) :
    k = .enter := by
  cases k with
  | enter => rfl
  | byte b =>
      unfold editLine at commits
      dsimp only at commits
      split at commits
      · cases commits
      · cases commits
  | _ => cases commits

namespace Workspace

variable {w : Workspace} {kind : PromptKind}

/-- What a key can make of a workspace. -/
inductive Pressed (w : Workspace) (k : Key) : Workspace → Prop where
  | run (command : Command) (normal : w.editor.mode = .normal) :
    Pressed w k (w.mapEditor (·.run command))
  | commit (kind : PromptKind) (opened : w.editor.mode = .prompt kind) (enter : k = .enter) :
    Pressed w k (w.commit kind)
  /-- The prompt is left open; nothing at all happens if its text stays. -/
  | type (text : String) : Pressed w k (w.mapEditor ({ · with prompt := text }))
  /-- The prompt is cancelled, or the help is closed. -/
  | leave (text : String) :
    Pressed w k (w.mapEditor ({ · with prompt := text, mode := .normal }))

theorem pressed_press (w : Workspace) (k : Key) : w.Pressed k (w.press k).2 := by
  unfold press
  split
  · next normal =>
      split
      · next command _ => exact .run command normal
      · exact .type w.editor.prompt
  · next kind opened =>
      dsimp only
      split
      · exact .type _
      · next commits =>
          cases eq_enter_of_editLine commits
          exact .commit kind opened rfl
      · exact .leave ""
  · dsimp only
    split
    · exact .type w.editor.prompt
    · exact .leave w.editor.prompt

theorem press_enter (opened : w.editor.mode = .prompt kind) :
    w.press .enter = (false, w.commit kind) := by
  unfold press
  rw [opened]
  rfl

theorem snd_press_enter (opened : w.editor.mode = .prompt kind) :
    (w.press .enter).2 = w.commit kind :=
  congrArg Prod.snd (press_enter opened)

theorem snd_press_of_command {k : Key} {command : Command} (normal : w.editor.mode = .normal)
    (means : Command.ofKey? k = some command) : (w.press k).2 = w.mapEditor (·.run command) := by
  unfold press
  rw [normal]
  dsimp only
  rw [means]

/-! ## Key after key -/

theorem snd_pressAll_nil (w : Workspace) : (w.pressAll []).2 = w := rfl

theorem pressAll_cons (w : Workspace) (k : Key) (keys : List Key) :
    w.pressAll (k :: keys) = ((w.press k).1 || ((w.press k).2.pressAll keys).1,
      ((w.press k).2.pressAll keys).2) := by
  -- whether a key asked to quit before is added to the answer and makes no other difference
  have flagged (quit : Bool) (u : Workspace) :
      keys.foldl (fun state k => (state.1 || (state.2.press k).1, (state.2.press k).2)) (quit, u) =
        (quit || (u.pressAll keys).1, (u.pressAll keys).2) := by
    induction keys generalizing quit u with
    | nil => exact congrArg (·, u) (Bool.or_false quit).symm
    | cons k keys ih =>
        have next : u.pressAll (k :: keys) = _ := ih (u.press k).1 (u.press k).2
        rw [next, List.foldl_cons, ih, Bool.or_assoc]
  exact flagged (w.press k).1 (w.press k).2

theorem snd_pressAll_cons (w : Workspace) (k : Key) (keys : List Key) :
    (w.pressAll (k :: keys)).2 = ((w.press k).2.pressAll keys).2 := by
  rw [pressAll_cons]

/-- A key that does not ask to quit leaves the answer to the keys behind it. -/
theorem pressAll_of_stays {u : Workspace} {k : Key} (stays : w.press k = (false, u))
    (keys : List Key) : w.pressAll (k :: keys) = u.pressAll keys := by
  rw [pressAll_cons, stays, Bool.false_or]

theorem pressAll_singleton (w : Workspace) (k : Key) : w.pressAll [k] = w.press k := by
  have last : (w.press k).2.pressAll [] = (false, (w.press k).2) := rfl
  rw [pressAll_cons, last, Bool.or_false]

end Workspace

end Worksheet
