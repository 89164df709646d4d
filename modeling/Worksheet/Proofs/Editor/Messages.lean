import Worksheet.Proofs.Editor.SaveLoad

/-!
What keys say.

Only a committed prompt leaves a message: when the cell to go to is none, when there is no path, and
after every save and every load (`Workspace.message?`). A key leaves that message in place of any other
one and otherwise does not touch it (`Workspace.status_press`). Since a commit closes the prompt and does
not quit, whatever is said is said in normal mode (`Workspace.normal_of_message`).
-/

namespace Worksheet

namespace Workspace

/-! ## Messages -/

/-- What is said about a save to a path. -/
def saveMessage (w : Workspace) (path : String) : String :=
  match (w.editor.sheet.save w.disk path).1 with
  | .ok count => "Saved " ++ toString count ++ " cells to " ++ path
  | .error e => "Save failed: " ++ e.sheetMessage

/-- What is said about a load from a path. -/
def loadMessage (w : Workspace) (path : String) : String :=
  match (w.editor.sheet.load w.disk path).1 with
  | .ok count => "Loaded " ++ toString count ++ " cells from " ++ path
  | .error e => "Load failed: " ++ e.sheetMessage

/-- What is said when a prompt is committed. -/
def commitMessage? (w : Workspace) (kind : PromptKind) : Option String :=
  match kind, promptedPath? w.editor.prompt w.editor.promptDefault with
  | .edit, _ => none
  | .goTo, _ =>
    match Address.ofLabel? (Text.trim w.editor.prompt) with
    | some _ => none
    | none => some ("Bad cell: " ++ Text.trim w.editor.prompt)
  | .save, some path => some (w.saveMessage path)
  | .load, some path => some (w.loadMessage path)
  | .save, none | .load, none => some "No file name"

/-- What a key says, if it says anything. -/
def message? (w : Workspace) (k : Key) : Option String :=
  match w.editor.mode, k with
  | .prompt kind, .enter => w.commitMessage? kind
  | _, _ => none

/-! ## The message that is left -/

theorem status_save (w : Workspace) (path : String) :
    (w.save path).editor.status = some (w.saveMessage path) := by
  unfold save saveMessage
  rcases w.editor.sheet.save w.disk path with ⟨_ | _, _, _⟩
  · rfl
  · rfl

theorem status_load (w : Workspace) (path : String) :
    (w.load path).editor.status = some (w.loadMessage path) := by
  unfold load loadMessage
  rcases w.editor.sheet.load w.disk path with ⟨_ | _, _, _⟩
  · rfl
  · rfl

theorem status_goTo (e : Editor) (input : String) : (e.goTo input).status =
    match Address.ofLabel? (Text.trim input) with
    | some _ => e.status
    | none => some ("Bad cell: " ++ Text.trim input) := by
  unfold Editor.goTo
  cases Address.ofLabel? (Text.trim input) with
  | some a => rfl
  | none => rfl

theorem status_run (e : Editor) (command : Command) : (e.run command).status = e.status := by
  cases command with
  | move | firstColumn | lastColumn | pageUp | pageDown | editCell | editFormula | clearCell | goTo
  | save | load | help | quit => rfl

theorem status_commit (w : Workspace) (kind : PromptKind) :
    (w.commit kind).editor.status = (w.commitMessage? kind).or w.editor.status := by
  unfold commitMessage?
  cases kind with
  | edit => rfl
  | goTo =>
      rw [commit_goTo, editor_mapEditor, status_goTo]
      dsimp only
      cases Address.ofLabel? (Text.trim w.editor.prompt) with
      | some a => rfl
      | none => rfl
  | save =>
      cases prompted : promptedPath? w.editor.prompt w.editor.promptDefault with
      | none =>
          have asks : (Mode.prompt .save).asksPath = true := rfl
          rw [commit_of_no_path asks prompted]
          rfl
      | some path =>
          rw [commit_save prompted, status_save]
          rfl
  | load =>
      cases prompted : promptedPath? w.editor.prompt w.editor.promptDefault with
      | none =>
          have asks : (Mode.prompt .load).asksPath = true := rfl
          rw [commit_of_no_path asks prompted]
          rfl
      | some path =>
          rw [commit_load prompted, status_load]
          rfl

theorem message?_enter {w : Workspace} {kind : PromptKind} (opened : w.editor.mode = .prompt kind) :
    w.message? .enter = w.commitMessage? kind := by
  unfold message?
  rw [opened]

theorem message?_eq_none {w : Workspace} {k : Key}
    (commits : ∀ kind, w.editor.mode = .prompt kind → k ≠ .enter) : w.message? k = none := by
  unfold message?
  split
  · next kind opened => exact absurd rfl (commits kind opened)
  · rfl

/-- A key leaves what it says, and if it says nothing, the message that was there. -/
theorem status_press (w : Workspace) (k : Key) :
    (w.press k).2.editor.status = (w.message? k).or w.editor.status := by
  by_cases commits : ∃ kind, w.editor.mode = .prompt kind ∧ k = .enter
  · obtain ⟨kind, opened, rfl⟩ := commits
    rw [snd_press_enter opened, status_commit, message?_enter opened]
  · rw [message?_eq_none fun kind opened enter => commits ⟨kind, opened, enter⟩]
    have pressed := w.pressed_press k
    generalize (w.press k).2 = u at pressed ⊢
    cases pressed with
    | run command => exact status_run w.editor command
    | commit kind opened enter => exact absurd ⟨kind, opened, enter⟩ commits
    | type | leave => rfl

/-- What says something closes a prompt and does not quit. -/
theorem normal_of_message {w : Workspace} {k : Key} {message : String}
    (said : w.message? k = some message) :
    (w.press k).1 = false ∧ (w.press k).2.editor.mode = .normal := by
  unfold message? at said
  split at said
  · next kind opened =>
      rw [snd_press_enter opened, press, opened]
      exact ⟨rfl, w.mode_commit kind⟩
  · cases said

end Workspace

end Worksheet
