import Worksheet.Proofs.CellText.Cut
import Worksheet.Proofs.Session.Messages

/-!
A prompt from the key that opens it to the key that ends it.

Between the two every key does nothing but type, and what is typed is a stack of characters (`typed`,
`pressAll_typing`). So the last key meets the prompt with what has been typed (`pressAll_prompt`). Escape,
Ctrl-G and Ctrl-C put everything back, since nothing is left typed outside of prompts (`Reached.blank`) and
the text that a prompt was opened with is not heeded once it is closed (`Indistinct.pressAll`). Enter stores
the text of a cell, as far as the cell has room for it.
-/

namespace Worksheet

/-! ## Typing -/

/-- What a key makes of the characters at a prompt, the last one first. -/
def typeKey (stack : List Char) : Key → List Char
  | .byte b => if 0x20 ≤ b ∧ b ≤ 0x7e then Char.ofNat b.toNat :: stack else stack
  | .backspace => stack.tail
  | _ => stack

/-- The text at a prompt after keys. -/
def typed (start : String) (keys : List Key) : String :=
  String.ofList (keys.foldl typeKey start.toList.reverse).reverse

/-- The keys that cancel a prompt. -/
def cancelKeys : List Key := [.escape, .controlG, .controlC]

/-- The keys that end a prompt. -/
def endKeys : List Key := .enter :: cancelKeys

theorem typed_nil (start : String) : typed start [] = start := by
  rw [typed, List.foldl_nil, List.reverse_reverse, String.ofList_toList]

theorem typed_cons (start : String) (k : Key) (keys : List Key) :
    typed start (k :: keys) = typed (typed start [k]) keys := by
  rw [typed, typed, typed, String.toList_ofList, List.reverse_reverse]
  rfl

theorem typed_byte (start : String) (b : UInt8) :
    typed start [.byte b] =
      if 0x20 ≤ b ∧ b ≤ 0x7e then start.push (Char.ofNat b.toNat) else start := by
  change String.ofList (if 0x20 ≤ b ∧ b ≤ 0x7e then Char.ofNat b.toNat :: start.toList.reverse
    else start.toList.reverse).reverse = _
  split
  · rw [List.reverse_cons, List.reverse_reverse, ← String.toList_push, String.ofList_toList]
  · rw [List.reverse_reverse, String.ofList_toList]

theorem typed_backspace (start : String) :
    typed start [.backspace] = String.ofList start.toList.dropLast := by
  change String.ofList start.toList.reverse.tail.reverse = _
  rw [List.tail_reverse, List.reverse_reverse]

theorem isPrintableAscii_ofNat (b : UInt8) :
    Text.isPrintableAscii (Char.ofNat b.toNat) = decide (0x20 ≤ b ∧ b ≤ 0x7e) := by
  have byte := b.toNat_lt
  rw [Text.isPrintableAscii, Text.toNat_ofNat_of_valid (.inl (by omega)), Bool.decide_and]
  rfl

theorem editLine_of_typing {k : Key} (typing : k ∉ endKeys) (text : String) :
    editLine text k = (.pending, typed text [k]) := by
  cases k with
  | byte b =>
      rw [typed_byte, editLine, isPrintableAscii_ofNat]
      split
      · next printable => rw [if_pos (of_decide_eq_true printable)]
      · next other => rw [if_neg fun printable => other (decide_eq_true printable)]
  | backspace => rw [typed_backspace, editLine]
  | enter | escape | controlG | controlC => exact absurd (by decide) typing
  | _ => exact congrArg (PromptEvent.pending, ·) (typed_nil text).symm

/-! ## From the first key to the last -/

namespace Workspace

variable {w u : Workspace} {kind : PromptKind} {k opener last : Key} {start : String}
  {keys : List Key}

/-- Puts a text at the prompt. -/
def retype (w : Workspace) (text : String) : Workspace :=
  w.mapEditor ({ · with prompt := text })

@[simp]
theorem prompt_retype (w : Workspace) (text : String) : (w.retype text).editor.prompt = text :=
  rfl

@[simp]
theorem retype_retype (w : Workspace) (early late : String) :
    (w.retype early).retype late = w.retype late :=
  rfl

/-- Opens a prompt. -/
def prompting (w : Workspace) (kind : PromptKind) (start : String) : Workspace :=
  w.mapEditor (·.openPrompt kind start)

theorem press_of_typing (opened : w.editor.mode = .prompt kind) (typing : k ∉ endKeys) :
    w.press k = (false, w.retype (typed w.editor.prompt [k])) := by
  unfold press
  rw [opened]
  dsimp only
  rw [editLine_of_typing typing]
  rfl

theorem pressAll_typing (opened : w.editor.mode = .prompt kind) (typing : ∀ k ∈ keys, k ∉ endKeys)
    (rest : List Key) :
    w.pressAll (keys ++ rest) = (w.retype (typed w.editor.prompt keys)).pressAll rest := by
  induction keys generalizing w with
  | nil =>
      rw [typed_nil]
      rfl
  | cons k keys ih =>
      obtain ⟨first, typing⟩ := List.forall_mem_cons.mp typing
      have open' : (w.retype (typed w.editor.prompt [k])).editor.mode = .prompt kind := opened
      rw [List.cons_append, pressAll_of_stays (press_of_typing opened first), ih open' typing,
        prompt_retype, retype_retype, ← typed_cons]

/-- Whatever key comes last, it meets the prompt with what has been typed. -/
theorem pressAll_prompt (opens : w.press opener = (false, w.prompting kind start))
    (typing : ∀ k ∈ keys, k ∉ endKeys) (last : Key) :
    w.pressAll (opener :: keys ++ [last]) =
      ((w.prompting kind start).retype (typed start keys)).press last := by
  rw [List.cons_append, pressAll_of_stays opens, pressAll_typing rfl typing, pressAll_singleton]
  rfl

/-- The keys that open a prompt in normal mode. -/
def promptKeys : List Key :=
  .enter :: ['e', '=', 'g', 's', 'l'].map fun c => .ofCode (.character c)

theorem press_of_promptKey (normal : w.editor.mode = .normal) (opens : opener ∈ promptKeys) :
    ∃ kind start, w.press opener = (false, w.prompting kind start) := by
  simp only [promptKeys, List.map_cons, List.map_nil, List.mem_cons, List.not_mem_nil, or_false] at opens
  unfold press
  rw [normal]
  rcases opens with rfl | rfl | rfl | rfl | rfl | rfl
  all_goals exact ⟨_, _, rfl⟩

theorem press_of_cancelKey (opened : w.editor.mode = .prompt kind) (cancels : last ∈ cancelKeys) :
    w.press last = (false, w.mapEditor Editor.closePrompt) := by
  simp only [cancelKeys, List.mem_cons, List.not_mem_nil, or_false] at cancels
  unfold press
  rw [opened]
  rcases cancels with rfl | rfl | rfl
  all_goals rfl

/-! ## Nothing is left typed -/

/-- What a new editor and its surroundings can become by keys and by programs, frame by frame. -/
inductive Reached : Workspace → Prop where
  | new (defaultFile : String) (disk : Disk) (journal : List Event) :
    Reached ⟨.new defaultFile, disk, journal⟩
  | perform {w : Workspace} (act : Act) : Reached w → Reached (w.perform act)
  /-- Frames evaluate cells and take messages away; programs set cells and leave messages. -/
  | settle {w : Workspace} (sheet : Sheet) (status : Option String) (journal : List Event) :
    Reached w → Reached ⟨{ w.editor with sheet := sheet, status := status }, w.disk, journal⟩

/-- Nothing is typed outside of a prompt. -/
def Blank (w : Workspace) : Prop :=
  (∀ kind, w.editor.mode ≠ .prompt kind) → w.editor.prompt = ""

theorem prompt_save (w : Workspace) (path : String) :
    (w.save path).editor.prompt = w.editor.prompt := by
  obtain ⟨_, _, same⟩ := w.editor_save path
  rw [same]

theorem prompt_load (w : Workspace) (path : String) :
    (w.load path).editor.prompt = w.editor.prompt := by
  obtain ⟨_, _, same⟩ := w.editor_load path
  rw [same]

/-- A commit leaves nothing typed. -/
theorem prompt_commit (w : Workspace) (kind : PromptKind) : (w.commit kind).editor.prompt = "" := by
  have committed := w.committed_commit kind
  generalize w.commit kind = u at committed ⊢
  cases committed with
  | edit | noPath => rfl
  | goTo =>
      rw [editor_mapEditor, Editor.goTo]
      split
      · rfl
      · rfl
  | save path => exact prompt_save _ path
  | load path => exact prompt_load _ path

theorem Blank.congr (blank : w.Blank) (mode : u.editor.mode = w.editor.mode)
    (prompt : u.editor.prompt = w.editor.prompt) : u.Blank :=
  fun outside => prompt.trans (blank fun kind => mode ▸ outside kind)

theorem blank_prompting (w : Workspace) (kind : PromptKind) (start : String) :
    (w.prompting kind start).Blank :=
  fun outside => absurd rfl (outside kind)

theorem Blank.run (blank : w.Blank) (normal : w.editor.mode = .normal) (command : Command) :
    (w.mapEditor (·.run command)).Blank := by
  cases command with
  | editCell | editFormula | goTo | save | load => exact w.blank_prompting _ _
  | help => exact fun _ => blank fun kind => normal ▸ nofun
  | move | firstColumn | lastColumn | pageUp | pageDown | clearCell | quit => exact blank.congr rfl rfl

theorem Blank.press (blank : w.Blank) (k : Key) : (w.press k).2.Blank := by
  unfold Workspace.press
  split
  · next normal =>
      split
      · next command _ => exact blank.run normal command
      · exact blank
  · next kind opened =>
      dsimp only
      split
      · exact fun outside => absurd opened (outside kind)
      · exact fun _ => prompt_commit _ kind
      · exact fun _ => rfl
  · next help =>
      dsimp only
      split
      · exact blank
      · exact fun _ => blank fun kind => help ▸ nofun

theorem Blank.perform (blank : w.Blank) (act : Act) : (w.perform act).Blank := by
  cases act with
  | press k => exact blank.press k
  | resize | moveBy | moveTo | change => exact blank.congr rfl rfl
  | openPrompt kind initial => exact w.blank_prompting kind initial
  | commit kind => exact fun _ => w.prompt_commit kind
  | cancel => exact fun _ => rfl
  | save path => exact blank.congr (w.mode_save path) (w.prompt_save path)
  | load path => exact blank.congr (w.mode_load path) (w.prompt_load path)

theorem Reached.blank (reached : w.Reached) : w.Blank := by
  induction reached with
  | new => exact fun _ => rfl
  | perform act _ ih => exact ih.perform act
  | settle _ _ _ _ ih => exact ih

end Workspace

/-! ## Sessions -/

theorem Editor.eq_of_lasting {e f : Editor} (same : f.lasting = e.lasting) :
    f = { e with sheet := f.sheet, status := f.status } := by
  have parts := same
  simp only [lasting, beginPass, endFrame, Editor.mk.injEq] at parts
  obtain ⟨-, cursor, rows, columns, mode, prompt, promptDefault, -, defaultFile⟩ := parts
  rw [← cursor, ← rows, ← columns, ← mode, ← prompt, ← promptDefault, ← defaultFile]

namespace Session

variable {faults : Nat → Option FrameFault} {source : Nat → Input} {shutdownAt : Option Nat}
  {n : Nat} {s u : Session}

theorem reached_frameUnder (reached : s.workspace.Reached) (fault : Option FrameFault) :
    (s.frameUnder fault).workspace.Reached := by
  have drawn : Workspace.Reached { s.workspace with editor := s.drawn fault } := by
    unfold drawn
    split
    · next width height _ => exact (reached.perform (.resize width height)).settle _ _ _
    · exact reached.settle _ _ _
  rw [frameUnder_eq]
  dsimp only
  rw [Editor.eq_of_lasting (s.terminal.lasting_drawUnder fault (s.drawn fault))]
  exact drawn.settle _ none _

/-- Every round of a session begins with a workspace that has been reached. -/
theorem reached_begun (reached : s.workspace.Reached)
    (begins : begun? faults source shutdownAt n s = some u) : u.workspace.Reached := by
  induction n generalizing u with
  | zero =>
      cases begins
      exact reached
  | succ n ih =>
      obtain ⟨r, earlier, stays⟩ := begun?_succ_eq_some_iff.mp begins
      obtain ⟨-, rfl⟩ := eq_of_stays stays
      exact (reached_frameUnder (ih earlier) _).perform (.press _)

end Session

/-! ## Cancelled prompts -/

namespace Workspace

variable {w u : Workspace} {opener last : Key} {start : String} {keys : List Key}

/-- Workspaces that no key tells apart: they differ at most in the text that a prompt was opened with, and
then no prompt is open. -/
inductive Indistinct (w : Workspace) : Workspace → Prop where
  | same : Indistinct w w
  | outside (start : String) (closed : ∀ kind, w.editor.mode ≠ .prompt kind) :
    Indistinct w (w.mapEditor ({ · with promptDefault := start }))

theorem Indistinct.run (start : String) (normal : w.editor.mode = .normal) (command : Command) :
    (w.mapEditor (·.run command)).Indistinct
      ((w.mapEditor ({ · with promptDefault := start })).mapEditor (·.run command)) := by
  have closed (kind : PromptKind) : w.editor.mode ≠ .prompt kind := normal ▸ nofun
  cases command with
  | editCell | editFormula | goTo | save | load => exact .same
  | help => exact .outside start nofun
  | move | firstColumn | lastColumn | pageUp | pageDown | clearCell | quit =>
      exact .outside start closed

theorem Indistinct.press (indistinct : w.Indistinct u) (k : Key) :
    (w.press k).1 = (u.press k).1 ∧ (w.press k).2.Indistinct (u.press k).2 := by
  cases indistinct with
  | same => exact ⟨rfl, .same⟩
  | outside start closed =>
      have mode : (w.mapEditor ({ · with promptDefault := start })).editor.mode = w.editor.mode := rfl
      unfold Workspace.press
      rw [mode]
      split
      · next normal =>
          split
          · next command _ => exact ⟨rfl, .run start normal command⟩
          · exact ⟨rfl, .outside start closed⟩
      · next kind opened => exact absurd opened (closed kind)
      · dsimp only
        split
        · exact ⟨rfl, .outside start closed⟩
        · exact ⟨rfl, .outside start nofun⟩

theorem Indistinct.pressAll (indistinct : w.Indistinct u) (keys : List Key) :
    (w.pressAll keys).1 = (u.pressAll keys).1 ∧
      (w.pressAll keys).2.Indistinct (u.pressAll keys).2 := by
  induction keys generalizing w u with
  | nil => exact ⟨rfl, indistinct⟩
  | cons k keys ih =>
      obtain ⟨quits, next⟩ := indistinct.press k
      obtain ⟨quits', last⟩ := ih next
      rw [pressAll_cons, pressAll_cons, quits, quits']
      exact ⟨rfl, last⟩

/-- All that is left of a cancelled prompt is the text that it was opened with. -/
theorem closePrompt_prompting (normal : w.editor.mode = .normal) (blank : w.editor.prompt = "")
    (kind : PromptKind) (start text : String) :
    ((w.prompting kind start).retype text).mapEditor Editor.closePrompt =
      w.mapEditor ({ · with promptDefault := start }) := by
  have same : ({ w.editor with prompt := "", mode := .normal } : Editor) = w.editor := by
    rw [← blank, ← normal]
  exact congrArg (fun e => w.mapEditor fun _ => { e with promptDefault := start }) same

/-- When a prompt has been opened in normal mode, keys that do not end it have been pressed, and then it is
cancelled, the workspace is as before, apart from the text that the prompt was opened with; no key asked to
quit, and none that follows can tell the difference. -/
theorem pressAll_cancelled (reached : w.Reached) (normal : w.editor.mode = .normal)
    (opens : opener ∈ promptKeys) (typing : ∀ k ∈ keys, k ∉ endKeys) (cancels : last ∈ cancelKeys) :
    let (quit, after) := w.pressAll (opener :: keys ++ [last])
    quit = false ∧
      after = w.mapEditor ({ · with promptDefault := after.editor.promptDefault }) ∧
      ∀ later, (w.pressAll later).1 = (after.pressAll later).1 ∧
        (w.pressAll later).2.Indistinct (after.pressAll later).2 := by
  have closed (kind : PromptKind) : w.editor.mode ≠ .prompt kind := normal ▸ nofun
  obtain ⟨kind, start, opened⟩ := press_of_promptKey normal opens
  rw [pressAll_prompt opened typing, press_of_cancelKey rfl cancels,
    closePrompt_prompting normal (reached.blank closed)]
  exact ⟨rfl, rfl, (Indistinct.outside start closed).pressAll⟩

/-- In a session that has gone on for a round, commands of normal mode and a character are typed at a
prompt for a path, some of it is taken back, and Ctrl-C cancels the prompt. -/
theorem pressAll_cancelled_of_typing :
    let source := Session.scripted [.key .pageDown]
    let start := Session.opened "f" .empty [] 40 5
    let commands : List Key := [.pageDown, .byte 0x71, .byte 0x63, .backspace, .delete]
    ∃ s : Session, Session.begun? (fun _ => none) source none 1 start = some s ∧
      s.workspace.editor.cursor.row.val = 3 ∧ s.workspace.Reached ∧
      s.workspace.editor.mode = .normal ∧ .ofCode (.character 's') ∈ promptKeys ∧
      (∀ k ∈ commands, k ∉ endKeys) ∧ .controlC ∈ cancelKeys ∧
      s.workspace.pressAll (.ofCode (.character 's') :: commands ++ [.controlC]) =
        (false, s.workspace.mapEditor ({ · with promptDefault := "f" })) := by
  intro source start commands
  let keys := .ofCode (.character 's') :: commands ++ [.controlC]
  have states : (Session.begun? (fun _ => none) source none 1 start).map (fun s =>
      (s.workspace.editor.cursor.row.val, s.workspace.editor.mode,
        (s.workspace.pressAll keys).2.editor.promptDefault)) = some (3, .normal, "f") := by
    decide +kernel
  obtain ⟨s, begins, state⟩ := Option.map_eq_some_iff.mp states
  obtain ⟨row, normal, offered⟩ : s.workspace.editor.cursor.row.val = 3 ∧
      s.workspace.editor.mode = .normal ∧ (s.workspace.pressAll keys).2.editor.promptDefault = "f" := by
    simpa only [Prod.mk.injEq] using state
  have reached : s.workspace.Reached := Session.reached_begun (.new "f" .empty []) begins
  have opens : .ofCode (.character 's') ∈ promptKeys := by decide
  have typing : ∀ k ∈ commands, k ∉ endKeys := by decide
  have cancels : .controlC ∈ cancelKeys := by decide
  obtain ⟨stays, back⟩ : (s.workspace.pressAll keys).1 = false ∧ (s.workspace.pressAll keys).2 =
      s.workspace.mapEditor
        ({ · with promptDefault := (s.workspace.pressAll keys).2.editor.promptDefault }) := by
    obtain ⟨stays, back, -⟩ := pressAll_cancelled reached normal opens typing cancels
    exact ⟨stays, back⟩
  rw [offered] at back
  exact ⟨s, begins, row, reached, normal, opens, typing, cancels, Prod.ext stays back⟩

/-! ## Committed texts -/

/-- The keys that edit the current cell, each with the text that it starts from. -/
def editKeys (e : Editor) : List (Key × String) :=
  [(.enter, e.sheet.text e.cursor), (.ofCode (.character 'e'), e.sheet.text e.cursor),
    (.ofCode (.character '='), "=")]

theorem press_of_editKey (normal : w.editor.mode = .normal)
    (opens : (opener, start) ∈ editKeys w.editor) :
    w.press opener = (false, w.prompting .edit start) := by
  simp only [editKeys, List.mem_cons, List.not_mem_nil, or_false, Prod.mk.injEq] at opens
  unfold press
  rw [normal]
  rcases opens with ⟨rfl, rfl⟩ | ⟨rfl, rfl⟩ | ⟨rfl, rfl⟩
  all_goals rfl

/-- When the current cell has been edited in normal mode, from its text or from an equals sign, and the keys
up to Enter do not end the prompt, the cell holds what they have typed, cut to its capacity. The other
cells hold what they held, the sheet is modified if the text typed is not the one that the cell held, and
nothing else is changed. -/
theorem pressAll_committed (normal : w.editor.mode = .normal)
    (opens : (opener, start) ∈ editKeys w.editor) (typing : ∀ k ∈ keys, k ∉ endKeys) :
    let text := typed start keys
    let (quit, after) := w.pressAll (opener :: keys ++ [.enter])
    let s := after.editor.sheet
    quit = false ∧ (s.texts.get w.editor.cursor).CutOf text ∧
      (∀ a, a ≠ w.editor.cursor → s.texts.get a = w.editor.sheet.texts.get a) ∧
      s.modified = (w.editor.sheet.modified || text ≠ w.editor.sheet.text w.editor.cursor) ∧
      after.disk = w.disk ∧ after.journal = w.journal ++ [.promptCommitted .edit text] ∧
      after.editor =
        { w.editor with
          sheet := { w.editor.sheet with texts := s.texts, modified := s.modified }
          prompt := ""
          promptDefault := start } := by
  intro text
  rw [pressAll_prompt (press_of_editKey normal opens) typing, press_enter rfl, commit_edit]
  let a := w.editor.cursor
  have stored : (w.editor.sheet.setText a text).texts.get a = .ofString text := by
    rw [Sheet.texts_setText, if_pos rfl]
  have modified := w.editor.sheet.modified_setText a text
  refine ⟨rfl, CellText.cutOf_iff.mpr stored, fun b other => ?_, modified, rfl, rfl, ?_⟩
  · exact (Sheet.texts_setText _ a b text).trans (if_neg (Ne.symm other))
  · change ({ w.editor with
      sheet := w.editor.sheet.setText a text, mode := .normal, prompt := "", promptDefault := start } :
      Editor) = _
    rw [← normal]
    exact congrArg
      (fun s => ({ w.editor with sheet := s, prompt := "", promptDefault := start } : Editor))
      (w.editor.sheet.setText_eq a text)

/-- The text of the current cell. -/
def shortWord : Workspace :=
  ⟨{ Editor.new "f" with sheet := Sheet.empty.store .origin "né" }, .empty, []⟩

/-- A word that ends in a letter of two bytes is edited: the letter is taken back as one, and commands of
normal mode are typed or ignored. -/
theorem pressAll_committed_of_shortWord :
    let keys : List Key := [.backspace, .pageDown, .byte 0x71, .byte 0x07]
    let (quit, after) := shortWord.pressAll (.ofCode (.character 'e') :: keys ++ [.enter])
    shortWord.editor.mode = .normal ∧
      (.ofCode (.character 'e'), "né") ∈ editKeys shortWord.editor ∧ (∀ k ∈ keys, k ∉ endKeys) ∧
      quit = false ∧ after.editor.sheet.text .origin = "nq" ∧ after.editor.sheet.modified = true := by
  intro keys
  have opens : (.ofCode (.character 'e'), "né") ∈ editKeys shortWord.editor := by decide
  have typing : ∀ k ∈ keys, k ∉ endKeys := by decide
  obtain ⟨stays, cut, -, modified, -⟩ := pressAll_committed rfl opens typing
  have whole : (CellText.ofString (typed "né" keys)).text = "nq" := by decide
  have stored := (congrArg CellText.text (CellText.cutOf_iff.mp cut)).trans whole
  have other : typed "né" keys ≠ shortWord.editor.sheet.text .origin := by decide
  have marked := modified.trans (Bool.or_eq_true_iff.mpr (.inr (decide_eq_true other)))
  exact ⟨rfl, opens, typing, stays, stored, marked⟩

end Workspace

end Worksheet
