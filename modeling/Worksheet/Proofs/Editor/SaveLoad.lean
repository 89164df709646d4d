import Worksheet.Proofs.Editor.Keys
import Worksheet.Proofs.Sheet.Files
import Worksheet.Proofs.SheetFile.RoundTrip
import Mathlib.Data.List.DropRight

/-!
Saving a sheet and getting it back, by keys.

`s` and Enter save to the path that the prompt suggests, `l` and Enter load from it. In between the
path and the file are safe as long as no other prompt for a path is committed (`sameFiles_press`),
and the prompt of the load suggests what the save remembered. That path was trimmed, and trimming it
again changes nothing (`Text.trim_trim`), so both prompts lead to the same file.
-/

namespace Worksheet

/-! ## Trimming -/

namespace Text

theorem trimBy_eq_nil_iff {p : Char → Bool} {cs : List Char} :
    trimBy p cs = [] ↔ ∀ c ∈ cs, p c = true := by
  change (cs.dropWhile p).rdropWhile p = [] ↔ _
  rw [List.rdropWhile_eq_nil_iff, ← List.dropWhile_eq_nil_iff, List.dropWhile_idempotent,
    List.dropWhile_eq_nil_iff]

/-- What has been trimmed is trimmed. -/
theorem trimBy_trimBy (p : Char → Bool) (cs : List Char) :
    trimBy p (trimBy p cs) = trimBy p cs := by
  have start : (trimBy p cs).dropWhile p = trimBy p cs := by
    rw [List.dropWhile_eq_self_iff]
    intro nonempty first
    -- the end is cut off what begins with a character that stays
    have kept : trimBy p cs <+: cs.dropWhile p := List.rdropWhile_prefix p _
    rw [kept.getElem] at first
    exact List.dropWhile_eq_self_iff.mp (List.dropWhile_idempotent p cs)
      (Nat.lt_of_lt_of_le nonempty kept.length_le) first
  change ((trimBy p cs).dropWhile p).rdropWhile p = _
  rw [start]
  exact List.rdropWhile_idempotent p _

theorem trim_trim (s : String) : trim (trim s) = trim s := by
  rw [trim, trim, String.toList_ofList, trimBy_trimBy]

theorem isAllWhiteSpace_trim (s : String) : isAllWhiteSpace (trim s) = isAllWhiteSpace s := by
  rw [Bool.eq_iff_iff, isAllWhiteSpace, isAllWhiteSpace, List.all_eq_true, List.all_eq_true,
    ← trimBy_eq_nil_iff, ← trimBy_eq_nil_iff, trim, String.toList_ofList, trimBy_trimBy]

end Text

/-! ## Prompts for paths -/

namespace Workspace

variable {w u : Workspace} {path : String} {kind : PromptKind}

theorem promptedPath?_of_blank {input : String} (blank : Text.isAllWhiteSpace input = true)
    (default : String) : promptedPath? input default =
      if Text.isAllWhiteSpace default then none else some (Text.trim default) := by
  unfold promptedPath?
  rw [if_pos blank]

theorem promptedPath?_self (offered : String) : promptedPath? offered offered =
    if Text.isAllWhiteSpace offered then none else some (Text.trim offered) := by
  unfold promptedPath?
  rw [ite_self]

/-- A path that came of a suggestion is trimmed, and comes of itself. -/
theorem of_promptedPath? {offered : String} (prompted : promptedPath? offered offered = some path) :
    path = Text.trim offered ∧ promptedPath? path path = some path := by
  rw [promptedPath?_self] at prompted ⊢
  split at prompted
  · cases prompted
  next named =>
  cases prompted
  rw [Text.isAllWhiteSpace_trim, if_neg named, Text.trim_trim]
  exact ⟨rfl, rfl⟩

/-! ## Saving and loading -/

/-- What is left by a save, if that is the last thing that has been noted down. -/
theorem of_saved {path' : String} {count : Nat}
    (last : (w.save path).journal.getLast? = some (.saved path' count)) :
    path' = path ∧ count = (SheetFile.filled w.editor.sheet.texts).length ∧
      (w.save path).disk.open? path =
        .ok (.file (Text.encode (SheetFile.write w.editor.sheet.texts))) ∧
      (w.save path).editor.sheet = { w.editor.sheet with path := some path, modified := false } := by
  unfold save at last ⊢
  rcases outcome : w.editor.sheet.save w.disk path with ⟨result, sheet, disk⟩
  rw [outcome] at last
  cases result with
  | error e => cases (List.getLast?_concat.symm.trans last)
  | ok counted =>
      cases (List.getLast?_concat.symm.trans last)
      obtain ⟨replaced, rfl, rfl⟩ := Sheet.saveUnder_ok outcome
      obtain ⟨-, -, holds, -⟩ := Disk.replace_ok replaced
      exact ⟨rfl, rfl, holds, rfl⟩

theorem journal_save_of_replaced
    (replaced : (w.disk.replace none path (Text.encode w.editor.sheet.content)).1 = .ok ()) :
    (w.save path).journal = w.journal ++ [.saved path w.editor.sheet.filledCount] := by
  unfold save Sheet.save Sheet.saveUnder
  rcases outcome : w.disk.replace none path (Text.encode w.editor.sheet.content) with ⟨written, disk⟩
  rw [outcome] at replaced
  cases replaced
  rfl

/-- A written file is loaded without passing anything over. -/
theorem load_written {texts : Grid CellText}
    (holds : w.disk.open? path = .ok (.file (Text.encode (SheetFile.write texts)))) :
    (w.load path).journal = w.journal ++ [.loaded path (SheetFile.filled texts).length,
        .sheetReplaced path (SheetFile.filled texts).length] ∧
      (∀ a, (w.load path).editor.sheet.texts.get a = (texts.get a).dropSpaces) ∧
      (w.load path).editor.sheet.modified = false ∧
      (w.load path).editor.sheet.path = some path := by
  have whole : w.disk.read path = .whole (Text.encode (SheetFile.write texts)) := by
    rw [Disk.read, holds]
  obtain ⟨stored, get⟩ := SheetFile.read_write texts
  have outside := SheetFile.outside_read_write texts
  have result : w.editor.sheet.load w.disk path = (.ok (SheetFile.filled texts).length, [],
      { w.editor.sheet.takeContents (SheetFile.read (Text.encode (SheetFile.write texts))) with
        path := some path, modified := false }) := by
    rw [Sheet.load, whole, ← stored, ← outside]
    rfl
  unfold load
  rw [result]
  generalize SheetFile.read (Text.encode (SheetFile.write texts)) = contents at get ⊢
  exact ⟨congrArg (· ++ _) (List.append_nil w.journal), get, rfl, rfl⟩

/-! ## Keys in between -/

/-- The files are the same, and so is the path of the sheet. -/
structure SameFiles (w u : Workspace) : Prop where
  disk : u.disk = w.disk
  path : u.editor.sheet.path = w.editor.sheet.path

theorem SameFiles.refl (w : Workspace) : w.SameFiles w := ⟨rfl, rfl⟩

theorem SameFiles.trans {v : Workspace} (early : w.SameFiles u) (late : u.SameFiles v) :
    w.SameFiles v :=
  ⟨late.disk.trans early.disk, late.path.trans early.path⟩

theorem path_setText (s : Sheet) (a : Address) (new : String) : (s.setText a new).path = s.path := by
  rw [Sheet.setText_eq]

theorem path_run (e : Editor) (command : Command) : (e.run command).sheet.path = e.sheet.path := by
  cases command with
  | clearCell => exact path_setText e.sheet e.cursor ""
  | move | firstColumn | lastColumn | pageUp | pageDown | editCell | editFormula | goTo | save | load
  | help | quit => rfl

theorem sameFiles_closing (w : Workspace) (kind : PromptKind) : w.SameFiles (w.closing kind) :=
  ⟨rfl, rfl⟩

theorem sameFiles_mapEditor (w : Workspace) {f : Editor → Editor}
    (kept : (f w.editor).sheet.path = w.editor.sheet.path) : w.SameFiles (w.mapEditor f) :=
  ⟨rfl, kept⟩

theorem sameFiles_commit (w : Workspace) (other : (Mode.prompt kind).asksPath = false) :
    w.SameFiles (w.commit kind) := by
  cases kind with
  | edit =>
      rw [commit_edit]
      exact (w.sameFiles_closing .edit).trans (sameFiles_mapEditor _ (path_setText _ _ _))
  | goTo =>
      rw [commit_goTo]
      exact (w.sameFiles_closing .goTo).trans
        (sameFiles_mapEditor _ (congrArg Sheet.path (Editor.goTo_keeps _ _).1))
  | save | load => cases other

theorem sameFiles_press {k : Key} (quiet : w.editor.mode.asksPath = true → k ≠ .enter) :
    w.SameFiles (w.press k).2 := by
  have pressed := w.pressed_press k
  generalize (w.press k).2 = u at pressed ⊢
  cases pressed with
  | run command => exact w.sameFiles_mapEditor (path_run w.editor command)
  | commit kind opened enter =>
      rw [opened] at quiet
      exact sameFiles_commit w (eq_false_of_ne_true fun asks => quiet asks enter)
  | type | leave => exact w.sameFiles_mapEditor rfl

/-- None of the keys commits a prompt for a path. -/
def CommitsNoPath (w : Workspace) : List Key → Prop
  | [] => True
  | k :: keys => (w.editor.mode.asksPath = true → k ≠ .enter) ∧ (w.press k).2.CommitsNoPath keys

theorem sameFiles_pressAll {keys : List Key} (quiet : w.CommitsNoPath keys) :
    w.SameFiles (w.pressAll keys).2 := by
  induction keys generalizing w with
  | nil => exact .refl w
  | cons k keys ih =>
      rw [snd_pressAll_cons]
      exact (sameFiles_press quiet.1).trans (ih quiet.2)

/-! ## What prompts offer -/

theorem mode_save (w : Workspace) (path : String) : (w.save path).editor.mode = w.editor.mode := by
  obtain ⟨_, _, same⟩ := w.editor_save path
  rw [same]

theorem mode_load (w : Workspace) (path : String) : (w.load path).editor.mode = w.editor.mode := by
  obtain ⟨_, _, same⟩ := w.editor_load path
  rw [same]

/-- A commit ends in normal mode. -/
theorem mode_commit (w : Workspace) (kind : PromptKind) : (w.commit kind).editor.mode = .normal := by
  have committed := w.committed_commit kind
  generalize w.commit kind = u at committed ⊢
  cases committed with
  | edit | noPath => rfl
  | goTo => exact ((w.closing .goTo).editor.goTo_keeps w.editor.prompt).2
  | save path => exact mode_save _ path
  | load path => exact mode_load _ path

/-- While a prompt for a path is open, it offers the path that is suggested. -/
def OffersSuggestion (w : Workspace) : Prop :=
  w.editor.mode.asksPath = true → w.editor.promptDefault = w.editor.suggestedPath

theorem offersSuggestion_of_normal (normal : w.editor.mode = .normal) : w.OffersSuggestion := by
  intro asks
  rw [normal] at asks
  cases asks

theorem OffersSuggestion.press (offers : w.OffersSuggestion) (k : Key) :
    (w.press k).2.OffersSuggestion := by
  have pressed := w.pressed_press k
  generalize (w.press k).2 = u at pressed ⊢
  cases pressed with
  | run command normal =>
      cases command with
      | save | load => exact fun _ => rfl
      | editCell | editFormula | goTo | help => exact nofun
      | move | firstColumn | lastColumn | pageUp | pageDown | clearCell | quit =>
          exact offersSuggestion_of_normal normal
  | commit kind => exact offersSuggestion_of_normal (w.mode_commit kind)
  | type => exact offers
  | leave => exact nofun

theorem OffersSuggestion.pressAll (offers : w.OffersSuggestion) (keys : List Key) :
    (w.pressAll keys).2.OffersSuggestion := by
  induction keys generalizing w with
  | nil => exact offers
  | cons k keys ih =>
      rw [snd_pressAll_cons]
      exact ih (offers.press k)

/-! ## Two keys -/

/-- Opens a prompt for a path with the suggested one. -/
def ask (w : Workspace) (kind : PromptKind) : Workspace :=
  w.mapEditor fun e => e.openPrompt kind e.suggestedPath

theorem journal_closing_ask (w : Workspace) (kind : PromptKind) :
    ((w.ask kind).closing kind).journal =
      w.journal ++ [.promptCommitted kind w.editor.suggestedPath] :=
  rfl

theorem snd_pressAll_of_opens {k : Key} {command : Command} (normal : w.editor.mode = .normal)
    (means : Command.ofKey? k = some command)
    (opens : ∀ e : Editor, e.run command = e.openPrompt kind e.suggestedPath) :
    (w.pressAll [k, .enter]).2 = (w.ask kind).commit kind := by
  have opened : (w.press k).2 = w.ask kind := by
    rw [snd_press_of_command normal means, ask, ← funext opens]
  rw [snd_pressAll_cons, snd_pressAll_cons, snd_pressAll_nil, opened]
  exact snd_press_enter rfl

/-- The key `s` and Enter. -/
def saveKeys : List Key := [.ofCode (.character 's'), .enter]

/-- The key `l` and Enter. -/
def loadKeys : List Key := [.ofCode (.character 'l'), .enter]

theorem of_saveKeys {count : Nat} (normal : w.editor.mode = .normal)
    (last : (w.pressAll saveKeys).2.journal.getLast? = some (.saved path count)) :
    promptedPath? w.editor.suggestedPath w.editor.suggestedPath = some path ∧
      count = (SheetFile.filled w.editor.sheet.texts).length ∧
      (w.pressAll saveKeys).2.disk.open? path =
        .ok (.file (Text.encode (SheetFile.write w.editor.sheet.texts))) ∧
      (w.pressAll saveKeys).2.editor.sheet =
        { w.editor.sheet with path := some path, modified := false } := by
  have keys : (w.pressAll saveKeys).2 = (w.ask .save).commit .save :=
    snd_pressAll_of_opens normal rfl fun _ => rfl
  rw [keys] at last ⊢
  cases prompted : promptedPath? (w.ask .save).editor.prompt (w.ask .save).editor.promptDefault with
  | none =>
      rw [commit_of_no_path rfl prompted] at last
      cases List.getLast?_concat.symm.trans last
  | some offered =>
      rw [commit_save prompted] at last ⊢
      obtain ⟨rfl, counted, holds, sheet⟩ := of_saved last
      exact ⟨prompted, counted, holds, sheet⟩

theorem loaded_loadKeys {texts : Grid CellText} (normal : w.editor.mode = .normal)
    (remembered : w.editor.sheet.path = some path) (stable : promptedPath? path path = some path)
    (holds : w.disk.open? path = .ok (.file (Text.encode (SheetFile.write texts)))) :
    (w.pressAll loadKeys).2.journal = w.journal ++ ([.promptCommitted .load path,
        .loaded path (SheetFile.filled texts).length,
        .sheetReplaced path (SheetFile.filled texts).length] : List Event) ∧
      (∀ a, (w.pressAll loadKeys).2.editor.sheet.texts.get a = (texts.get a).dropSpaces) ∧
      (w.pressAll loadKeys).2.editor.sheet.modified = false ∧
      (w.pressAll loadKeys).2.editor.sheet.path = some path := by
  have suggested : w.editor.suggestedPath = path := by
    rw [Editor.suggestedPath, remembered, Option.getD_some]
  have keys : (w.pressAll loadKeys).2 = (w.ask .load).commit .load :=
    snd_pressAll_of_opens normal rfl fun _ => rfl
  have prompted : promptedPath? (w.ask .load).editor.prompt (w.ask .load).editor.promptDefault =
      some path := by
    change promptedPath? w.editor.suggestedPath w.editor.suggestedPath = some path
    rw [suggested, stable]
  rw [keys, commit_load prompted]
  have loaded := load_written (w := (w.ask .load).closing .load) holds
  rw [journal_closing_ask, suggested, List.append_assoc] at loaded
  exact loaded

/-- When `s` and Enter have saved a sheet, and no key after that commits a prompt for a path, `l`
and Enter in normal mode load it again: every cell has the text that it had, less the spaces that it
starts with, and the sheet counts as unmodified and remembers the same path. Whatever the keys, an
open prompt for a path offers the path that is suggested, so that a blank prompt stands for this
path. -/
theorem load_of_save (w : Workspace) (normal : w.editor.mode = .normal) :
    (∀ path count keys,
      let saved := (w.pressAll saveKeys).2
      let later := (saved.pressAll keys).2
      let loaded := (later.pressAll loadKeys).2
      saved.journal.getLast? = some (.saved path count) → saved.CommitsNoPath keys →
      later.editor.mode = .normal →
        loaded.journal = later.journal ++
          [.promptCommitted .load path, .loaded path count, .sheetReplaced path count] ∧
        (∀ a, loaded.editor.sheet.texts.get a = (w.editor.sheet.texts.get a).dropSpaces) ∧
        loaded.editor.sheet.modified = false ∧
        path = Text.trim w.editor.suggestedPath ∧ saved.editor.sheet.path = some path ∧
        loaded.editor.sheet.path = some path) ∧
    ∀ keys kind,
      let u := (w.pressAll keys).2
      u.editor.mode = .prompt kind → kind = .save ∨ kind = .load →
        u.editor.promptDefault = u.editor.suggestedPath ∧
        (Text.isAllWhiteSpace u.editor.prompt = true →
          (u.press .enter).2 =
            if Text.isAllWhiteSpace u.editor.suggestedPath then
              (u.closing kind).mapEditor (·.say "No file name")
            else if kind = .save then (u.closing kind).save (Text.trim u.editor.suggestedPath)
            else (u.closing kind).load (Text.trim u.editor.suggestedPath)) := by
  constructor
  · intro path count keys saved later loaded last quiet ended
    obtain ⟨prompted, rfl, holds, sheet⟩ := of_saveKeys normal last
    obtain ⟨trimmed, stable⟩ := of_promptedPath? prompted
    have same : saved.SameFiles later := sameFiles_pressAll quiet
    have remembered : saved.editor.sheet.path = some path := congrArg Sheet.path sheet
    obtain ⟨journal, texts, unmodified, path'⟩ := loaded_loadKeys ended
      (same.path.trans remembered) stable (same.disk ▸ holds)
    exact ⟨journal, texts, unmodified, trimmed, remembered, path'⟩
  · intro keys kind u opened file
    have asks : u.editor.mode.asksPath = true := by
      rw [opened]
      rcases file with rfl | rfl <;> rfl
    have offers := (offersSuggestion_of_normal normal).pressAll keys asks
    refine ⟨offers, fun blank => ?_⟩
    have prompted : promptedPath? u.editor.prompt u.editor.promptDefault =
        if Text.isAllWhiteSpace u.editor.suggestedPath then none
        else some (Text.trim u.editor.suggestedPath) := by
      rw [promptedPath?_of_blank blank, offers]
    rw [snd_press_enter opened]
    split at prompted
    · next nameless => rw [if_pos nameless, commit_of_no_path (opened ▸ asks) prompted]
    next named =>
    rw [if_neg named]
    rcases file with rfl | rfl
    · rw [if_pos rfl, commit_save prompted]
    · rw [if_neg nofun, commit_load prompted]

/-- The text of the first cell has never been saved. -/
def unsaved : Workspace :=
  ⟨{ Editor.new "f" with sheet := Sheet.empty.store .origin " x" }, .empty, []⟩

theorem saveKeys_unsaved : (unsaved.pressAll saveKeys).2.editor.mode = .normal ∧
    (unsaved.pressAll saveKeys).2.journal.getLast? =
      some (.saved "f" unsaved.editor.sheet.filledCount) := by
  have keys : (unsaved.pressAll saveKeys).2 = (unsaved.ask .save).commit .save :=
    snd_pressAll_of_opens rfl rfl fun _ => rfl
  have prompted : promptedPath? (unsaved.ask .save).editor.prompt
      (unsaved.ask .save).editor.promptDefault = some "f" := by
    change promptedPath? "f" "f" = some "f"
    decide
  have replaced := Disk.fst_replace_of_isName Disk.isName_f .empty
    (Text.encode unsaved.editor.sheet.content)
  rw [keys]
  refine ⟨mode_commit _ _, ?_⟩
  have journal := journal_save_of_replaced (w := (unsaved.ask .save).closing .save) replaced
  rw [commit_save prompted, journal]
  exact List.getLast?_concat

/-- The first cell is saved to a new file, cleared and loaded; and a prompt for a path is emptied and
committed. -/
theorem load_of_save_of_unsaved :
    let clear : Key := .ofCode (.character 'c')
    let saved := (unsaved.pressAll saveKeys).2
    let later := (saved.pressAll [clear]).2
    let emptied := (unsaved.pressAll [.ofCode (.character 's'), .backspace]).2
    unsaved.editor.mode = .normal ∧
      saved.journal.getLast? = some (.saved "f" unsaved.editor.sheet.filledCount) ∧
      saved.CommitsNoPath [clear] ∧ later.editor.mode = .normal ∧
      (later.pressAll loadKeys).2.editor.sheet.text .origin = "x" ∧
      emptied.editor.mode = .prompt .save ∧ Text.isAllWhiteSpace emptied.editor.prompt = true ∧
      (emptied.press .enter).2 = (emptied.closing .save).save "f" := by
  intro clear saved later emptied
  obtain ⟨restores, offers⟩ := load_of_save unsaved rfl
  obtain ⟨normal, last⟩ := saveKeys_unsaved
  have quiet : saved.CommitsNoPath [clear] := ⟨fun _ => by decide, trivial⟩
  have ended : later.editor.mode = .normal := by
    have cleared : later = saved.mapEditor (·.run .clearCell) :=
      (snd_pressAll_cons saved clear []).trans (snd_press_of_command normal rfl)
    rw [cleared, editor_mapEditor, Editor.run, Editor.clearCell, normal]
  obtain ⟨-, texts, -⟩ := restores "f" _ [clear] last quiet ended
  have restored : (later.pressAll loadKeys).2.editor.sheet.text .origin = "x" := by
    rw [Sheet.text, texts, unsaved, Sheet.store, Grid.get_set, if_pos rfl]
    decide
  have opened : emptied.editor.mode = .prompt .save := rfl
  have blank : Text.isAllWhiteSpace emptied.editor.prompt = true := by decide
  have saves := (offers _ .save opened (.inl rfl)).2 blank
  have named : Text.isAllWhiteSpace emptied.editor.suggestedPath = false := by decide
  have trimmed : Text.trim emptied.editor.suggestedPath = "f" := by decide
  rw [if_neg (ne_true_of_eq_false named), if_pos rfl, trimmed] at saves
  exact ⟨rfl, last, quiet, ended, restored, opened, blank, saves⟩

end Workspace

end Worksheet
