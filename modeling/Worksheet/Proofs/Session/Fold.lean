import Worksheet.Proofs.Editor.View
import Worksheet.Proofs.Session.Lasting

/-!
A session is nothing but its keys.

On a terminal of one size the first frame fits the view, and later frames have nothing left to fit
(`lasting_frameUnder`), however much of them fails. Between two reads, then, nothing happens that lasts,
and a session comes to what its keys come to without any frames (`lasting_loopUnder`): those up to the
first that asks to quit, short of the read that a shutdown is asked for at.
-/

namespace Worksheet

/-! ## Keys without frames -/

namespace Workspace

/-- Takes keys up to the first one that asks to quit, and tells whether there is one. -/
def pressUntilQuit : Workspace → List Key → Bool × Workspace
  | w, [] => (false, w)
  | w, k :: keys =>
    let (quit, w) := w.press k
    if quit then (true, w) else w.pressUntilQuit keys

theorem pressUntilQuit_of_quit {w : Workspace} {k : Key} (quit : (w.press k).1 = true)
    (keys : List Key) : w.pressUntilQuit (k :: keys) = (true, (w.press k).2) := by
  rw [pressUntilQuit]
  exact if_pos quit

theorem pressUntilQuit_of_not_quit {w : Workspace} {k : Key} (stays : (w.press k).1 = false)
    (keys : List Key) : w.pressUntilQuit (k :: keys) = (w.press k).2.pressUntilQuit keys := by
  rw [pressUntilQuit]
  exact if_neg (Bool.not_eq_true _ ▸ stays)

theorem pressUntilQuit_congr {w u : Workspace} (same : w.lasting = u.lasting) (keys : List Key) :
    (w.pressUntilQuit keys).1 = (u.pressUntilQuit keys).1 ∧
      (w.pressUntilQuit keys).2.lasting = (u.pressUntilQuit keys).2.lasting := by
  induction keys generalizing w u with
  | nil => exact ⟨rfl, same⟩
  | cons k keys ih =>
      obtain ⟨quits, lasts⟩ := press_congr same k
      cases quit : (u.press k).1 with
      | true =>
          rw [pressUntilQuit_of_quit (quits.trans quit), pressUntilQuit_of_quit quit]
          exact ⟨rfl, lasts⟩
      | false =>
          rw [pressUntilQuit_of_not_quit (quits.trans quit), pressUntilQuit_of_not_quit quit]
          exact ih lasts

/-- Ctrl-C quits, unless it closes a prompt or the help. -/
theorem press_controlC (w : Workspace) :
    (w.press .controlC).1 = true ∨ (w.press .controlC).2.editor.mode = .normal := by
  unfold press
  cases mode : w.editor.mode with
  | normal => exact .inl rfl
  | prompt kind => exact .inr rfl
  | help => exact .inr rfl

theorem quits_controlC_twice (w : Workspace) (keys : List Key) :
    (w.pressUntilQuit (keys ++ [.controlC, .controlC])).1 = true := by
  induction keys generalizing w with
  | nil =>
      cases quit : (w.press .controlC).1 with
      | true => rw [List.nil_append, pressUntilQuit_of_quit quit]
      | false =>
          rw [List.nil_append, pressUntilQuit_of_not_quit quit]
          rcases w.press_controlC with quits | normal
          · exact absurd (quits.symm.trans quit) (by decide)
          · have again : ((w.press .controlC).2.press .controlC).1 = true := by
              rw [press, normal]
              rfl
            rw [pressUntilQuit_of_quit again]
  | cons k keys ih =>
      rw [List.cons_append]
      cases quit : (w.press k).1 with
      | true => rw [pressUntilQuit_of_quit quit]
      | false => rw [pressUntilQuit_of_not_quit quit, ih]

end Workspace

/-! ## Frames -/

theorem Editor.resize_eq {e : Editor} {width height : Nat} (sound : e.view.Sound)
    (fits : e.view.FitsTo width height) : e.resize width height = e := by
  have same : (e.resize width height).view = e.view := by
    rw [view_resize, sound.fit_eq fits]
  exact congrArg (fun v : View => { e with cursor := v.cursor, rows := v.rows, columns := v.columns })
    same

theorem Editor.resize_resize (e : Editor) (width height : Nat) :
    (e.resize width height).resize width height = e.resize width height :=
  resize_eq (e.view.sound_fit width height) (e.view.fitsTo_fit width height)

theorem Terminal.eq_of_sizeUnder {t : Terminal} {fault : Option FrameFault} {width height : Nat}
    (learned : t.sizeUnder fault = some (width, height)) : (width, height) = t.size := by
  unfold sizeUnder size? at learned
  split at learned
  · cases learned
  split at learned
  · cases learned
  · exact (Option.some.inj learned).symm

/-- The terminal takes a new size with the input. -/
def Input.resizes : Input → Bool
  | .resize _ _ => true
  | _ => false

theorem Input.size_affect {input : Input} (stays : input.resizes = false) (t : Terminal) :
    (input.affect t).size = t.size := by
  cases input with
  | resize => cases stays
  | key | failure | breakSize | breakShow | mend => rfl

namespace Session

/-- The view fits the terminal. -/
structure Fitted (s : Session) : Prop where
  sound : s.workspace.editor.view.Sound
  fits : s.workspace.editor.view.FitsTo s.terminal.width s.terminal.height

theorem Fitted.of_steers {s u : Session} (fitted : s.Fitted)
    (steers : s.workspace.editor.view.Steers u.workspace.editor.view)
    (size : u.terminal.size = s.terminal.size) : u.Fitted := by
  obtain ⟨width, height⟩ := Prod.mk.inj size
  refine ⟨fitted.sound.steers steers, ?_⟩
  rw [width, height]
  exact fitted.fits.steers steers

/-- Fitting the view beforehand makes no difference to a frame that learns the size. -/
theorem frameUnder_resize {fault : Option FrameFault} {s : Session} {width height : Nat}
    (learned : s.terminal.sizeUnder fault = some (width, height)) :
    frameUnder fault { s with workspace := s.workspace.mapEditor (·.resize width height) } =
      s.frameUnder fault := by
  unfold frameUnder
  dsimp only
  rw [learned, Workspace.editor_mapEditor]
  dsimp only
  rw [Editor.resize_resize]
  rfl

theorem lasting_frameUnder {s : Session} (fitted : s.Fitted) (fault : Option FrameFault) :
    (s.frameUnder fault).workspace.lasting = s.workspace.lasting := by
  have drawn (e : Editor) : (s.terminal.drawUnder fault e.beginPass).2.endFrame.lasting = e.lasting :=
    Terminal.lasting_drawUnder fault s.terminal e.beginPass
  refine congrArg (fun e => Workspace.mk e s.workspace.disk []) ((drawn _).trans ?_)
  split
  · next learned =>
      cases Terminal.eq_of_sizeUnder learned
      rw [Editor.resize_eq fitted.sound fitted.fits]
  · rfl

theorem Fitted.frameUnder {s : Session} (fitted : s.Fitted) (fault : Option FrameFault) :
    (s.frameUnder fault).Fitted := by
  have same : (s.frameUnder fault).workspace.editor.view = s.workspace.editor.view :=
    congrArg (·.editor.view) (lasting_frameUnder fitted fault)
  exact fitted.of_steers (same ▸ .stay) (Terminal.size_drawUnder fault _ _)

/-! ## Rounds -/

/-- A frame and a read. -/
def round (fault : Option FrameFault) (input : Input) (shutdown : Bool) (s : Session) :
    Bool × Session :=
  (s.frameUnder fault).take input shutdown

theorem take_key (s : Session) (input : Input) :
    (s.take input false).1 = (s.workspace.press input.toKey).1 ∧
      (s.take input false).2.workspace.lasting = (s.workspace.press input.toKey).2.lasting ∧
      (s.take input false).2.terminal = input.affect s.terminal ∧
      (s.take input false).2.reads = s.reads + 1 := by
  unfold take
  dsimp only
  rcases s.workspace.press input.toKey with ⟨_ | _, _⟩
  · exact ⟨rfl, rfl, rfl, rfl⟩
  · exact ⟨rfl, rfl, rfl, rfl⟩

section Fitted

variable {s : Session} (fitted : s.Fitted) (fault : Option FrameFault) (input : Input)

include fitted

theorem round_shutdown : (s.round fault input true).1 = true ∧
    (s.round fault input true).2.workspace.lasting = s.workspace.lasting :=
  ⟨rfl, lasting_frameUnder fitted fault⟩

theorem round_key : (s.round fault input false).1 = (s.workspace.press input.toKey).1 ∧
    (s.round fault input false).2.workspace.lasting = (s.workspace.press input.toKey).2.lasting ∧
    (s.round fault input false).2.reads = s.reads + 1 := by
  have framed := lasting_frameUnder fitted fault
  obtain ⟨quits, lasts⟩ := Workspace.press_congr framed input.toKey
  obtain ⟨quits', lasts', -, reads⟩ := (s.frameUnder fault).take_key input
  exact ⟨quits'.trans quits, lasts'.trans lasts, reads⟩

theorem Fitted.round_key (stays : input.resizes = false) :
    (s.round fault input false).2.Fitted := by
  have framed := fitted.frameUnder fault
  obtain ⟨-, lasts, terminal, -⟩ := (s.frameUnder fault).take_key input
  have same : (s.round fault input false).2.workspace.editor.view =
      ((s.frameUnder fault).workspace.press input.toKey).2.editor.view :=
    congrArg (·.editor.view) lasts
  refine framed.of_steers (same ▸ Workspace.steers_press _ input.toKey) ?_
  rw [round, terminal, Input.size_affect stays]

end Fitted

/-! ## The keys of a session -/

/-- The keys of so many reads from one on. -/
def keysRead (source : Nat → Input) (first count : Nat) : List Key :=
  (List.range' first count).map fun n => (source n).toKey

/-- Of the keys of the reads from `first` on, those before the read at which a shutdown is asked for.
That read is counted from one, as in the loop. -/
def keysTaken (shutdownAt : Option Nat) (first : Nat) (keys : List Key) : List Key :=
  match shutdownAt with
  | none => keys
  | some n => keys.take (n - 1 - first)

theorem keysRead_succ (source : Nat → Input) (first count : Nat) :
    keysRead source first (count + 1) = (source first).toKey :: keysRead source (first + 1) count :=
  rfl

theorem keysTaken_of_due {shutdownAt : Option Nat} {first : Nat}
    (due : shutdownAt.any (· ≤ first + 1) = true) (keys : List Key) :
    keysTaken shutdownAt first keys = [] := by
  cases shutdownAt with
  | none => cases due
  | some n =>
      have now : n ≤ first + 1 := of_decide_eq_true due
      rw [keysTaken, show n - 1 - first = 0 by omega, List.take_zero]

theorem keysTaken_cons {shutdownAt : Option Nat} {first : Nat}
    (later : shutdownAt.any (· ≤ first + 1) = false) (k : Key) (keys : List Key) :
    keysTaken shutdownAt first (k :: keys) = k :: keysTaken shutdownAt (first + 1) keys := by
  cases shutdownAt with
  | none => rfl
  | some n =>
      have after : ¬ n ≤ first + 1 := of_decide_eq_false later
      rw [keysTaken, show n - 1 - first = n - 1 - (first + 1) + 1 by omega, List.take_succ_cons]
      rfl

theorem keysTaken_cases (shutdownAt : Option Nat) (first : Nat) (keys : List Key) :
    keysTaken shutdownAt first keys = keys ∨
      (keysTaken shutdownAt first keys).length < keys.length := by
  cases shutdownAt with
  | none => exact .inl rfl
  | some n =>
      rw [keysTaken, List.length_take]
      rcases Nat.lt_or_ge (n - 1 - first) keys.length with short | long
      · exact .inr (Nat.lt_of_le_of_lt (Nat.min_le_left _ _) short)
      · exact .inl (List.take_of_length_le long)

/-! ## The loop -/

section Loop

variable {faults : Nat → Option FrameFault} {source : Nat → Input} {shutdownAt : Option Nat}

theorem loopUnder_succ (rounds : Nat) (s : Session) :
    loopUnder faults source shutdownAt (rounds + 1) s =
      let shutdown := shutdownAt.any (· ≤ s.reads + 1)
      if (s.round (faults s.reads) (source s.reads) shutdown).1 = true then
        some (s.round (faults s.reads) (source s.reads) shutdown).2
      else
        loopUnder faults source shutdownAt rounds
          (s.round (faults s.reads) (source s.reads) shutdown).2 := by
  rw [loopUnder]
  rfl

/-- By the rounds: each leaves the view fitted, and what lasts after it is what its key makes of what
lasted before. -/
theorem lasting_loopUnder_of_fitted (stays : ∀ n, (source n).resizes = false) (rounds : Nat)
    {s : Session} (fitted : s.Fitted) :
    let keys := keysTaken shutdownAt s.reads (keysRead source s.reads rounds)
    let pressed := s.workspace.pressUntilQuit keys
    (loopUnder faults source shutdownAt rounds s).map (·.workspace.lasting) =
      if pressed.1 = true ∨ keys.length < rounds then some pressed.2.lasting else none := by
  induction rounds generalizing s with
  | zero =>
      have nothing : keysTaken shutdownAt s.reads (keysRead source s.reads 0) = [] := by
        cases shutdownAt with
        | none => rfl
        | some n => exact List.take_nil
      rw [nothing]
      rfl
  | succ rounds ih =>
      rw [loopUnder_succ, keysRead_succ]
      cases due : shutdownAt.any (· ≤ s.reads + 1) with
      | true =>
          obtain ⟨ends, lasts⟩ := round_shutdown fitted (faults s.reads) (source s.reads)
          rw [keysTaken_of_due due]
          dsimp only
          rw [if_pos ends, if_pos (.inr (Nat.succ_pos rounds))]
          exact congrArg some lasts
      | false =>
          obtain ⟨quits, lasts, reads⟩ := round_key fitted (faults s.reads) (source s.reads)
          rw [keysTaken_cons due]
          dsimp only
          cases quit : (s.workspace.press (source s.reads).toKey).1 with
          | true =>
              rw [Workspace.pressUntilQuit_of_quit quit, if_pos (quits.trans quit), if_pos (.inl rfl)]
              exact congrArg some lasts
          | false =>
              have kept := ih (fitted.round_key (faults s.reads) (source s.reads) (stays s.reads))
              rw [reads] at kept
              obtain ⟨flag, rest⟩ := Workspace.pressUntilQuit_congr lasts
                (keysTaken shutdownAt (s.reads + 1) (keysRead source (s.reads + 1) rounds))
              dsimp only at kept
              rw [flag, rest] at kept
              rw [Workspace.pressUntilQuit_of_not_quit quit, quits, quit, if_neg Bool.false_ne_true, kept]
              simp only [List.length_cons, Nat.add_lt_add_iff_right]

theorem loopUnder_resize {s : Session} {width height : Nat}
    (learned : s.terminal.sizeUnder (faults s.reads) = some (width, height)) (rounds : Nat) :
    loopUnder faults source shutdownAt rounds
        { s with workspace := s.workspace.mapEditor (·.resize width height) } =
      loopUnder faults source shutdownAt rounds s := by
  cases rounds with
  | zero => rfl
  | succ rounds =>
      rw [loopUnder, loopUnder]
      dsimp only
      rw [frameUnder_resize learned]

variable (shutdownAt) in
theorem lasting_loopUnder_of_learned {t : Terminal} {width height : Nat}
    (learned : t.sizeUnder (faults 0) = some (width, height)) (w : Workspace)
    (stays : ∀ n, (source n).resizes = false) (rounds : Nat) :
    let keys := keysTaken shutdownAt 0 (keysRead source 0 rounds)
    let pressed := (w.mapEditor (·.resize width height)).pressUntilQuit keys
    (loopUnder faults source shutdownAt rounds ⟨w, t, 0⟩).map (·.workspace.lasting) =
      if pressed.1 = true ∨ keys.length < rounds then some pressed.2.lasting else none := by
  have fitted : Fitted ⟨w.mapEditor (·.resize width height), t, 0⟩ := by
    cases Terminal.eq_of_sizeUnder learned
    exact ⟨w.editor.view.sound_fit _ _, w.editor.view.fitsTo_fit _ _⟩
  have begins : loopUnder faults source shutdownAt rounds ⟨w.mapEditor (·.resize width height), t, 0⟩ =
      loopUnder faults source shutdownAt rounds ⟨w, t, 0⟩ :=
    loopUnder_resize (s := ⟨w, t, 0⟩) learned rounds
  rw [← begins]
  exact lasting_loopUnder_of_fitted stays rounds fitted

end Loop

/-! ## Scripts -/

theorem resizes_scripted {script : List Input} (stays : ∀ input ∈ script, input.resizes = false)
    (n : Nat) : (scripted script n).resizes = false := by
  unfold scripted
  cases read : script[n]? with
  | none => rfl
  | some input => exact stays input (List.mem_of_getElem? read)

/-- After the end of a script every read gives Ctrl-C. -/
theorem keysRead_scripted (script : List Input) :
    keysRead (scripted script) 0 (script.length + 2) =
      script.map Input.toKey ++ [.controlC, .controlC] := by
  have within : (List.range script.length).map (fun n => (scripted script n).toKey) =
      script.map Input.toKey := by
    refine List.ext_getElem (by simp) fun n _ short => ?_
    have inside : n < script.length := by simpa using short
    simp [scripted, List.getElem?_eq_getElem inside]
  have beyond (n : Nat) : (scripted script (script.length + n)).toKey = .controlC := by
    rw [scripted, List.getElem?_eq_none (Nat.le_add_right _ n)]
    rfl
  rw [keysRead, ← List.range_eq_range', List.range_succ, List.range_succ, List.map_append,
    List.map_append, within, List.append_assoc]
  have first := beyond 0
  have second := beyond 1
  rw [Nat.add_zero] at first
  rw [List.map_singleton, List.map_singleton, first, second]
  rfl

/-- Either a Ctrl-C after the end quits, or a shutdown comes before it. -/
theorem ends_of_controlC_twice (w : Workspace) (shutdownAt : Option Nat) (keys : List Key) :
    (w.pressUntilQuit (keysTaken shutdownAt 0 (keys ++ [.controlC, .controlC]))).1 = true ∨
      (keysTaken shutdownAt 0 (keys ++ [.controlC, .controlC])).length < keys.length + 2 := by
  rcases keysTaken_cases shutdownAt 0 (keys ++ [.controlC, .controlC]) with whole | short
  · rw [whole]
    exact .inl (w.quits_controlC_twice keys)
  · rw [List.length_append] at short
    exact .inr short

/-- Let the terminal keep its size, and let the first frame learn it. Whatever else fails, a session comes
to the keys that it takes, pressed one after the other on the editor fitted to that size: it ends once one
of them quits or a shutdown drops some, and what lasts then is what they leave. A script comes to an end
in any case. -/
theorem lasting_loopUnder {t : Terminal} {faults : Nat → Option FrameFault} {width height : Nat}
    (learned : t.sizeUnder (faults 0) = some (width, height)) (w : Workspace)
    (shutdownAt : Option Nat) :
    let fitted := w.mapEditor (·.resize width height)
    (∀ (source : Nat → Input) (rounds : Nat), (∀ n, (source n).resizes = false) →
      let keys := keysTaken shutdownAt 0 (keysRead source 0 rounds)
      let pressed := fitted.pressUntilQuit keys
      (loopUnder faults source shutdownAt rounds ⟨w, t, 0⟩).map (·.workspace.lasting) =
        if pressed.1 = true ∨ keys.length < rounds then some pressed.2.lasting else none) ∧
      ∀ script : List Input, (∀ input ∈ script, input.resizes = false) →
        let keys := keysTaken shutdownAt 0 (script.map Input.toKey ++ [.controlC, .controlC])
        (runUnder? faults script shutdownAt ⟨w, t, 0⟩).map (·.workspace.lasting) =
          some (fitted.pressUntilQuit keys).2.lasting := by
  intro fitted
  constructor
  · intro source rounds stays
    exact lasting_loopUnder_of_learned shutdownAt learned w stays rounds
  intro script stays keys
  have ends := ends_of_controlC_twice fitted shutdownAt (script.map Input.toKey)
  rw [List.length_map] at ends
  have run := lasting_loopUnder_of_learned shutdownAt learned w (resizes_scripted stays)
    (script.length + 2)
  rw [keysRead_scripted] at run
  exact run.trans (if_pos ends)

/-- A page down, a read that fails, and `q`. -/
def pageAndQuit : List Input :=
  [.key .pageDown, .failure, .key (.byte 0x71)]

/-- The second frame cannot be shown, and the shutdown comes with the last of the reads. -/
theorem lasting_loopUnder_of_pageAndQuit :
    let t := Terminal.new 80 24
    let w : Workspace := ⟨.new "f", .empty, []⟩
    let faults : Nat → Option FrameFault := fun n => if n = 1 then some .finish else none
    let taken := [Key.pageDown, .null]
    let pressed := (w.mapEditor (·.resize 80 24)).pressUntilQuit taken
    t.sizeUnder (faults 0) = some (80, 24) ∧
      (∀ n, (scripted pageAndQuit n).resizes = false) ∧
      (loopUnder faults (scripted pageAndQuit) (some 3) 2 ⟨w, t, 0⟩).map (·.workspace.lasting) =
        none ∧
      (∀ input ∈ pageAndQuit, input.resizes = false) ∧
      (runUnder? faults pageAndQuit (some 3) ⟨w, t, 0⟩).map (·.workspace.lasting) =
        some pressed.2.lasting := by
  intro t w faults taken pressed
  have learned : t.sizeUnder (faults 0) = some (80, 24) := rfl
  have stays : ∀ input ∈ pageAndQuit, input.resizes = false := by decide
  have always := resizes_scripted stays
  obtain ⟨comes, ends⟩ := lasting_loopUnder learned w (some 3)
  exact ⟨learned, always, comes (scripted pageAndQuit) 2 always, stays, ends pageAndQuit stays⟩

end Session

end Worksheet
