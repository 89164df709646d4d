import Worksheet.Proofs.Editor.Messages
import Worksheet.Proofs.Screen.LastLine
import Worksheet.Proofs.Session.Fold

/-!
Every message is shown in one frame.

The loop is taken apart into its rounds (`Session.begun?`, `Session.loopUnder_eq_some_iff`). A frame
leaves no message behind, so what is pending at the beginning of a round is what the key of the round
before has said (`Session.turn_stays`); it was said in normal mode, where the frame shows it if the screen
has room (`Session.tells_of_works`). A round whose key says nothing leaves nothing to show
(`Session.quiet_of_works`). So a message is shown by the frame after its key and by no other
(`Session.message_shown_once`).
-/

namespace Worksheet

/-! ## Frames that are shown -/

theorem Canvas.resize_blank (width height width' height' : Nat) :
    (blank width height).resize width' height' = blank width' height' := by
  unfold resize blank
  congr 1
  refine Array.ext (by simp) fun i _ _ => ?_
  rw [Array.getElem_ofFn, Array.getElem_replicate]
  by_cases inside : i < width * height
  · simp [Array.getD, inside]
  · simp [Array.getD, inside]

namespace Terminal

/-- A frame with this fault does not fail. -/
structure Works (fault : Option FrameFault) (t : Terminal) : Prop where
  faultless : fault = none
  size : t.sizeFails = false
  showing : t.showFails = false

/-- The next frame is drawn on blanks. -/
def Clear (t : Terminal) : Prop := ∃ width height, t.pending = .blank width height

theorem pending_fit {t : Terminal} (clear : t.Clear) (width height : Nat) :
    (t.fit width height).pending = .blank width height := by
  obtain ⟨w, h, blank⟩ := clear
  unfold fit
  rw [blank]
  split
  · next same =>
      obtain ⟨rfl, rfl⟩ := same
      exact blank
  · exact Canvas.resize_blank w h width height

variable {fault : Option FrameFault} {t : Terminal}

theorem sizeUnder_of_works (works : t.Works fault) :
    t.sizeUnder fault = some (t.width, t.height) := by
  rw [works.faultless, sizeUnder, size?, works.size]
  rfl

theorem works_fit (works : t.Works fault) (width height : Nat) : (t.fit width height).Works fault := by
  unfold fit
  split
  · exact works
  · exact ⟨works.faultless, works.size, works.showing⟩

theorem works_drawUnder (works : t.Works fault) (e : Editor) : (t.drawUnder fault e).1.Works fault := by
  unfold drawUnder
  split
  · exact works
  next width height _ =>
  obtain ⟨faultless, size, shown⟩ := works_fit works width height
  dsimp only
  split
  · exact ⟨faultless, size, shown⟩
  · exact ⟨faultless, size, shown⟩

/-- A frame that does not fail is what is seen then, and the next one is drawn on blanks again. -/
theorem drawUnder_of_works (works : t.Works fault) (clear : t.Clear) (e : Editor) :
    (t.drawUnder fault e).1.screen = (Frame.draw e).1.paint (.blank t.width t.height) ∧
      (t.drawUnder fault e).1.Clear := by
  have size := sizeUnder_of_works works
  have blank := pending_fit clear t.width t.height
  have shown := (works_fit works t.width t.height).showing
  rw [works.faultless] at size ⊢
  unfold drawUnder
  rw [if_neg nofun, size]
  dsimp only
  rw [shown, blank, if_neg (by decide)]
  exact ⟨rfl, t.width, t.height, rfl⟩

theorem snd_drawUnder_of_works (works : t.Works fault) (e : Editor) :
    (t.drawUnder fault e).2 = (Frame.draw e).2 := by
  have size := sizeUnder_of_works works
  rw [works.faultless] at size ⊢
  unfold drawUnder
  rw [if_neg nofun, size]
  dsimp only
  split
  · rfl
  · rfl

end Terminal

namespace Session

/-- The editor as a frame draws it. -/
def drawn (fault : Option FrameFault) (s : Session) : Editor :=
  match s.terminal.sizeUnder fault with
  | some (width, height) => (s.workspace.editor.resize width height).beginPass
  | none => s.workspace.editor.beginPass

theorem status_drawn (fault : Option FrameFault) (s : Session) :
    (s.drawn fault).status = s.workspace.editor.status := by
  unfold drawn
  split
  · rfl
  · rfl

theorem mode_drawn (fault : Option FrameFault) (s : Session) :
    (s.drawn fault).mode = s.workspace.editor.mode := by
  unfold drawn
  split
  · rfl
  · rfl

theorem beginPass_drawn (fault : Option FrameFault) (s : Session) :
    (s.drawn fault).beginPass = s.drawn fault := by
  unfold drawn
  split
  · rfl
  · rfl

/-- What is seen once a round has shown its frame. -/
def seen (fault : Option FrameFault) (s : Session) : Canvas :=
  (s.frameUnder fault).terminal.screen

/-- A round tells a message. Its frame is drawn in normal mode with the message at the end of the status
line, and on a screen of two lines or more that line is seen in the style of messages, as far as there is
room. A single line has no room for it. -/
structure Tells (fault : Option FrameFault) (s : Session) (message : String) : Prop where
  normal : (s.drawn fault).mode = .normal
  ends : ∃ front : String, (s.drawn fault).statusLine.1 = front ++ "  " ++ message
  screen : 2 ≤ s.terminal.height → (s.seen fault).EndsWith
    (styled .notice (Frame.inLine (s.drawn fault).statusLine.1))
  single : s.terminal.height < 2 → (s.seen fault).Quiet

variable {fault : Option FrameFault} {s : Session} {message : String}

theorem frameUnder_eq (fault : Option FrameFault) (s : Session) :
    s.frameUnder fault =
      let (terminal, e) := s.terminal.drawUnder fault (s.drawn fault)
      { s with workspace := { s.workspace with editor := e.endFrame }, terminal := terminal } := by
  unfold frameUnder drawn
  cases s.terminal.sizeUnder fault with
  | none => rfl
  | some size => rfl

theorem terminal_frameUnder (fault : Option FrameFault) (s : Session) :
    (s.frameUnder fault).terminal = (s.terminal.drawUnder fault (s.drawn fault)).1 := by
  rw [frameUnder_eq]

theorem frameUnder_of_works (works : s.terminal.Works fault) (clear : s.terminal.Clear) :
    s.seen fault = Frame.picture (s.drawn fault) s.terminal.width s.terminal.height ∧
      (s.frameUnder fault).terminal.Clear := by
  obtain ⟨seen, clear⟩ := Terminal.drawUnder_of_works works clear (s.drawn fault)
  have drawn := s.terminal_frameUnder fault
  rw [Frame.picture, beginPass_drawn]
  exact ⟨(congrArg Terminal.screen drawn).trans seen, drawn ▸ clear⟩

theorem tells_of_works (works : s.terminal.Works fault) (clear : s.terminal.Clear)
    (pending : s.workspace.editor.status = some message)
    (normal : s.workspace.editor.mode = .normal) : s.Tells fault message := by
  have mode := (s.mode_drawn fault).trans normal
  have status := (s.status_drawn fault).trans pending
  obtain ⟨picture, -⟩ := frameUnder_of_works works clear
  refine ⟨mode, ?_, fun high => ?_, fun low => ?_⟩
  · unfold Editor.statusLine
    rw [status]
    exact ⟨_, (String.append_assoc ..).symm⟩
  · have last : (Frame.lastLine (s.drawn fault).beginPass).1 =
        inked .notice (Frame.inLine (s.drawn fault).statusLine.1) := by
      rw [beginPass_drawn]
      exact Frame.lastLine_of_message (by rw [status]; rfl) mode
    rw [picture]
    exact Frame.endsWith_picture (by rw [mode]; exact nofun) high last
  · rw [picture]
    exact Frame.quiet_picture fun high => absurd high (by omega)

theorem quiet_of_works (works : s.terminal.Works fault) (clear : s.terminal.Clear)
    (silent : s.workspace.editor.status = none) : (s.seen fault).Quiet := by
  rw [(frameUnder_of_works works clear).1]
  refine Frame.quiet_picture fun _ => ?_
  exact Frame.unmarked_lastLine ((s.status_drawn fault).trans silent)

/-! ## Rounds -/

theorem clear_affect {t : Terminal} (clear : t.Clear) (input : Input) : (input.affect t).Clear := by
  cases input with
  | key | failure | resize | breakSize | breakShow | mend => exact clear

theorem take_due (s : Session) (input : Input) : (s.take input true).1 = true :=
  rfl

/-- A session that goes on is left as its key leaves it. -/
theorem take_stays {input : Input} (stays : (s.take input false).1 = false) :
    (s.workspace.press input.toKey).1 = false ∧
      (s.take input false).2 =
        ⟨(s.workspace.press input.toKey).2, input.affect s.terminal, s.reads + 1⟩ := by
  unfold take at stays ⊢
  dsimp only at stays ⊢
  cases quit : (s.workspace.press input.toKey).1 with
  | false => exact ⟨rfl, rfl⟩
  | true =>
      rw [quit] at stays
      cases stays

section Rounds

variable (faults : Nat → Option FrameFault) (source : Nat → Input) (shutdownAt : Option Nat)

/-- The next round of the loop, and whether the session ends with it. -/
def turn (s : Session) : Bool × Session :=
  s.round (faults s.reads) (source s.reads) (shutdownAt.any (· ≤ s.reads + 1))

/-- The session as round number `n` after this one begins, if it has not ended before. -/
def begun? : Nat → Session → Option Session
  | 0, s => some s
  | n + 1, s =>
    if (s.turn faults source shutdownAt).1 then none
    else begun? n (s.turn faults source shutdownAt).2

/-- What the key of the next round says. It is not heard once a shutdown is asked for. -/
def said? (s : Session) : Option String :=
  if shutdownAt.any (· ≤ s.reads + 1) then none
  else (s.frameUnder (faults s.reads)).workspace.message? (source s.reads).toKey

end Rounds

variable {faults : Nat → Option FrameFault} {source : Nat → Input} {shutdownAt : Option Nat}
  {n rounds : Nat} {r u : Session}

theorem begun?_of_stays (stays : s.turn faults source shutdownAt = (false, r)) (n : Nat) :
    begun? faults source shutdownAt (n + 1) s = begun? faults source shutdownAt n r := by
  rw [begun?, stays]
  rfl

theorem begun?_of_ends (ends : s.turn faults source shutdownAt = (true, r)) (n : Nat) :
    begun? faults source shutdownAt (n + 1) s = none := by
  rw [begun?, ends]
  rfl

theorem begun?_succ_eq_some_iff : begun? faults source shutdownAt (n + 1) s = some u ↔
    ∃ r, begun? faults source shutdownAt n s = some r ∧
      r.turn faults source shutdownAt = (false, u) := by
  induction n generalizing s with
  | zero =>
      rcases turned : s.turn faults source shutdownAt with ⟨_ | _, v⟩
      · simp [begun?, turned]
      · simp [begun?, turned]
  | succ n ih =>
      rcases turned : s.turn faults source shutdownAt with ⟨_ | _, v⟩
      · rw [begun?_of_stays turned, begun?_of_stays turned, ih]
      · rw [begun?_of_ends turned, begun?_of_ends turned]
        simp

/-- The rounds are those of the loop: it ends with the first round that ends the session. -/
theorem loopUnder_eq_some_iff : loopUnder faults source shutdownAt rounds s = some u ↔
    ∃ n < rounds, ∃ r, begun? faults source shutdownAt n s = some r ∧
      r.turn faults source shutdownAt = (true, u) := by
  induction rounds generalizing s with
  | zero => simp [loopUnder]
  | succ rounds ih =>
      have first : begun? faults source shutdownAt 0 s = some s := rfl
      rw [loopUnder_succ, Nat.exists_lt_succ_left, first]
      change (if (s.turn faults source shutdownAt).1 = true then
        some (s.turn faults source shutdownAt).2
        else loopUnder faults source shutdownAt rounds (s.turn faults source shutdownAt).2) = _ ↔ _
      rcases turned : s.turn faults source shutdownAt with ⟨_ | _, v⟩
      · simp [begun?_of_stays turned, turned, ih]
      · simp [begun?_of_ends turned, turned]

/-! ## From round to round -/

/-- A session that goes on is not shut down, and is left as its key leaves it. -/
theorem eq_of_stays (stays : s.turn faults source shutdownAt = (false, u)) :
    shutdownAt.any (· ≤ s.reads + 1) = false ∧
      u = ⟨((s.frameUnder (faults s.reads)).workspace.press (source s.reads).toKey).2,
        (source s.reads).affect (s.frameUnder (faults s.reads)).terminal, s.reads + 1⟩ := by
  unfold turn round at stays
  cases due : shutdownAt.any (· ≤ s.reads + 1) with
  | true =>
      rw [due] at stays
      cases (take_due _ _).symm.trans (congrArg Prod.fst stays)
  | false =>
      rw [due] at stays
      obtain ⟨-, left⟩ := take_stays (congrArg Prod.fst stays)
      rw [stays] at left
      exact ⟨rfl, left⟩

/-- A session goes on with what its key has said, and with nothing else to say. -/
theorem turn_stays (stays : s.turn faults source shutdownAt = (false, u)) :
    u.workspace.editor.status = s.said? faults source shutdownAt ∧
      (s.said? faults source shutdownAt ≠ none → u.workspace.editor.mode = .normal) ∧
      u.terminal = (source s.reads).affect (s.frameUnder (faults s.reads)).terminal := by
  obtain ⟨due, rfl⟩ := eq_of_stays stays
  have quiet : (s.frameUnder (faults s.reads)).workspace.editor.status = none := rfl
  unfold said?
  rw [due, if_neg Bool.false_ne_true]
  refine ⟨?_, fun told => ?_, rfl⟩
  · rw [Workspace.status_press, quiet, Option.or_none]
  · obtain ⟨message, said⟩ := Option.ne_none_iff_exists'.mp told
    exact (Workspace.normal_of_message said).2

/-- A session whose key says something goes on. -/
theorem stays_of_said (said : s.said? faults source shutdownAt = some message) :
    ∃ u, s.turn faults source shutdownAt = (false, u) := by
  unfold said? at said
  unfold turn round
  cases due : shutdownAt.any (· ≤ s.reads + 1) with
  | true =>
      rw [due] at said
      cases said
  | false =>
      rw [due, if_neg Bool.false_ne_true] at said
      have quits := (Workspace.normal_of_message said).1
      have ends := ((s.frameUnder (faults s.reads)).take_key (source s.reads)).1
      exact ⟨_, Prod.ext (ends.trans quits) rfl⟩

/-! ## Whole sessions -/

/-- A session with a new editor on a new terminal. -/
def opened (defaultFile : String) (disk : Disk) (journal : List Event) (width height : Nat) :
    Session :=
  ⟨⟨.new defaultFile, disk, journal⟩, .new width height, 0⟩

/-- No frame of the session fails. -/
def Unfailing (faults : Nat → Option FrameFault) (source : Nat → Input) (shutdownAt : Option Nat)
    (s : Session) : Prop :=
  ∀ n r, begun? faults source shutdownAt n s = some r → r.terminal.Works (faults r.reads)

theorem clear_begun (unfailing : Unfailing faults source shutdownAt s) (clear : s.terminal.Clear)
    (begins : begun? faults source shutdownAt n s = some r) : r.terminal.Clear := by
  induction n generalizing r with
  | zero =>
      cases begins
      exact clear
  | succ n ih =>
      obtain ⟨q, earlier, stays⟩ := begun?_succ_eq_some_iff.mp begins
      obtain ⟨-, -, terminal⟩ := turn_stays stays
      rw [terminal]
      exact clear_affect (frameUnder_of_works (unfailing n q earlier) (ih earlier)).2 _

/-- The terminal begins to fail with the input. -/
def breaks : Input → Bool
  | .breakSize | .breakShow => true
  | _ => false

theorem works_affect {t : Terminal} {input : Input} (works : t.Works none)
    (sound : breaks input = false) : (input.affect t).Works none := by
  cases input with
  | breakSize | breakShow => cases sound
  | mend => exact ⟨rfl, rfl, rfl⟩
  | key | failure | resize => exact ⟨rfl, works.size, works.showing⟩

/-- On a terminal that is sound and stays so, no frame fails. -/
theorem unfailing_of_sound (works : s.terminal.Works none) (sound : ∀ n, breaks (source n) = false) :
    Unfailing (fun _ => none) source shutdownAt s := by
  intro n r begins
  induction n generalizing r with
  | zero =>
      cases begins
      exact works
  | succ n ih =>
      obtain ⟨q, earlier, stays⟩ := begun?_succ_eq_some_iff.mp begins
      obtain ⟨-, -, terminal⟩ := turn_stays stays
      rw [terminal, terminal_frameUnder]
      exact works_affect (Terminal.works_drawUnder (ih q earlier) _) (sound _)

/-- The rounds of a session are those of its loop, which ends with the first round that ends the session.
Every round begins in normal mode if a message is pending. Whatever it tells is what the key of the round
before has said, and if that said nothing, nothing is seen in the style of messages. What the key of the
round says is told in the next round, which there is. -/
theorem message_shown_once {defaultFile : String} {disk : Disk} {journal : List Event}
    {width height : Nat}
    (unfailing : Unfailing faults source shutdownAt (opened defaultFile disk journal width height)) :
    let start := opened defaultFile disk journal width height
    (∀ rounds v, loopUnder faults source shutdownAt rounds start = some v ↔
      ∃ n < rounds, ∃ r, begun? faults source shutdownAt n start = some r ∧
        r.turn faults source shutdownAt = (true, v)) ∧
    ∀ n s, begun? faults source shutdownAt n start = some s →
      (s.workspace.editor.status ≠ none → s.workspace.editor.mode = .normal) ∧
      ((s.seen (faults s.reads)).Quiet ∨ ∃ m r message, n = m + 1 ∧
        begun? faults source shutdownAt m start = some r ∧
        r.said? faults source shutdownAt = some message ∧ s.Tells (faults s.reads) message) ∧
      ∀ message, s.said? faults source shutdownAt = some message →
        ∃ u, begun? faults source shutdownAt (n + 1) start = some u ∧
          u.Tells (faults u.reads) message := by
  intro start
  refine ⟨fun rounds v => loopUnder_eq_some_iff, fun n s begins => ?_⟩
  have clear : start.terminal.Clear := ⟨width, height, rfl⟩
  have quiet {m : Nat} {r : Session} (round : begun? faults source shutdownAt m start = some r)
      (silent : r.workspace.editor.status = none) : (r.seen (faults r.reads)).Quiet :=
    quiet_of_works (unfailing m r round) (clear_begun unfailing clear round) silent
  have tells {m : Nat} {r u : Session} {message : String}
      (round : begun? faults source shutdownAt m start = some r)
      (said : r.said? faults source shutdownAt = some message)
      (stays : r.turn faults source shutdownAt = (false, u)) : u.Tells (faults u.reads) message := by
    have next := begun?_succ_eq_some_iff.mpr ⟨r, round, stays⟩
    obtain ⟨pending, normal, -⟩ := turn_stays stays
    rw [said] at pending normal
    exact tells_of_works (unfailing _ u next) (clear_begun unfailing clear next) pending (normal nofun)
  refine ⟨?_, ?_, ?_⟩
  · cases n with
    | zero =>
        cases begins
        exact fun pending => absurd rfl pending
    | succ n =>
        obtain ⟨r, -, stays⟩ := begun?_succ_eq_some_iff.mp begins
        obtain ⟨pending, normal, -⟩ := turn_stays stays
        rwa [pending]
  · cases n with
    | zero =>
        have silent : s.workspace.editor.status = none := by
          cases begins
          rfl
        exact .inl (quiet begins silent)
    | succ n =>
        obtain ⟨r, earlier, stays⟩ := begun?_succ_eq_some_iff.mp begins
        cases said : r.said? faults source shutdownAt with
        | none =>
            obtain ⟨pending, -⟩ := turn_stays stays
            exact .inl (quiet begins (pending.trans said))
        | some message => exact .inr ⟨n, r, message, rfl, earlier, said, tells earlier said stays⟩
  · intro message said
    obtain ⟨u, stays⟩ := stays_of_said said
    exact ⟨u, begun?_succ_eq_some_iff.mpr ⟨s, begins, stays⟩, tells begins said stays⟩

/-- `g`, `?` and Enter ask for a cell that there is none of. -/
def astray : List Input :=
  [.key (.byte 0x67), .key (.byte 0x3f), .key .enter]

/-- A terminal with room for all of the line. -/
theorem message_shown_once_of_astray :
    let source := scripted astray
    let start := opened "f" .empty [] 40 3
    Unfailing (fun _ => none) source none start ∧
    ∃ s, begun? (fun _ => none) source none 2 start = some s ∧
      s.said? (fun _ => none) source none = some "Bad cell: ?" ∧
      ∃ u, begun? (fun _ => none) source none 3 start = some u ∧ u.Tells none "Bad cell: ?" ∧
        (u.seen none).strip 0 2 40 =
          styled .notice "A1 [] val=0  Bad cell: ?".toList ++ List.replicate 16 .blank := by
  intro source start
  have sound (n : Nat) : breaks (source n) = false := by
    unfold source scripted
    rcases n with _ | _ | _ | n <;> rfl
  have unfailing : Unfailing (fun _ => none) source none start :=
    unfailing_of_sound ⟨rfl, rfl, rfl⟩ sound
  have third : (begun? (fun _ => none) source none 2 start).bind
      (said? (fun _ => none) source none) = some "Bad cell: ?" := by
    decide +kernel
  obtain ⟨s, begins, said⟩ := Option.bind_eq_some_iff.mp third
  obtain ⟨-, rounds⟩ := message_shown_once unfailing
  obtain ⟨u, next, tells⟩ := (rounds 2 s begins).2.2 _ said
  have sizes : (begun? (fun _ => none) source none 3 start).map
      (fun u => (u.terminal.height, (u.seen none).width, (u.seen none).height)) = some (3, 40, 3) := by
    decide +kernel
  have line : (begun? (fun _ => none) source none 3 start).map (fun u => (u.drawn none).statusLine.1) =
      some "A1 [] val=0  Bad cell: ?" := by
    decide +kernel
  rw [next] at sizes line
  have line : (u.drawn none).statusLine.1 = "A1 [] val=0  Bad cell: ?" := Option.some.inj line
  obtain ⟨high, wide, tall⟩ : u.terminal.height = 3 ∧ (u.seen none).width = 40 ∧
      (u.seen none).height = 3 := by
    simpa using sizes
  have ends := tells.screen (by rw [high]; decide)
  rw [line] at ends
  have whole := ends.strip_of_fits (by rw [wide]; decide)
  rw [wide, tall] at whole
  exact ⟨unfailing, s, begins, said, u, next, tells, whole⟩

/-- A terminal that is too narrow for the line shows one letter of the message. -/
theorem message_cut_off :
    let source := scripted astray
    let start := opened "f" .empty [] 14 3
    ((begun? (fun _ => none) source none 2 start).bind (said? (fun _ => none) source none) =
        some "Bad cell: ?") ∧
      (begun? (fun _ => none) source none 3 start).map (fun u => (u.seen none).text.getLast?) =
        some (some "A1 [] val=0  B") := by
  decide +kernel

end Session

end Worksheet
