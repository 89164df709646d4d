import Worksheet.Proofs.Session.Lasting

/-!
Every session ends.

The loop counts nothing; it ends since Ctrl-C quits in normal mode and leads there from anywhere else, and
since no frame leaves a mode. So nothing about the terminal matters: `Session.loopAmid` is the loop with
conditions that may be any at each frame, and the loop on a terminal of its own is a case of it
(`Session.loopUnder_eq_loopAmid`). Two reads more than a script holds always suffice, and those after its
end leave all work as it is (`Session.ends_after_script`).
-/

namespace Worksheet

/-! ## Ctrl-C -/

namespace Workspace

/-- The texts, the mark and the file of the sheet, the cursor and the disk are the same. -/
structure SameWork (w u : Workspace) : Prop where
  texts : u.editor.sheet.texts = w.editor.sheet.texts
  modified : u.editor.sheet.modified = w.editor.sheet.modified
  path : u.editor.sheet.path = w.editor.sheet.path
  cursor : u.editor.cursor = w.editor.cursor
  disk : u.disk = w.disk

theorem SameWork.trans {w u v : Workspace} (early : w.SameWork u) (late : u.SameWork v) :
    w.SameWork v :=
  ⟨late.texts.trans early.texts, late.modified.trans early.modified, late.path.trans early.path,
    late.cursor.trans early.cursor, late.disk.trans early.disk⟩

theorem sameWork_of_lasting {w u : Workspace} (same : u.lasting = w.lasting) : w.SameWork u :=
  ⟨congrArg (·.editor.sheet.texts) same, congrArg (·.editor.sheet.modified) same,
    congrArg (·.editor.sheet.path) same, congrArg (·.editor.cursor) same, congrArg (·.disk) same⟩

/-- Ctrl-C quits in normal mode and leads there from a prompt or the help. It leaves all work as it is. -/
theorem press_controlC_cases (w : Workspace) :
    w.SameWork (w.press .controlC).2 ∧
      if w.editor.mode = .normal then (w.press .controlC).1 = true
      else (w.press .controlC).1 = false ∧ (w.press .controlC).2.editor.mode = .normal := by
  unfold press
  cases w.editor.mode with
  | normal => exact ⟨⟨rfl, rfl, rfl, rfl, rfl⟩, rfl⟩
  | prompt kind => exact ⟨⟨rfl, rfl, rfl, rfl, rfl⟩, rfl, rfl⟩
  | help => exact ⟨⟨rfl, rfl, rfl, rfl, rfl⟩, rfl, rfl⟩

end Workspace

/-! ## Frames on any terminal -/

/-- The conditions of a frame: the size that the terminal tells, if it tells one, the terminal that is drawn
on then, and where drawing fails. -/
structure Conditions where
  told : Option (Nat × Nat)
  terminal : Terminal
  fault : Option FrameFault

namespace Session

/-- The conditions that a session's own terminal makes. -/
def standing (faults : Nat → Option FrameFault) (s : Session) : Conditions :=
  ⟨s.terminal.sizeUnder (faults s.reads), s.terminal, faults s.reads⟩

/-- The editor fitted to a size, if one is told. -/
def fittedTo (e : Editor) : Option (Nat × Nat) → Editor
  | some (width, height) => e.resize width height
  | none => e

def frameAmid (given : Conditions) (s : Session) : Session :=
  let e := fittedTo s.workspace.editor given.told
  let (terminal, e) := given.terminal.drawUnder given.fault e.beginPass
  { s with workspace := { s.workspace with editor := e.endFrame }, terminal := terminal }

theorem frameUnder_eq_frameAmid (faults : Nat → Option FrameFault) (s : Session) :
    s.frameUnder (faults s.reads) = s.frameAmid (s.standing faults) := by
  unfold frameUnder frameAmid standing fittedTo
  rfl

/-- No frame leaves the mode or touches any work. -/
theorem keeps_frameAmid (given : Conditions) (s : Session) :
    s.workspace.SameWork (s.frameAmid given).workspace ∧
      (s.frameAmid given).workspace.editor.mode = s.workspace.editor.mode := by
  let e := fittedTo s.workspace.editor given.told
  have drawn : (s.frameAmid given).workspace.lasting = (s.workspace.mapEditor fun _ => e).lasting :=
    congrArg (fun e => Workspace.mk e s.workspace.disk [])
      (given.terminal.lasting_drawUnder given.fault e.beginPass)
  have fitted : s.workspace.SameWork (s.workspace.mapEditor fun _ => e) ∧
      e.mode = s.workspace.editor.mode := by
    change s.workspace.SameWork (s.workspace.mapEditor fun _ =>
      fittedTo s.workspace.editor given.told) ∧ (fittedTo s.workspace.editor given.told).mode = _
    cases given.told with
    | none | some => exact ⟨⟨rfl, rfl, rfl, rfl, rfl⟩, rfl⟩
  exact ⟨fitted.1.trans (Workspace.sameWork_of_lasting drawn),
    (congrArg (·.editor.mode) drawn).trans fitted.2⟩

/-! ## Rounds -/

section Rounds

variable (given : Session → Conditions) (source : Nat → Input) (shutdownAt : Option Nat)

/-- A frame and a read, and whether the session ends with it. -/
def turnAmid (s : Session) : Bool × Session :=
  (s.frameAmid (given s)).take (source s.reads) (shutdownAt.any (· ≤ s.reads + 1))

/-- Runs for at most so many rounds; `none` tells that the session has not ended by then. -/
def loopAmid : Nat → Session → Option Session
  | 0, _ => none
  | rounds + 1, s =>
    let (ended, s) := s.turnAmid given source shutdownAt
    if ended then some s else loopAmid rounds s

/-- On its own terminal a session runs as in the loop. -/
theorem loopUnder_eq_loopAmid (faults : Nat → Option FrameFault) (rounds : Nat) (s : Session) :
    loopUnder faults source shutdownAt rounds s =
      loopAmid (standing faults) source shutdownAt rounds s := by
  induction rounds generalizing s with
  | zero => rfl
  | succ rounds ih =>
      rw [loopUnder, loopAmid, turnAmid, ← frameUnder_eq_frameAmid]
      dsimp only
      rw [ih]
      rfl

theorem reads_turnAmid (s : Session) : (s.turnAmid given source shutdownAt).2.reads = s.reads + 1 := by
  unfold turnAmid take
  dsimp only
  split
  · rfl
  split
  · rfl
  · rfl

variable {given source shutdownAt} {s u : Session}

theorem loopAmid_of_ends (ends : s.turnAmid given source shutdownAt = (true, u)) (rounds : Nat) :
    loopAmid given source shutdownAt (rounds + 1) s = some u := by
  rw [loopAmid, ends]
  rfl

theorem loopAmid_of_stays (stays : s.turnAmid given source shutdownAt = (false, u)) (rounds : Nat) :
    loopAmid given source shutdownAt (rounds + 1) s = loopAmid given source shutdownAt rounds u := by
  rw [loopAmid, stays]
  rfl

/-- A round that reads Ctrl-C keeps all work. It ends the session in normal mode, and otherwise it ends it
or leads to normal mode. -/
theorem turnAmid_controlC (read : source s.reads = .key .controlC) :
    s.workspace.SameWork (s.turnAmid given source shutdownAt).2.workspace ∧
      ((s.turnAmid given source shutdownAt).1 = false → s.workspace.editor.mode ≠ .normal ∧
        (s.turnAmid given source shutdownAt).2.workspace.editor.mode = .normal) := by
  obtain ⟨framed, mode⟩ := s.keeps_frameAmid (given s)
  obtain ⟨pressed, quits⟩ := (s.frameAmid (given s)).workspace.press_controlC_cases
  have work := framed.trans pressed
  rw [mode] at quits
  unfold turnAmid take
  rw [read]
  dsimp only [Input.toKey]
  split
  · exact ⟨framed.trans ⟨rfl, rfl, rfl, rfl, rfl⟩, nofun⟩
  split at quits
  · rw [if_pos quits]
    exact ⟨work.trans ⟨rfl, rfl, rfl, rfl, rfl⟩, nofun⟩
  · next other =>
      rw [if_neg (ne_true_of_eq_false quits.1)]
      exact ⟨work, fun _ => ⟨other, quits.2⟩⟩

variable (given source shutdownAt) in
/-- The session ends after so many reads at most, and would not go on if more rounds were allowed. -/
def EndsWithin (rounds : Nat) (s : Session) : Prop :=
  ∃ last, last.reads ≤ s.reads + rounds ∧
    ∀ more, loopAmid given source shutdownAt (rounds + more) s = some last

end Rounds

section Ends

variable {given : Session → Conditions} {source : Nat → Input} {shutdownAt : Option Nat} {s : Session}

theorem EndsWithin.of_turn {rounds : Nat}
    (later : (s.turnAmid given source shutdownAt).1 = false →
      EndsWithin given source shutdownAt rounds (s.turnAmid given source shutdownAt).2) :
    EndsWithin given source shutdownAt (rounds + 1) s := by
  have read := s.reads_turnAmid given source shutdownAt
  cases ended : (s.turnAmid given source shutdownAt).1 with
  | true =>
      refine ⟨(s.turnAmid given source shutdownAt).2, by omega, fun more => ?_⟩
      rw [Nat.succ_add, loopAmid_of_ends (Prod.ext ended rfl)]
  | false =>
      obtain ⟨last, reads, ends⟩ := later ended
      refine ⟨last, by omega, fun more => ?_⟩
      rw [Nat.succ_add, loopAmid_of_stays (Prod.ext ended rfl), ends]

/-- Ctrl-C ends the session in normal mode. -/
theorem endsWithin_one (first : source s.reads = .key .controlC)
    (normal : s.workspace.editor.mode = .normal) : EndsWithin given source shutdownAt 1 s :=
  .of_turn fun stays => absurd normal ((turnAmid_controlC first).2 stays).1

/-- Two of them end it in any mode. -/
theorem endsWithin_two (first : source s.reads = .key .controlC)
    (second : source (s.reads + 1) = .key .controlC) : EndsWithin given source shutdownAt 2 s := by
  refine .of_turn fun stays => endsWithin_one ?_ ((turnAmid_controlC first).2 stays).2
  rw [reads_turnAmid, second]

end Ends

/-! ## Scripts -/

theorem scripted_of_le {script : List Input} {n : Nat} (past : script.length ≤ n) :
    scripted script n = .key .controlC := by
  rw [scripted, List.getElem?_eq_none past]
  rfl

/-- By the inputs that are left. -/
theorem endsWithin_scripted (given : Session → Conditions) (script : List Input)
    (shutdownAt : Option Nat) {left : Nat} {s : Session} (reads : s.reads + left = script.length) :
    EndsWithin given (scripted script) shutdownAt (left + 2) s := by
  induction left generalizing s with
  | zero => exact endsWithin_two (scripted_of_le (by omega)) (scripted_of_le (by omega))
  | succ left ih =>
      refine .of_turn fun _ => ih ?_
      rw [reads_turnAmid]
      omega

/-- Whatever the terminal does, and whatever state the editor is in, a session with a script ends after at
most two reads more than the script has inputs, and this is how it ends on a terminal of its own. The reads
after the end of the script leave all work as it is. -/
theorem ends_after_script (given : Session → Conditions) (script : List Input)
    (shutdownAt : Option Nat) (w : Workspace) (t : Terminal) :
    (∃ last, last.reads ≤ script.length + 2 ∧
      (∀ more, loopAmid given (scripted script) shutdownAt (script.length + 2 + more) ⟨w, t, 0⟩ =
        some last) ∧
      ∀ faults, given = standing faults →
        runUnder? faults script shutdownAt ⟨w, t, 0⟩ = some last) ∧
      ∀ s : Session, script.length ≤ s.reads →
        s.workspace.SameWork (s.turnAmid given (scripted script) shutdownAt).2.workspace := by
  constructor
  · obtain ⟨last, reads, ends⟩ :=
      endsWithin_scripted given script shutdownAt (s := ⟨w, t, 0⟩) (Nat.zero_add _)
    refine ⟨last, by rwa [Nat.zero_add] at reads, ends, ?_⟩
    rintro faults rfl
    rw [runUnder?, loopUnder_eq_loopAmid]
    exact ends 0
  · exact fun s past => (turnAmid_controlC (scripted_of_le past)).1

/-- A prompt is opened and the terminal breaks. It has told a size before, and what it can draw on changes
from frame to frame. -/
def breaking (s : Session) : Conditions :=
  if s.reads = 0 then ⟨some (80, 24), .new 14 3, some .start⟩ else ⟨none, .new s.reads 1, some .size⟩

/-- Both Ctrl-C are needed: the first one closes the prompt. -/
theorem ends_after_script_of_breaking :
    let script : List Input := [.key (.byte 0x73), .breakShow]
    let start : Session := ⟨⟨.new "f", .empty, []⟩, .new 80 24, 0⟩
    loopAmid breaking (scripted script) none 3 start = none ∧
      (∃ last, last.reads ≤ 4 ∧ loopAmid breaking (scripted script) none 4 start = some last) ∧
      script.length ≤ 2 ∧
      start.workspace.SameWork
        (({ start with reads := 2 } : Session).turnAmid breaking (scripted script) none).2.workspace := by
  intro script start
  obtain ⟨⟨last, reads, ends, -⟩, keeps⟩ :=
    ends_after_script breaking script none start.workspace start.terminal
  have past : script.length ≤ 2 := Nat.le_refl 2
  exact ⟨rfl, ⟨last, reads, ends 0⟩, past, keeps { start with reads := 2 } past⟩

end Session

end Worksheet
