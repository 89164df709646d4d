import Worksheet.Editor.Commands
import Worksheet.Terminal

/-!
The redraw loop.

Each round fits the editor to the terminal, draws a frame, reads once and lets the editor take the
key. The loop ends when a key asks to quit, or after a read during which a shutdown was asked for;
the key of that read is dropped. After the end of a script every read gives Ctrl-C, which closes an
open prompt or help and then quits, so two reads more than the script holds always suffice.
-/

namespace Worksheet

/-- What one read brings. -/
inductive Input where
  | key (k : Key)
  /-- The read fails. -/
  | failure
  /-- The terminal takes a new size. -/
  | resize (width height : Nat)
  /-- From now on the terminal's size cannot be asked for. -/
  | breakSize
  /-- From now on no frame can be shown. -/
  | breakShow
  /-- The terminal works again. -/
  | mend
deriving DecidableEq, Repr

/-- The key that an input stands for. -/
def Input.toKey : Input → Key
  | .key k => k
  | _ => .null

/-- What an input does to the terminal. -/
def Input.affect (t : Terminal) : Input → Terminal
  | .key _ | .failure => t
  | .resize width height => { t with width := width, height := height }
  | .breakSize => { t with sizeFails := true }
  | .breakShow => { t with showFails := true }
  | .mend => { t with sizeFails := false, showFails := false }

/-- The state of a session: the workspace, its terminal, and how many reads there have been. -/
structure Session where
  workspace : Workspace
  terminal : Terminal
  reads : Nat

namespace Session

/-! ## One round -/

/-- Draws a frame, which may fail at a place. -/
def frameUnder (fault : Option FrameFault) (s : Session) : Session :=
  let e := s.workspace.editor
  let e :=
    match s.terminal.sizeUnder fault with
    | some (width, height) => e.resize width height
    | none => e
  let (terminal, e) := s.terminal.drawUnder fault e.beginPass
  { s with workspace := { s.workspace with editor := e.endFrame }, terminal := terminal }

/-- Takes one input, and tells whether the session ends with it. -/
def take (s : Session) (input : Input) (shutdown : Bool) : Bool × Session :=
  let s := { s with terminal := input.affect s.terminal, reads := s.reads + 1 }
  if shutdown then (true, { s with workspace := s.workspace.note [.shutdownReceived] })
  else
    let (quit, w) := s.workspace.press input.toKey
    if quit then (true, { s with workspace := w.note [.quitRequested] })
    else (false, { s with workspace := w })

/-! ## The loop -/

/-- Runs for at most `rounds` rounds; `none` tells that the session has not ended by then. The read
counted `n` from zero brings `source n`, the frame before it has the fault `faults n`, and a shutdown is
asked for from the read counted `shutdownAt` from one on. -/
def loopUnder (faults : Nat → Option FrameFault) (source : Nat → Input) (shutdownAt : Option Nat) :
    Nat → Session → Option Session
  | 0, _ => none
  | rounds + 1, s =>
    let s := s.frameUnder (faults s.reads)
    let shutdown := shutdownAt.any (· ≤ s.reads + 1)
    let (ended, s) := s.take (source s.reads) shutdown
    if ended then some s else loopUnder faults source shutdownAt rounds s

/-- The inputs of a script, and Ctrl-C after its end. -/
def scripted (script : List Input) (n : Nat) : Input :=
  (script[n]?).getD (.key .controlC)

/-- Runs a script to the end of the session, with faults of single frames. -/
def runUnder? (faults : Nat → Option FrameFault) (script : List Input) (shutdownAt : Option Nat)
    (s : Session) : Option Session :=
  loopUnder faults (scripted script) shutdownAt (script.length + 2) s

/-- Runs a script to the end of the session. -/
def run? (script : List Input) (shutdownAt : Option Nat) (s : Session) : Option Session :=
  runUnder? (fun _ => none) script shutdownAt s

end Session

end Worksheet
