import Worksheet.Journal.Log
import Worksheet.Session

/-!
The whole program, from its settings to its exit code.

Problems with the settings or the log are warnings; without a terminal there is no session and the
program fails. A session runs until a key quits it, or until it is shut down after the last key.
-/

namespace Worksheet

/-- What the program finds when it starts. -/
structure Surroundings where
  /-- What stands at the path of the settings file. -/
  settings : Option DiskEntry
  disk : Disk
  /-- The size of the terminal, if there is one. -/
  terminal : Option (Nat × Nat)

/-- What the program leaves behind. -/
structure Result where
  exitCode : Nat
  /-- The lines on standard error. -/
  complaints : List String
  disk : Disk
  /-- The end of the session, if there was one. -/
  session : Option Session

namespace Program

/-- Loads the settings, with a warning for a file that cannot be used. -/
def loadSettings (entry : Option DiskEntry) : Settings × List String :=
  match Settings.ofEntry entry with
  | some settings => (settings, [])
  | none => (.default, ["Warning: invalid config file; using defaults"])

/-- The warning about a log that cannot be used. -/
def logWarning (e : LogError) : String :=
  "Warning: " ++ e.message ++ ": " ++ e.cause

/-- The lines about a terminal that cannot be taken. -/
def noTerminal : List String :=
  let cause := "No such device or address (os error 6)"
  ["Error: terminal session failed",
   "",
   "Caused by:",
   "    0: terminal error: " ++ cause,
   "    1: " ++ cause]

/-- Runs a session over keys, and shuts it down at the read after the last key. -/
def runSession (keys : List Key) (width height : Nat) (w : Workspace) : Option Session :=
  Session.run? (keys.map .key) (some (keys.length + 1)) ⟨w, .new width height, 0⟩

/-- Runs the program over keys; `time` is written in front of the lines of the log. -/
def run (s : Surroundings) (keys : List Key) (time : String) : Result :=
  let (settings, settingsWarnings) := loadSettings s.settings
  let (log, disk) := Log.start settings s.disk
  let (log, logWarnings) :=
    match log with
    | .ok log => (log, [])
    | .error e => (none, [logWarning e])
  let warnings := settingsWarnings ++ logWarnings
  let finish (disk : Disk) (events : List Event) : Disk :=
    match log with
    | some log => log.append time events disk
    | none => disk
  let w : Workspace := ⟨.new settings.defaultFile, disk, [.starting settings.defaultFile]⟩
  let session :=
    match s.terminal with
    | some (width, height) => runSession keys width height (w.note [.sessionStarted])
    | none => none
  match session with
  | none => ⟨1, warnings ++ noTerminal, finish w.disk w.journal, none⟩
  | some session =>
    let w := session.workspace.note [.sessionEnded, .exiting]
    ⟨0, warnings, finish w.disk w.journal, some session⟩

end Program

end Worksheet
