import Std.Time
import Worksheet.CommandLine
import Worksheet.Key.Bytes
import Worksheet.Program

/-!
The command line program.

Keys are read from standard input as a terminal sends them, and the last frame is printed. The
session works on a `Disk`, which before each key shows what stands at the path of the prompt; a file
is written as soon as a key has saved it, and the log at the end.
-/

namespace Worksheet.Main

/-! ## Reading -/

/-- Reads standard input to its end. -/
partial def readInput (input : IO.FS.Stream) (before : Text.Bytes) : IO Text.Bytes := do
  let bytes ← input.read 4096
  if bytes.isEmpty then return before else readInput input (before ++ bytes.data.toList)

/-- The content of a file, if it can be read. -/
def readFile? (path : String) : IO (Option Text.Bytes) := do
  try
    let bytes ← IO.FS.readBinFile path
    return some bytes.data.toList
  catch _ => return none

/-- Whether a path leads to a directory. -/
def isDirectory (path : String) : IO Bool := do
  try
    let _ ← IO.FS.realPath (path ++ "/.")
    return true
  catch _ => return false

/-- The disk as far as a path shows it: what leads there, and what stands at its end. -/
def lookAt (path : String) : IO Disk := do
  let names := Disk.names path
  let mut disk := Disk.empty
  for n in List.range names.length do
    let part := "/".intercalate (names.take (n + 1))
    if ← isDirectory part then
      disk := disk.makeDirectories part
    else if let some content ← readFile? part then
      disk := (disk.write part content).toOption.getD disk
  return disk

/-- The directory of the user's settings. -/
def settingsDirectory : IO (Option String) := do
  match ← IO.getEnv "XDG_CONFIG_HOME" with
  | some directory => return some directory
  | none => return (← IO.getEnv "HOME").map (· ++ "/.config")

/-- What stands at the path of the settings file. -/
def settingsEntry : IO (Option DiskEntry) := do
  match ← settingsDirectory with
  | some directory =>
    let path := directory ++ "/tinysheet/config.toml"
    if ← isDirectory path then return some .directory
    else return (← readFile? path).map .file
  | none => return none

/-! ## Writing -/

/-- Replaces a file through a sibling of it. -/
def replaceFile (path content : String) : IO Unit := do
  let sibling := path ++ ".tmp"
  IO.FS.writeFile sibling content
  IO.FS.rename sibling path

/-- The time for the lines of the log. -/
def now : IO String := do
  let time := Std.Time.DateTime.ofTimestamp (← Std.Time.Timestamp.now) Std.Time.TimeZone.ZoneRules.UTC
  return time.format "uuuu-MM-dd'T'HH:mm:ss.SSSSSS'Z'"

/-- Opens the log that the settings ask for; one that cannot be used gives a warning. -/
def openLog (settings : Settings) : IO (Option Log) := do
  match settings.logFile with
  | none => return none
  | some path =>
    match (Log.start settings (← lookAt path)).1 with
    | .ok log => return log
    | .error e =>
      IO.eprintln (Program.logWarning e)
      return none

/-- Adds the lines of events to the log file. -/
def writeLog (settings : Settings) (log : Option Log) (events : List Event) : IO Unit := do
  match settings.logFile, log with
  | some path, some log =>
    let file ← IO.FS.Handle.mk path .append
    file.putStr (log.lines (← now) events)
  | _, _ => return ()

/-! ## Running -/

/-- Takes keys one by one, reading and writing files on the way. The session is shut down after the
last key. -/
def takeKeys : List Key → Session → IO Session
  | [], s => return ((s.frameUnder none).take (.key .null) true).2
  | k :: keys, s => do
    let s := s.frameUnder none
    let w := s.workspace
    let path := (Workspace.promptedPath? w.editor.prompt w.editor.promptDefault).getD ""
    let w := { w with disk := ← lookAt path }
    let (ended, s) := { s with workspace := w }.take (.key k) false
    match s.workspace.journal.drop w.journal.length with
    | [_, .saved path _] => replaceFile path s.workspace.editor.sheet.content
    | _ => pure ()
    if ended then return s else takeKeys keys s

/-- Runs the program on standard input. -/
def start : IO Unit := do
  let (settings, warnings) := Program.loadSettings (← settingsEntry)
  for warning in warnings do IO.eprintln warning
  let log ← openLog settings
  let keys := (TerminalEvent.ofStream (← readInput (← IO.getStdin) [])).map Key.ofEvent
  let w : Workspace :=
    ⟨.new settings.defaultFile, .empty, [.starting settings.defaultFile, .sessionStarted]⟩
  let s ← takeKeys keys ⟨w, .new 80 24, 0⟩
  writeLog settings log (s.workspace.note [.sessionEnded, .exiting]).journal
  for line in s.terminal.screen.text do IO.println line

end Worksheet.Main

/-- Runs the program, or says why it does not start. -/
def main (arguments : List String) : IO UInt32 := do
  let request := Worksheet.CommandLine.ofArguments arguments
  match request with
  | .start => Worksheet.Main.start
  | _ => for line in request.complaint do IO.eprintln line
  return request.exitCode.toUInt32
