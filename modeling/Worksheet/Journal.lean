import Worksheet.Disk
import Worksheet.Prompt

/-!
What the program notes down about its work.

Each event has a level, the part of the program it comes from and a text. The journal keeps the
events that its threshold lets through.
-/

namespace Worksheet

/-! ## Levels -/

/-- How important an event is. -/
inductive Level where
  | error
  | warn
  | info
  | debug
  | trace
deriving DecidableEq, Repr

namespace Level

/-- The name at the start of a line. -/
def name : Level → String
  | .error => "ERROR"
  | .warn => "WARN"
  | .info => "INFO"
  | .debug => "DEBUG"
  | .trace => "TRACE"

/-- More important levels come first. -/
def rank : Level → Nat
  | .error => 1
  | .warn => 2
  | .info => 3
  | .debug => 4
  | .trace => 5

end Level

/-! ## Events -/

/-- Something worth noting down. -/
inductive Event where
  | starting (defaultFile : String)
  | sessionStarted
  | promptCommitted (kind : PromptKind) (input : String)
  | skippedOutside (row column : Nat)
  | saved (path : String) (count : Nat)
  | saveFailed (path error : String)
  | loaded (path : String) (count : Nat)
  | loadFailed (path error : String)
  | sheetReplaced (path : String) (count : Nat)
  | shutdownReceived
  | quitRequested
  | sessionEnded
  | exiting
deriving DecidableEq, Repr

namespace Event

/-- The level of an event. -/
def level : Event → Level
  | .promptCommitted .. | .skippedOutside .. | .quitRequested => .debug
  | .saveFailed .. | .loadFailed .. => .warn
  | _ => .info

/-- The part of the program an event comes from. -/
def target : Event → String
  | .starting _ | .exiting => "tinysheet"
  | .sessionStarted | .sessionEnded => "tinysheet::tui"
  | .promptCommitted .. | .sheetReplaced .. => "tinysheet::tui::app"
  | .skippedOutside .. => "tinysheet_core::storage::parser"
  | .saved .. | .saveFailed .. | .loaded .. | .loadFailed .. => "tinysheet_core::sheet::io"
  | .shutdownReceived | .quitRequested => "tinysheet::tui::input"

/-- The text of an event. -/
def text : Event → String
  | .starting file => "starting default_file=" ++ file
  | .sessionStarted => "terminal session started"
  | .promptCommitted kind input => "prompt committed kind=" ++ kind.name ++ " input=" ++ input
  | .skippedOutside row column =>
    "skipping record outside the grid row=" ++ toString row ++ " col=" ++ toString column
  | .saved path count => "saved sheet path=" ++ path ++ " count=" ++ toString count
  | .saveFailed path error => "save failed path=" ++ path ++ " error=" ++ error
  | .loaded path count => "loaded sheet path=" ++ path ++ " count=" ++ toString count
  | .loadFailed path error => "load failed path=" ++ path ++ " error=" ++ error
  | .sheetReplaced path count =>
    "sheet loaded from prompt path=" ++ path ++ " count=" ++ toString count
  | .shutdownReceived => "shutdown signal received"
  | .quitRequested => "quit requested"
  | .sessionEnded => "terminal session ended"
  | .exiting => "exiting"

/-- The line of an event in the log: the time, the level, the target and the text. -/
def line (time : String) (e : Event) : String :=
  time ++ " " ++ String.ofList (e.level.name.toList.leftpad 5 ' ') ++ " " ++ e.target ++ ": " ++ e.text

end Event

end Worksheet
