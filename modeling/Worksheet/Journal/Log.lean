import Worksheet.Journal.Filter
import Worksheet.Settings
import Worksheet.Text.Quote

/-!
The log file.

Logging is off unless the settings name a file. The file is opened, and made if need be, before the
filter is read; lines are added at its end.
-/

namespace Worksheet

/-- A file that events are written to. -/
structure Log where
  place : Place
  filter : Filter

/-- Why there is no log. -/
inductive LogError where
  | cannotOpen (path : String) (cause : DiskError)
  | badLevel (level : String)
deriving DecidableEq, Repr

namespace LogError

/-- What went wrong. -/
def message : LogError → String
  | .cannotOpen path _ => "cannot open log file " ++ path
  | .badLevel level => "invalid log_level " ++ Text.quote level

/-- Why it went wrong. -/
def cause : LogError → String
  | .cannotOpen _ cause => cause.message
  | .badLevel _ => "invalid filter directive"

end LogError

namespace Log

/-- Opens the log that the settings ask for, if they do. -/
def start (settings : Settings) (d : Disk) : Except LogError (Option Log) × Disk :=
  match settings.logFile with
  | none => (.ok none, d)
  | some path =>
    match d.target path with
    | .error e => (.error (.cannotOpen path e), d)
    | .ok place =>
      let d := d.insert place (.file (d.contentAt place))
      match Filter.parse settings.logLevel with
      | none => (.error (.badLevel settings.logLevel), d)
      | some filter => (.ok (some ⟨place, filter⟩), d)

/-- The lines of the events that pass. -/
def lines (log : Log) (time : String) (events : List Event) : String :=
  String.join ((events.filter log.filter.passes).map fun e => e.line time ++ "\n")

/-- Adds the lines of events to the log file. -/
def append (log : Log) (time : String) (events : List Event) (d : Disk) : Disk :=
  d.insert log.place (.file (d.contentAt log.place ++ Text.encode (log.lines time events)))

end Log

end Worksheet
