import Worksheet.Disk
import Worksheet.Toml

/-!
The user's settings.

Three settings may be given, each at most once: the file suggested for saving and loading, the log
file, and what is logged. Without a settings file the defaults apply.
-/

namespace Worksheet

/-- The settings. -/
structure Settings where
  defaultFile : String
  logFile : Option String
  logLevel : String
deriving DecidableEq, Repr

namespace Settings

/-- The settings of a user who gave none. -/
def default : Settings := ⟨"sheet.txt", none, "info"⟩

/-- Takes a key with its string; an unknown key is refused. -/
def set (s : Settings) : Toml.Pair → Option Settings
  | ("default_file", text) => some { s with defaultFile := text }
  | ("log_file", text) => some { s with logFile := some text }
  | ("log_level", text) => some { s with logLevel := text }
  | _ => none

/-- Reads settings; a key given twice is refused. -/
def parse (content : String) : Option Settings := do
  let pairs ← Toml.parse content
  if (pairs.map Prod.fst).eraseDups.length = pairs.length then
    pairs.foldlM Settings.set Settings.default
  else none

/-- Reads the settings file, given what stands at its path. Where nothing does the defaults apply,
and a directory or bytes that are not UTF-8 are no settings. -/
def ofEntry : Option DiskEntry → Option Settings
  | none => some Settings.default
  | some .directory => none
  | some (.file bytes) => (Text.decode? bytes).bind parse

end Settings

end Worksheet
