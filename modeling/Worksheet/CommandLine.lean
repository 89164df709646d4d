/-!
The command line.

The program takes no arguments but the request for help; the first argument decides.
-/

namespace Worksheet

/-- What the command line asks for. -/
inductive CommandLine where
  | start
  | help
  | unexpected (argument : String)
deriving DecidableEq, Repr

namespace CommandLine

/-- Reads the arguments. -/
def ofArguments : List String → CommandLine
  | [] => .start
  | "-h" :: _ | "--help" :: _ => .help
  | argument :: _ => .unexpected argument

/-- How the program is called. -/
def usage : List String :=
  ["Usage: tinysheet [OPTIONS]",
   "",
   "A 26 x 100 spreadsheet with arithmetic formulas (=A1+B2*3).",
   "Press ? inside the sheet for key bindings.",
   "",
   "Options:",
   "  -h, --help                Print help"]

/-- The lines written to standard error instead of starting. -/
def complaint : CommandLine → List String
  | .start => []
  | .help => usage
  | .unexpected argument => ("Error: Unexpected argument: " ++ argument) :: usage

/-- The exit code when the program does not start. -/
def exitCode : CommandLine → Nat
  | .start | .help => 0
  | .unexpected _ => 1

end CommandLine

end Worksheet
