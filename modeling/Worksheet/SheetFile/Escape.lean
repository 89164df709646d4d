import Worksheet.Text.Utf8

/-!
Escapes in a sheet file.

A backslash, a line feed and a tab are written as a backslash with `\`, `n` or `t`, so a written text
has neither line feeds nor tabs. Reading undoes these three on bytes and leaves every other backslash
alone.
-/

namespace Worksheet.SheetFile

/-! ## Writing -/

/-- How a character is written. -/
def escapeChar (c : Char) : List Char :=
  if c = '\\' then ['\\', '\\']
  else if c = '\n' then ['\\', 'n']
  else if c = '\t' then ['\\', 't']
  else [c]

/-- How a text is written. -/
def escape (cs : List Char) : List Char :=
  cs.flatMap escapeChar

/-! ## Reading -/

/-- The byte of the backslash. -/
def backslash : UInt8 := 0x5c

/-- The byte that a backslash and `b` stand for. -/
def escaped? (b : UInt8) : Option UInt8 :=
  if b = 0x6e then some 0x0a
  else if b = 0x74 then some 0x09
  else if b = backslash then some backslash
  else none

/-- Undoes the escapes. A backslash that begins none is kept, and the byte after it is read as
usual. -/
def unescape : Text.Bytes → Text.Bytes
  | [] => []
  | b :: bs =>
    if b = backslash then
      match bs with
      | [] => [b]
      | c :: rest =>
        match escaped? c with
        | some x => x :: unescape rest
        | none => b :: unescape (c :: rest)
    else b :: unescape bs

end Worksheet.SheetFile
