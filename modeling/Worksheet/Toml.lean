import Worksheet.Toml.Quoted

/-!
Settings files: keys with strings.

A file has blank lines, comments, and lines with a key, an equals sign and a string. Anything else
makes the whole file unreadable.
-/

namespace Worksheet.Toml

/-- Blanks inside a line. -/
def isBlank (c : Char) : Bool :=
  c = ' ' || c = '\t'

/-- A character of a key without quotes. -/
def isBareKeyChar (c : Char) : Bool :=
  c.isAlphanum || c = '_' || c = '-'

/-- Reads a key: a bare one, or a string of one line. -/
def readKey (cs : List Char) : Option (List Char × List Char) :=
  match cs with
  | '"' :: cs => Quoting.read ⟨'"', false, true⟩ .text cs
  | '\'' :: cs => Quoting.read ⟨'\'', false, false⟩ .text cs
  | cs =>
    let key := cs.takeWhile isBareKeyChar
    if key.isEmpty then none else some (key, cs.dropWhile isBareKeyChar)

/-- Drops blanks and a comment. -/
def dropComment (cs : List Char) : List Char :=
  match cs.dropWhile isBlank with
  | '#' :: cs => cs.dropWhile isPlain
  | cs => cs

/-- Reads the end of a line, or the end of the file. -/
def readLineEnd : List Char → Option (List Char)
  | [] => some []
  | '\n' :: cs => some cs
  | '\r' :: '\n' :: cs => some cs
  | _ => none

/-- A key and its string. -/
abbrev Pair := String × String

/-- Reads one line, which may hold a pair, and what follows it. -/
def readLine (cs : List Char) : Option (Option Pair × List Char) :=
  match readLineEnd (dropComment cs) with
  | some rest => some (none, rest)
  | none => do
    let (key, cs) ← readKey (cs.dropWhile isBlank)
    match cs.dropWhile isBlank with
    | '=' :: cs =>
      let (text, cs) ← readString (cs.dropWhile isBlank)
      let rest ← readLineEnd (dropComment cs)
      return (some (String.ofList key, String.ofList text), rest)
    | _ => none

/-- Reads all lines. Every line takes at least one character. -/
def readLines (cs : List Char) : Option (List Pair) :=
  if cs.isEmpty then some []
  else
    match readLine cs with
    | none => none
    | some (pair, rest) =>
      if rest.length < cs.length then (readLines rest).map (pair.toList ++ ·) else none
termination_by cs.length

/-- Reads a file, which may start with a byte order mark. -/
def parse (s : String) : Option (List Pair) :=
  match s.toList with
  | '\ufeff' :: cs => readLines cs
  | cs => readLines cs

end Worksheet.Toml
