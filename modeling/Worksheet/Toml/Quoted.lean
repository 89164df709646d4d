/-!
Quoted strings in a settings file.

Strings stand between quotation marks, with escapes, or between apostrophes, without. Three marks
open a string that may hold line ends: the first one after the opening marks does not count, a
carriage return before a line feed is dropped, and a backslash at the end of a line joins it with the
next text. Up to two marks may stand right before the three closing ones.
-/

namespace Worksheet.Toml

/-- The kind of a string. -/
structure Quoting where
  mark : Char
  multiline : Bool
  escapes : Bool
deriving DecidableEq, Repr

/-- Where reading stands inside a string. -/
inductive QuotedState where
  | text
  /-- After marks that may be text or close the string. -/
  | marks (count : Nat)
  /-- After a carriage return. -/
  | carriage
  /-- After a backslash. -/
  | escape
  /-- Inside the digits of a code point. -/
  | code (left value : Nat)
  /-- After a backslash and blanks. -/
  | lineEnd
  /-- After a carriage return that ends a joined line. -/
  | joinedCarriage
  /-- Between a joined line and the next text. -/
  | joined
deriving DecidableEq, Repr

/-- A character that may stand in a string: a tab or any other than the control codes of ASCII. -/
def isPlain (c : Char) : Bool :=
  c = '\t' || (0x20 ≤ c.toNat && c.toNat ≠ 0x7f)

/-- The character of a short escape. -/
def shortEscape? : Char → Option Char
  | 'b' => some '\x08'
  | 't' => some '\t'
  | 'n' => some '\n'
  | 'f' => some '\x0c'
  | 'r' => some '\r'
  | '"' => some '"'
  | '\\' => some '\\'
  | _ => none

/-- The value of a hexadecimal digit. -/
def hexDigit? (c : Char) : Option Nat :=
  if '0' ≤ c ∧ c ≤ '9' then some (c.toNat - 0x30)
  else if 'a' ≤ c ∧ c ≤ 'f' then some (c.toNat - 0x57)
  else if 'A' ≤ c ∧ c ≤ 'F' then some (c.toNat - 0x37)
  else none

/-- The character of a code point, if it has one. -/
def scalar? (n : Nat) : Option Char :=
  if n.isValidChar then some (Char.ofNat n) else none

namespace Quoting

/-- Takes a character of the text: what it adds, and where reading stands after it. -/
def takeText (q : Quoting) (c : Char) : Option (List Char × QuotedState) :=
  if c = q.mark then some ([], .marks 1)
  else if q.escapes ∧ c = '\\' then some ([], .escape)
  else if q.multiline ∧ c = '\n' then some (['\n'], .text)
  else if q.multiline ∧ c = '\r' then some ([], .carriage)
  else if isPlain c then some ([c], .text)
  else none

/-- Takes the character after a backslash. -/
def takeEscape (q : Quoting) (c : Char) : Option (List Char × QuotedState) :=
  match shortEscape? c with
  | some x => some ([x], .text)
  | none =>
    if c = 'u' then some ([], .code 4 0)
    else if c = 'U' then some ([], .code 8 0)
    else if q.multiline ∧ (c = ' ' ∨ c = '\t') then some ([], .lineEnd)
    else if q.multiline ∧ c = '\n' then some ([], .joined)
    else if q.multiline ∧ c = '\r' then some ([], .joinedCarriage)
    else none

/-- Takes one character inside the string. -/
def take (q : Quoting) (state : QuotedState) (c : Char) : Option (List Char × QuotedState) :=
  match state with
  | .text => q.takeText c
  | .marks count =>
    if c = q.mark then some ([], .marks (count + 1))
    else (q.takeText c).map fun r => (List.replicate count q.mark ++ r.1, r.2)
  | .carriage => if c = '\n' then some (['\n'], .text) else none
  | .escape => q.takeEscape c
  | .code left value => do
    let value := value * 16 + (← hexDigit? c)
    if left ≤ 1 then return ([← scalar? value], .text) else return ([], .code (left - 1) value)
  | .lineEnd =>
    if c = ' ' ∨ c = '\t' then some ([], .lineEnd)
    else if c = '\n' then some ([], .joined)
    else if c = '\r' then some ([], .joinedCarriage)
    else none
  | .joinedCarriage => if c = '\n' then some ([], .joined) else none
  | .joined =>
    if c = ' ' ∨ c = '\t' ∨ c = '\n' then some ([], .joined)
    else if c = '\r' then some ([], .joinedCarriage)
    else q.takeText c

/-- How many marks close the string. -/
def closingMarks (q : Quoting) : Nat :=
  if q.multiline then 3 else 1

/-- The most marks that can stand at the end of the string, the closing ones included. -/
def mostMarks (q : Quoting) : Nat :=
  if q.multiline then 5 else 1

/-- Reads up to the closing marks: the text, and what follows them. -/
def read (q : Quoting) (state : QuotedState) : List Char → Option (List Char × List Char)
  | [] =>
    match state with
    | .marks count =>
      if q.closingMarks ≤ count then
        some (List.replicate (count - q.closingMarks) q.mark, [])
      else none
    | _ => none
  | c :: cs =>
    let closed : Option Nat :=
      match state with
      | .marks count =>
        if q.closingMarks ≤ count ∧ (c ≠ q.mark ∨ q.mostMarks ≤ count) then
          some (count - q.closingMarks)
        else none
      | _ => none
    match closed with
    | some marks => some (List.replicate marks q.mark, c :: cs)
    | none => do
      let (added, state) ← q.take state c
      let (text, rest) ← read q state cs
      return (added ++ text, rest)

end Quoting

/-- Drops the line end right after opening marks. -/
def dropLineEnd : List Char → List Char
  | '\n' :: cs => cs
  | '\r' :: '\n' :: cs => cs
  | cs => cs

/-- Reads a string of any kind: its text, and what follows it. -/
def readString : List Char → Option (List Char × List Char)
  | '"' :: '"' :: '"' :: cs => Quoting.read ⟨'"', true, true⟩ .text (dropLineEnd cs)
  | '\'' :: '\'' :: '\'' :: cs => Quoting.read ⟨'\'', true, false⟩ .text (dropLineEnd cs)
  | '"' :: cs => Quoting.read ⟨'"', false, true⟩ .text cs
  | '\'' :: cs => Quoting.read ⟨'\'', false, false⟩ .text cs
  | _ => none

end Worksheet.Toml
