/-!
Classes of characters, and trimming by a class.

`Text.isBlank` is what formulas and numbers may be padded with, `Text.isWhiteSpace` the Unicode
white space that prompts trim, and `Text.isControl` the control codes that a screen shows as blanks.
-/

namespace Worksheet.Text

/-! ## Classes -/

/-- Space, tab, line feed, carriage return, vertical tab and form feed are blank. -/
def isBlank (c : Char) : Bool :=
  c = ' ' || c = '\t' || c = '\n' || c = '\r' || c = '\x0b' || c = '\x0c'

/-- The code points with the Unicode property `White_Space`, as inclusive ranges in increasing
order. -/
def whiteSpaceRanges : List (Nat × Nat) :=
  [(0x09, 0x0d), (0x20, 0x20), (0x85, 0x85), (0xa0, 0xa0), (0x1680, 0x1680), (0x2000, 0x200a),
   (0x2028, 0x2029), (0x202f, 0x202f), (0x205f, 0x205f), (0x3000, 0x3000)]

/-- A character is white space if one of the ranges holds it. -/
def isWhiteSpace (c : Char) : Bool :=
  whiteSpaceRanges.any fun r => r.1 ≤ c.toNat && c.toNat ≤ r.2

/-- The control codes are the two blocks below U+0020 and from U+007F to U+009F. -/
def isControl (c : Char) : Bool :=
  c.toNat < 0x20 || (0x7f ≤ c.toNat && c.toNat ≤ 0x9f)

/-- A character a prompt accepts: printable ASCII, from the space to the tilde. -/
def isPrintableAscii (c : Char) : Bool :=
  0x20 ≤ c.toNat && c.toNat ≤ 0x7e

/-- A control code is shown as a blank and any other character as itself. -/
def shown (c : Char) : Char :=
  if isControl c then ' ' else c

/-! ## Trimming -/

/-- Drops the characters of a class from both ends. -/
def trimBy (p : Char → Bool) (cs : List Char) : List Char :=
  ((cs.dropWhile p).reverse.dropWhile p).reverse

/-- Drops Unicode white space from both ends. -/
def trim (s : String) : String :=
  String.ofList (trimBy isWhiteSpace s.toList)

/-- A text is blank if it holds white space only. -/
def isAllWhiteSpace (s : String) : Bool :=
  s.toList.all isWhiteSpace

end Worksheet.Text
