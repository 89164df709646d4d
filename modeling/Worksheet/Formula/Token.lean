import Worksheet.Address
import Worksheet.Numeral

/-!
The tokens of a formula.

A formula is read as operators, brackets, numbers and labels; blanks between them carry no meaning.
A label is one letter with the digits that follow it, a number the longest numeral. What is none of
these is a stray character, which no formula may hold.
-/

namespace Worksheet

/-- The four operations of arithmetic. -/
inductive Operator where
  | add
  | subtract
  | multiply
  | divide
deriving DecidableEq, Repr

/-- A sum joins products; the other two operators join factors. -/
def Operator.isAdditive : Operator → Bool
  | .add | .subtract => true
  | .multiply | .divide => false

/-- The parts a formula is written with. A label names a cell, or none if its row is outside the
grid. -/
inductive Token where
  | operator (op : Operator)
  | opening
  | closing
  | number (value : Float)
  | label (a : Option Address)
  | stray

namespace Token

/-- The tokens of a single character. -/
def ofSymbol? : Char → Option Token
  | '+' => some (.operator .add)
  | '-' => some (.operator .subtract)
  | '*' => some (.operator .multiply)
  | '/' => some (.operator .divide)
  | '(' => some .opening
  | ')' => some .closing
  | _ => none

/-- Splits a formula into tokens. -/
def ofChars : List Char → List Token
  | [] => []
  | c :: cs =>
    if Text.isBlank c then ofChars cs
    else
      match ofSymbol? c with
      | some token => token :: ofChars cs
      | none =>
        if c.isAlpha then
          if cs.takeWhile Char.isDigit = [] then .stray :: ofChars cs
          else
            .label (Address.ofParts? c (cs.takeWhile Char.isDigit)) ::
              ofChars (cs.dropWhile Char.isDigit)
        else
          match _scanned : Numeral.scan (c :: cs) with
          | some (n, rest) => .number n.value :: ofChars rest
          | none => .stray :: ofChars cs
termination_by cs => cs.length
decreasing_by
  · exact Nat.lt_succ_self _
  · exact Nat.lt_succ_self _
  · exact Nat.lt_succ_self _
  · exact Nat.lt_succ_of_le (Numeral.length_dropWhile_le _ _)
  · exact Numeral.length_lt_of_scan _scanned
  · exact Nat.lt_succ_self _

end Token

end Worksheet
