import Worksheet.Key
import Worksheet.Text.Utf8

/-!
The bytes that a terminal sends for a key.

A character is sent as UTF-8 and a control code as its byte. Other keys are sent as the escape code
followed by a bracket and a sequence of their own, and Alt puts the escape code in front of what the
key sends by itself.
-/

namespace Worksheet.TerminalEvent

/-- A key without Control. -/
def plain (code : KeyCode) : TerminalEvent :=
  .key code false false

/-- A letter with Control. -/
def withControl (c : Char) : TerminalEvent :=
  .key (.character c) true false

/-- The key of a single byte below U+0080. -/
def ofByte (b : UInt8) : TerminalEvent :=
  let n := b.toNat
  if n = 0x08 then withControl 'h'
  else if n = 0x09 then plain .tab
  else if n = 0x0d then plain .enter
  else if n = 0x1b then plain .escape
  else if n = 0x7f then plain .backspace
  else if n = 0 then withControl ' '
  else if n < 0x1b then withControl (Char.ofNat (n + 0x60))
  else if n < 0x20 then withControl (Char.ofNat (n + 0x18))
  else plain (.character (Char.ofNat n))

/-- The key of a sequence that stands behind the escape code and a bracket. -/
def ofSequence (cs : List Char) : TerminalEvent :=
  plain <|
    match cs with
    | ['A'] => .up
    | ['B'] => .down
    | ['C'] => .right
    | ['D'] => .left
    | ['H'] => .home
    | ['F'] => .end
    | ['Z'] => .backTab
    | ['3', '~'] => .delete
    | ['5', '~'] => .pageUp
    | ['6', '~'] => .pageDown
    | _ => .other

/-- The event of the bytes that one key sends. -/
def ofBytes : Text.Bytes → TerminalEvent
  | [] => .other
  | [b] => ofByte b
  | b :: c :: bs =>
    if b = 0x1b then
      if c = 0x5b ∧ bs ≠ [] then ofSequence (Text.decode bs) else ofBytes (c :: bs)
    else
      match Text.decode (b :: c :: bs) with
      | [x] => plain (.character x)
      | _ => .other

/-! ## A stream of keys -/

/-- The rest of a sequence, up to its last byte, which is the first from `@` on. -/
def splitSequence : Text.Bytes → Text.Bytes × Text.Bytes
  | [] => ([], [])
  | b :: bs =>
    if 0x40 ≤ b then ([b], bs)
    else
      let (sequence, rest) := splitSequence bs
      (b :: sequence, rest)

/-- How many bytes the character takes that starts with `b`. -/
def characterLength (b : UInt8) : Nat :=
  if b < 0xc0 then 1 else if b < 0xe0 then 2 else if b < 0xf0 then 3 else 4

/-- Splits off the bytes of the first key. -/
def splitKey : Text.Bytes → Text.Bytes × Text.Bytes
  | [] => ([], [])
  | b :: bs =>
    if b = 0x1b then
      match bs with
      | 0x5b :: rest =>
        let (sequence, rest) := splitSequence rest
        (b :: 0x5b :: sequence, rest)
      | c :: rest => (b :: c :: rest.take (characterLength c - 1), rest.drop (characterLength c - 1))
      | [] => ([b], [])
    else (b :: bs.take (characterLength b - 1), bs.drop (characterLength b - 1))

/-- The events of a stream of bytes. -/
def ofStream (bs : Text.Bytes) : List TerminalEvent :=
  go bs.length bs
where
  /-- At most `n` events, which a stream of `n` bytes never exceeds. -/
  go : Nat → Text.Bytes → List TerminalEvent
    | 0, _ => []
    | _, [] => []
    | n + 1, bs =>
      let (first, rest) := splitKey bs
      ofBytes first :: go n rest

end Worksheet.TerminalEvent
