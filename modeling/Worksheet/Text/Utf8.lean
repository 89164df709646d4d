/-!
Bytes and characters.

`Text.encode` writes a string as UTF-8. `Text.decode` reads any bytes: each maximal run of bytes that
begins a character but does not finish it, and each byte that can begin none, becomes one replacement
character. Decoding is a machine that takes one byte at a time and holds at most one unfinished
character.
-/

namespace Worksheet.Text

/-- A file's content. -/
abbrev Bytes := List UInt8

/-- The UTF-8 bytes of a string. -/
def encode (s : String) : Bytes :=
  s.toUTF8.data.toList

/-- Stands for bytes that are no character. -/
def replacement : Char := '\ufffd'

/-! ## Decoding -/

/-- What decoding holds between two bytes: nothing, or the bits of an unfinished character, how many
bytes it still needs, and the least and greatest that the next of them may be. -/
inductive Unfinished where
  | nothing
  | character (bits : Nat) (needed : Nat) (least greatest : UInt8)
deriving DecidableEq, Repr

/-- Takes the first byte of a character. -/
def openWith (b : UInt8) : List Char × Unfinished :=
  let n := b.toNat
  if n < 0x80 then ([Char.ofNat n], .nothing)
  else if 0xc2 ≤ n ∧ n ≤ 0xdf then ([], .character (n - 0xc0) 1 0x80 0xbf)
  else if n = 0xe0 then ([], .character 0 2 0xa0 0xbf)
  else if n = 0xed then ([], .character 0xd 2 0x80 0x9f)
  else if 0xe1 ≤ n ∧ n ≤ 0xef then ([], .character (n - 0xe0) 2 0x80 0xbf)
  else if n = 0xf0 then ([], .character 0 3 0x90 0xbf)
  else if n = 0xf4 then ([], .character 4 3 0x80 0x8f)
  else if 0xf1 ≤ n ∧ n ≤ 0xf3 then ([], .character (n - 0xf0) 3 0x80 0xbf)
  else ([replacement], .nothing)

/-- Takes one byte: the characters it completes, and what is unfinished after it. A byte that does
not go on with an unfinished character ends it and opens the next one. -/
def take (u : Unfinished) (b : UInt8) : List Char × Unfinished :=
  match u with
  | .nothing => openWith b
  | .character bits needed least greatest =>
    if least ≤ b ∧ b ≤ greatest then
      let bits := bits * 0x40 + (b.toNat - 0x80)
      if needed ≤ 1 then ([Char.ofNat bits], .nothing)
      else ([], .character bits (needed - 1) 0x80 0xbf)
    else
      let (cs, u) := openWith b
      (replacement :: cs, u)

/-- Decodes bytes after an unfinished character. -/
def decodeFrom (u : Unfinished) : Bytes → List Char
  | [] =>
    match u with
    | .nothing => []
    | .character .. => [replacement]
  | b :: bs =>
    let (cs, u) := take u b
    cs ++ decodeFrom u bs

/-- The characters of any bytes. -/
def decode (bs : Bytes) : List Char :=
  decodeFrom .nothing bs

/-- The string of bytes that are UTF-8. -/
def decode? (bs : Bytes) : Option String :=
  String.fromUTF8? ⟨bs.toArray⟩

end Worksheet.Text
