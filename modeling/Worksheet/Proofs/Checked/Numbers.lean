import Worksheet.Proofs.Checked.Places
import Worksheet.Proofs.Numeral.Conversion
import Worksheet.Proofs.Numeral.Longest
import Worksheet.Proofs.Numeral.Reread
import Worksheet.Proofs.Text.Boundary
import Worksheet.Proofs.Text.Lossy

/-!
Numbers scanned in bytes, by their places.

A number is scanned here in any bytes and from any place. The scan looks ahead for a point, a mark, a sign and
digits, and comes to the place behind the number, or to none; then the bytes up to there are cut out, decoded
and converted, each of which may fail. A cut out of range is a fault.

Bytes are taken for characters one by one (`Text.latin`), so that each part of the scan does what it does on
characters, and conserves the sum of the place and what is left (`Checked.Reaches`). A numeral is written in
ASCII, so it makes no difference here whether bytes or characters of UTF-8 are scanned
(`Numeral.scan_latin_encodeChars`). What is cut out is a numeral, and it is converted: the scan finds the longest
numeral that stands at the place, and it finds none only if there is none (`Checked.scanNumber_longest`).
-/

namespace Worksheet

open Text (Bytes)

/-! ## Bytes for characters -/

namespace Text

/-- Bytes, each taken for the character with its number. -/
def latin (bs : Bytes) : List Char := bs.map fun b => Char.ofNat b.toNat

theorem toNat_ofNat_byte (b : UInt8) : (Char.ofNat b.toNat).toNat = b.toNat := by
  have byte := b.toNat_lt
  exact toNat_ofNat_of_valid (.inl (by omega))

theorem ofNat_byte_injective : Function.Injective fun b : UInt8 => Char.ofNat b.toNat := by
  intro a b same
  have code := congrArg Char.toNat same
  rwa [toNat_ofNat_byte, toNat_ofNat_byte, UInt8.toNat_inj] at code

theorem latin_injective : Function.Injective latin := List.map_injective_iff.mpr ofNat_byte_injective

theorem length_latin (bs : Bytes) : (latin bs).length = bs.length := List.length_map _

theorem latin_append (bs cs : Bytes) : latin (bs ++ cs) = latin bs ++ latin cs := List.map_append

theorem latin_drop (n : Nat) (bs : Bytes) : latin (bs.drop n) = (latin bs).drop n := List.map_drop

theorem latin_take (n : Nat) (bs : Bytes) : latin (bs.take n) = (latin bs).take n := List.map_take

section Ascii

variable {text : List Char} (ascii : ∀ c ∈ text, c.toNat < 0x80)

include ascii

theorem length_encodeChars_of_ascii : (encodeChars text).length = text.length := by
  rw [encodeChars_of_ascii ascii, List.length_map]

theorem latin_encodeChars : latin (encodeChars text) = text := by
  rw [encodeChars_of_ascii ascii, latin, List.map_map]
  refine (List.map_congr_left fun c member => ?_).trans (List.map_id text)
  have byte := ascii c member
  rw [Function.comp_apply, toNat_ofNat_of_lt (by omega), Char.ofNat_toNat, id]

theorem take_eq_encodeChars_iff {bs : Bytes} :
    bs.take text.length = encodeChars text ↔ text <+: latin bs := by
  rw [← latin_injective.eq_iff, latin_encodeChars ascii, latin_take, List.prefix_iff_eq_take, eq_comm]

end Ascii

theorem prefix_of_encodeChars_prefix {xs ys : List Char} (front : encodeChars xs <+: encodeChars ys) :
    xs <+: ys := by
  induction xs generalizing ys with
  | nil => exact List.nil_prefix
  | cons x xs ih =>
      cases ys with
      | nil => exact absurd (List.prefix_nil.mp front) (by simp [String.utf8EncodeChar_ne_nil])
      | cons y ys =>
          rw [encodeChars_cons, encodeChars_cons] at front
          obtain rfl := eq_of_prefix ((List.prefix_append _ _).trans front) (List.prefix_append _ _)
          exact List.cons_prefix_cons.mpr ⟨rfl, ih ((List.prefix_append_right_inj _).mp front)⟩

/-- ASCII stands at the front of a text's bytes if and only if it stands at the front of the text. -/
theorem prefix_latin_encodeChars {text cs : List Char} (ascii : ∀ c ∈ text, c.toNat < 0x80) :
    text <+: latin (encodeChars cs) ↔ text <+: cs := by
  rw [← take_eq_encodeChars_iff ascii]
  constructor
  · intro same
    exact prefix_of_encodeChars_prefix (same ▸ List.take_prefix _ _)
  · rintro ⟨later, rfl⟩
    rw [encodeChars_append, ← length_encodeChars_of_ascii ascii, List.take_left]

/-- A character beyond ASCII stands for bytes beyond ASCII. -/
theorem latin_encodeChars_cons (c : Char) (cs : List Char) :
    (c.toNat < 0x80 ∧ latin (encodeChars (c :: cs)) = c :: latin (encodeChars cs)) ∨
      (0x80 ≤ c.toNat ∧ ∃ d ds, 0x80 ≤ d.toNat ∧ latin (encodeChars (c :: cs)) = d :: ds) := by
  rcases (charBytes_utf8EncodeChar c).ascii_or with ⟨high, bytes⟩ | ⟨low, bytes⟩
  · left
    have single : latin (String.utf8EncodeChar c) = [c] := by
      rw [bytes, latin, List.map_singleton, toNat_ofNat_of_lt (by omega), Char.ofNat_toNat]
    rw [encodeChars_cons, latin_append, single]
    exact ⟨high, rfl⟩
  · right
    obtain ⟨b, later, split⟩ := List.exists_cons_of_ne_nil (String.utf8EncodeChar_ne_nil (c := c))
    have beyond := bytes b (split ▸ List.mem_cons_self)
    refine ⟨low, Char.ofNat b.toNat, latin (later ++ encodeChars cs), ?_, ?_⟩
    · rwa [toNat_ofNat_byte]
    · rw [encodeChars_cons, split]
      rfl

/-- A run of ASCII is as long in the bytes as in the text. -/
theorem span_latin_encodeChars {p : Char → Bool} (ascii : ∀ c, p c = true → c.toNat < 0x80) (cs : List Char) :
    (latin (encodeChars cs)).takeWhile p = cs.takeWhile p ∧
      (latin (encodeChars cs)).dropWhile p = latin (encodeChars (cs.dropWhile p)) := by
  have split := span_spec p cs
  have front : latin (encodeChars (cs.takeWhile p)) = cs.takeWhile p :=
    latin_encodeChars fun c member => ascii c (split.2.1 c member)
  have ends : ∀ d ∈ (latin (encodeChars (cs.dropWhile p))).head?, p d = false := by
    intro d first
    cases back : cs.dropWhile p with
    | nil =>
        rw [back] at first
        cases first
    | cons c later =>
        rw [back] at first split
        rcases latin_encodeChars_cons c later with ⟨-, bytes⟩ | ⟨-, e, ds, beyond, bytes⟩
        · rw [bytes] at first
          cases first
          exact split.2.2 d rfl
        · rw [bytes] at first
          cases first
          exact eq_false_of_ne_true fun member => Nat.not_lt.mpr beyond (ascii d member)
  have whole : latin (encodeChars cs) = cs.takeWhile p ++ latin (encodeChars (cs.dropWhile p)) := by
    conv_lhs => rw [← split.1, encodeChars_append, latin_append, front]
  rw [whole]
  exact ⟨takeWhile_append_of_ends split.2.1 ends, dropWhile_append_of_ends split.2.1 ends⟩

end Text

/-! ## Numerals in bytes -/

namespace Numeral

open Text (latin encodeChars)

variable {n : Numeral} {text cs : List Char} {src : Bytes} {start stop : Nat}

/-- The bytes between two places write the numeral. -/
structure IsAt (n : Numeral) (src : Bytes) (start stop : Nat) : Prop where
  start_le : start ≤ stop
  stop_le : stop ≤ src.length
  written : ∃ text, n.WrittenAs text ∧ src.extract start stop = encodeChars text

theorem WrittenAs.ascii (written : n.WrittenAs text) : ∀ c ∈ text, c.toNat < 0x80 := by
  intro c member
  have visible := written.visible c member
  exact Nat.lt_of_lt_of_le visible.2 (by decide)

theorem isAt_iff : n.IsAt src start stop ↔
    ∃ text, n.WrittenAs text ∧ text <+: latin (src.drop start) ∧ stop = start + text.length := by
  constructor
  · rintro ⟨startLe, stopLe, text, written, slice⟩
    have length := congrArg List.length slice
    rw [List.extract_eq_take_drop] at slice length
    rw [Text.length_encodeChars_of_ascii written.ascii, List.length_take, List.length_drop] at length
    have width : stop - start = text.length := by omega
    rw [width] at slice
    exact ⟨text, written, (Text.take_eq_encodeChars_iff written.ascii).mp slice, by omega⟩
  · rintro ⟨text, written, front, rfl⟩
    have length := front.length_le
    rw [Text.length_latin, List.length_drop] at length
    have some := List.length_pos_iff.mpr written.ne_nil
    refine ⟨Nat.le_add_right _ _, by omega, text, written, ?_⟩
    rw [List.extract_eq_take_drop, Nat.add_sub_cancel_left]
    exact (Text.take_eq_encodeChars_iff written.ascii).mpr front

/-- The bytes between two places write the numeral, and no numeral goes on further from the first. -/
structure IsLongestAt (n : Numeral) (src : Bytes) (start stop : Nat) : Prop where
  isAt : n.IsAt src start stop
  longest : ∀ m other, IsAt m src start other → other ≤ stop

theorem isLongestAt_iff : n.IsLongestAt src start stop ↔
    ∃ text, n.LongestAt text (latin (src.drop start)) ∧ stop = start + text.length := by
  constructor
  · rintro ⟨isAt, longest⟩
    obtain ⟨text, written, front, rfl⟩ := isAt_iff.mp isAt
    refine ⟨text, ⟨written, front, fun m other another ahead => ?_⟩, rfl⟩
    have ends := longest m _ (isAt_iff.mpr ⟨other, another, ahead, rfl⟩)
    omega
  · rintro ⟨text, ⟨written, front, longest⟩, rfl⟩
    refine ⟨isAt_iff.mpr ⟨text, written, front, rfl⟩, fun m stop isAt => ?_⟩
    obtain ⟨other, another, ahead, rfl⟩ := isAt_iff.mp isAt
    have ends := longest m other another ahead
    omega

theorem IsLongestAt.unique {m : Numeral} {other : Nat} (first : n.IsLongestAt src start stop)
    (second : m.IsLongestAt src start other) : n = m ∧ stop = other := by
  obtain ⟨text, longest, rfl⟩ := isLongestAt_iff.mp first
  obtain ⟨text', longest', rfl⟩ := isLongestAt_iff.mp second
  obtain ⟨rfl, rfl⟩ := longest.unique longest'
  exact ⟨rfl, rfl⟩

theorem IsAt.start_lt (isAt : n.IsAt src start stop) : start < stop := by
  obtain ⟨text, written, -, rfl⟩ := isAt_iff.mp isAt
  have some := List.length_pos_iff.mpr written.ne_nil
  omega

theorem longestAt_latin_iff :
    n.LongestAt text (latin (encodeChars cs)) ↔ n.LongestAt text cs := by
  constructor
  · rintro ⟨written, front, longest⟩
    refine ⟨written, (Text.prefix_latin_encodeChars written.ascii).mp front, ?_⟩
    intro m other another ahead
    exact longest m other another ((Text.prefix_latin_encodeChars another.ascii).mpr ahead)
  · rintro ⟨written, front, longest⟩
    refine ⟨written, (Text.prefix_latin_encodeChars written.ascii).mpr front, ?_⟩
    intro m other another ahead
    exact longest m other another ((Text.prefix_latin_encodeChars another.ascii).mp ahead)

/-- Scanning the bytes of a text, one by one, is scanning the text. -/
theorem scan_latin_encodeChars (cs : List Char) : scan (latin (encodeChars cs)) =
    (scan cs).map fun (n, rest) => (n, latin (encodeChars rest)) := by
  cases scanned : scan cs with
  | none =>
      rw [scan_eq_none_iff] at scanned
      refine scan_eq_none_iff.mpr fun n text written front => ?_
      exact scanned n text written ((Text.prefix_latin_encodeChars written.ascii).mp front)
  | some found =>
      obtain ⟨n, rest⟩ := found
      obtain ⟨text, longest, rfl⟩ := scan_eq_some_iff.mp scanned
      refine scan_eq_some_iff.mpr ⟨text, longestAt_latin_iff.mpr longest, ?_⟩
      rw [Text.encodeChars_append, Text.latin_append, Text.latin_encodeChars longest.written.ascii]

end Numeral

/-! ## The scan -/

namespace Checked

open SheetFile (isDigit)
open Text (latin encodeChars)

/-- The place behind the bytes of a class that stand from a place on. -/
def runEnd (kind : UInt8 → Bool) (src : Bytes) (place : Nat) : Nat :=
  if inside : place < src.length then
    if kind src[place] then runEnd kind src (place + 1) else place
  else place
termination_by src.length - place

/-- The place behind the digits that stand from a place on. -/
def digitsEnd (src : Bytes) (place : Nat) : Nat := runEnd isDigit src place

/-- The place behind a mantissa, and how many digits it has. -/
def mantissaEnd (src : Bytes) (start : Nat) : Checked (Nat × Nat) := do
  let whole := digitsEnd src start
  let digits ← minus whole start
  if src[whole]? = some 0x2e then
    let fraction := digitsEnd src (whole + 1)
    return (fraction, digits + (← minus fraction (whole + 1)))
  else return (whole, digits)

/-- The place behind a sign, if there is one. -/
def signEnd (src : Bytes) (place : Nat) : Nat :=
  if src[place]? = some 0x2b ∨ src[place]? = some 0x2d then place + 1 else place

/-- The place behind an exponent. A mark without digits is none. -/
def exponentEnd (src : Bytes) (place : Nat) : Nat :=
  if src[place]? = some 0x65 ∨ src[place]? = some 0x45 then
    let digits := signEnd src (place + 1)
    let stop := digitsEnd src digits
    if digits < stop then stop else place
  else place

/-- The place behind a number, if there are digits in its mantissa. -/
def numberEnd (src : Bytes) (start : Nat) : Checked (Option Nat) := do
  let (stop, digits) ← mantissaEnd src start
  if digits = 0 then return none else return some (exponentEnd src stop)

/-- Cuts out the bytes between two places. -/
def slice (src : Bytes) (start stop : Nat) : Checked Bytes := do
  let length ← minus stop start
  let _ ← minus src.length stop
  return (src.drop start).take length

/-- The double that bytes are converted to, if they are UTF-8 and its text is taken for a number. -/
def convertBytes? (bs : Bytes) : Option Float :=
  (Text.decode? bs).bind fun s => Numeral.convert? s.toList

/-- Scans a number from a place on: its double, and the place behind it. -/
def scanNumber (src : Bytes) (start : Nat) : Checked (Option (Float × Nat)) := do
  match ← numberEnd src start with
  | none => return none
  | some stop => return (convertBytes? (← slice src start stop)).map fun v => (v, stop)

/-! ## Places and what is left -/

/-- At `stop` begins the rest of what begins at `start`. -/
structure Reaches (src : Bytes) (start stop : Nat) (rest : List Char) : Prop where
  latin_eq : latin (src.drop stop) = rest
  conserves : stop + rest.length = start + (latin (src.drop start)).length

section Spec

variable {src : Bytes} {start place stop : Nat} {rest later cs : List Char}

theorem Reaches.refl (src : Bytes) (start : Nat) : Reaches src start start (latin (src.drop start)) :=
  ⟨rfl, rfl⟩

theorem Reaches.trans (first : Reaches src start place rest) (second : Reaches src place stop later) :
    Reaches src start stop later := by
  have before := first.conserves
  have after := second.conserves
  rw [first.latin_eq] at after
  exact ⟨second.latin_eq, by omega⟩

theorem Reaches.succ {c : Char} (stands : latin (src.drop place) = c :: cs) :
    Reaches src place (place + 1) cs := by
  constructor
  · rw [← List.drop_drop, Text.latin_drop, stands, List.drop_one, List.tail_cons]
  · rw [stands, List.length_cons]
    omega

/-- One byte of what is left. -/
theorem getElem?_eq_some_iff {b : UInt8} :
    src[place]? = some b ↔ (latin (src.drop place)).head? = some (Char.ofNat b.toNat) := by
  rw [latin, List.head?_map, List.head?_drop]
  exact (Option.map_injective Text.ofNat_byte_injective).eq_iff.symm

theorem latin_drop_of_lt (inside : place < src.length) :
    latin (src.drop place) = Char.ofNat src[place].toNat :: latin (src.drop (place + 1)) := by
  rw [List.drop_eq_getElem_cons inside]
  rfl

theorem isDigit_ofNat (b : UInt8) : (Char.ofNat b.toNat).isDigit = isDigit b := by
  rw [Bool.eq_iff_iff, Char.isDigit_iff_toNat, Text.toNat_ofNat_byte]
  simp only [isDigit, Bool.and_eq_true, decide_eq_true_eq, UInt8.le_iff_toNat_le]
  rfl

/-! ## Every part does what it does on characters -/

/-- The induction is on what is left behind the place. -/
theorem reaches_runEnd {kind : UInt8 → Bool} {p : Char → Bool}
    (same : ∀ b : UInt8, p (Char.ofNat b.toNat) = kind b) (src : Bytes) (place : Nat) :
    Reaches src place (runEnd kind src place) ((latin (src.drop place)).dropWhile p) := by
  induction place using runEnd.induct kind src with
  | case1 place inside member ih =>
      have stands := latin_drop_of_lt inside
      rw [runEnd, dif_pos inside, if_pos member, stands,
        List.dropWhile_cons_of_pos ((same _).trans member)]
      exact (Reaches.succ stands).trans ih
  | case2 place inside other =>
      have stands := latin_drop_of_lt inside
      have notMember : ¬ p (Char.ofNat src[place].toNat) = true := by rwa [same]
      rw [runEnd, dif_pos inside, if_neg other, stands, List.dropWhile_cons_of_neg notMember, ← stands]
      exact .refl src place
  | case3 place outside =>
      have nothing : src.drop place = [] := List.drop_eq_nil_of_le (Nat.le_of_not_lt outside)
      rw [runEnd, dif_neg outside, nothing]
      exact ⟨congrArg latin nothing, by rw [nothing]; rfl⟩

theorem le_runEnd (kind : UInt8 → Bool) (src : Bytes) (place : Nat) : place ≤ runEnd kind src place := by
  induction place using runEnd.induct kind src with
  | case1 place inside member ih =>
      rw [runEnd, dif_pos inside, if_pos member]
      exact Nat.le_of_succ_le ih
  | case2 place inside other => rw [runEnd, dif_pos inside, if_neg other]
  | case3 place outside => rw [runEnd, dif_neg outside]

theorem reaches_digitsEnd (src : Bytes) (place : Nat) : Reaches src place (digitsEnd src place)
    ((latin (src.drop place)).dropWhile Char.isDigit) :=
  reaches_runEnd isDigit_ofNat src place

theorem le_digitsEnd (src : Bytes) (place : Nat) : place ≤ digitsEnd src place :=
  le_runEnd isDigit src place

theorem minus_digitsEnd (src : Bytes) (place : Nat) : minus (digitsEnd src place) place =
    .ok ((latin (src.drop place)).takeWhile Char.isDigit).length := by
  have conserves := (reaches_digitsEnd src place).conserves
  have parts := congrArg List.length
    (List.takeWhile_append_dropWhile (p := Char.isDigit) (l := latin (src.drop place)))
  rw [List.length_append] at parts
  rw [minus_of_le (le_digitsEnd src place)]
  exact congrArg Except.ok (by omega)

theorem mantissaEnd_spec (src : Bytes) (start : Nat) :
    let cs := latin (src.drop start)
    let fraction := Numeral.scanFraction (cs.dropWhile Char.isDigit)
    ∃ stop, mantissaEnd src start =
        .ok (stop, (cs.takeWhile Char.isDigit).length + fraction.1.length) ∧
      Reaches src start stop fraction.2 := by
  intro cs fraction
  have whole := reaches_digitsEnd src start
  unfold mantissaEnd
  dsimp only
  rw [minus_digitsEnd, ok_bind]
  by_cases point : src[digitsEnd src start]? = some 0x2e
  · obtain ⟨digits, stands⟩ := List.head?_eq_some_iff.mp (getElem?_eq_some_iff.mp point)
    have behind := Reaches.succ stands
    have split : fraction = (digits.takeWhile Char.isDigit, digits.dropWhile Char.isDigit) := by
      rw [whole.latin_eq] at stands
      exact congrArg Numeral.scanFraction stands
    have tail := reaches_digitsEnd src (digitsEnd src start + 1)
    rw [if_pos point, minus_digitsEnd, ok_bind, behind.latin_eq, split]
    rw [behind.latin_eq] at tail
    exact ⟨_, rfl, whole.trans (behind.trans tail)⟩
  · have split : fraction = ([], cs.dropWhile Char.isDigit) := by
      rw [getElem?_eq_some_iff, whole.latin_eq] at point
      exact Numeral.scanFraction_of_head point
    rw [if_neg point, split]
    exact ⟨_, rfl, whole⟩

theorem reaches_signEnd (src : Bytes) (place : Nat) :
    Reaches src place (signEnd src place) (Numeral.scanSign (latin (src.drop place))).2 := by
  unfold signEnd
  by_cases sign : src[place]? = some 0x2b ∨ src[place]? = some 0x2d
  · rw [if_pos sign]
    rcases sign with plus | minus
    · obtain ⟨cs, stands⟩ := List.head?_eq_some_iff.mp (getElem?_eq_some_iff.mp plus)
      rw [stands]
      exact .succ stands
    · obtain ⟨cs, stands⟩ := List.head?_eq_some_iff.mp (getElem?_eq_some_iff.mp minus)
      rw [stands]
      exact .succ stands
  · rw [if_neg sign]
    rw [getElem?_eq_some_iff, getElem?_eq_some_iff, not_or] at sign
    rw [Numeral.scanSign_of_head sign.2 sign.1]
    exact .refl src place

theorem lt_digitsEnd_iff (src : Bytes) (place : Nat) :
    place < digitsEnd src place ↔ (latin (src.drop place)).takeWhile Char.isDigit ≠ [] := by
  have digits := minus_digitsEnd src place
  rw [minus_of_le (le_digitsEnd src place)] at digits
  rw [← List.length_pos_iff, ← Except.ok.inj digits]
  omega

theorem reaches_exponentEnd (src : Bytes) (place : Nat) :
    Reaches src place (exponentEnd src place) (Numeral.scanExponent (latin (src.drop place))).2 := by
  unfold exponentEnd
  by_cases mark : src[place]? = some 0x65 ∨ src[place]? = some 0x45
  · obtain ⟨c, cs, marked, stands⟩ : ∃ c cs, (c = 'e' ∨ c = 'E') ∧ latin (src.drop place) = c :: cs := by
      rw [getElem?_eq_some_iff, getElem?_eq_some_iff, List.head?_eq_some_iff, List.head?_eq_some_iff] at mark
      rcases mark with ⟨cs, stands⟩ | ⟨cs, stands⟩
      · exact ⟨'e', cs, .inl rfl, stands⟩
      · exact ⟨'E', cs, .inr rfl, stands⟩
    have behind := Reaches.succ stands
    have sign := reaches_signEnd src (place + 1)
    rw [behind.latin_eq] at sign
    have digits := reaches_digitsEnd src (signEnd src (place + 1))
    rw [sign.latin_eq] at digits
    have complete := lt_digitsEnd_iff src (signEnd src (place + 1))
    rw [sign.latin_eq] at complete
    rw [if_pos mark, stands, Numeral.scanExponent]
    dsimp only
    by_cases some : signEnd src (place + 1) < digitsEnd src (signEnd src (place + 1))
    · rw [if_pos some, if_pos ⟨marked, complete.mp some⟩]
      exact behind.trans (sign.trans digits)
    · rw [if_neg some, if_neg fun both => some (complete.mpr both.2), ← stands]
      exact .refl src place
  · rw [if_neg mark]
    rw [getElem?_eq_some_iff, getElem?_eq_some_iff, not_or] at mark
    rw [Numeral.scanExponent_of_head mark.1 mark.2]
    exact .refl src place

/-- The scan of bytes goes as far as that of characters. -/
theorem numberEnd_spec (src : Bytes) (start : Nat) :
    match Numeral.scan (latin (src.drop start)) with
    | none => numberEnd src start = .ok none
    | some (_, rest) => ∃ stop, numberEnd src start = .ok (some stop) ∧ Reaches src start stop rest := by
  obtain ⟨place, ran, mantissa⟩ := mantissaEnd_spec src start
  have exponent := reaches_exponentEnd src place
  rw [mantissa.latin_eq] at exponent
  unfold numberEnd Numeral.scan
  rw [ran, ok_bind]
  dsimp only
  by_cases none : (latin (src.drop start)).takeWhile Char.isDigit = [] ∧
      (Numeral.scanFraction ((latin (src.drop start)).dropWhile Char.isDigit)).1 = []
  · rw [if_pos none, none.1, none.2]
    rfl
  · have some : ((latin (src.drop start)).takeWhile Char.isDigit).length +
        (Numeral.scanFraction ((latin (src.drop start)).dropWhile Char.isDigit)).1.length ≠ 0 := by
      rwa [Ne, Nat.add_eq_zero_iff, List.length_eq_zero_iff, List.length_eq_zero_iff]
    rw [if_neg none, if_neg some]
    exact ⟨_, rfl, mantissa.trans exponent⟩

/-! ## What is cut out is converted -/

theorem slice_of_le (ordered : start ≤ stop) (inside : stop ≤ src.length) :
    slice src start stop = .ok (src.extract start stop) := by
  rw [slice, minus_of_le ordered, ok_bind, minus_of_le inside, List.extract_eq_take_drop]
  rfl

theorem slice_of_isAt {n : Numeral} (isAt : n.IsAt src start stop) :
    ∃ s, slice src start stop = .ok (Text.encode s) ∧ Numeral.convert? s.toList = some n.value := by
  obtain ⟨text, written, bytes⟩ := isAt.written
  refine ⟨String.ofList text, ?_, ?_⟩
  · rw [slice_of_le isAt.start_le isAt.stop_le, bytes, Text.encode_ofList]
  · rw [String.toList_ofList]
    exact Numeral.convert?_of_writtenAs written

theorem scanNumber_of_slice {s : String} (ends : numberEnd src start = .ok (some stop))
    (bytes : slice src start stop = .ok (Text.encode s)) :
    scanNumber src start = .ok ((Numeral.convert? s.toList).map fun v => (v, stop)) := by
  rw [scanNumber, ends, ok_bind]
  dsimp only
  rw [bytes, ok_bind, convertBytes?, Text.decode?_encode]
  rfl

theorem scanNumber_of_none (scanned : Numeral.scan (latin (src.drop start)) = none) :
    (∀ (n : Numeral) (stop : Nat), ¬ n.IsAt src start stop) ∧
      numberEnd src start = .ok none ∧ scanNumber src start = .ok none := by
  have ends := numberEnd_spec src start
  rw [scanned] at ends
  refine ⟨?_, ends, ?_⟩
  · intro n stop isAt
    obtain ⟨text, written, ahead, -⟩ := Numeral.isAt_iff.mp isAt
    exact Numeral.scan_eq_none_iff.mp scanned n text written ahead
  · rw [scanNumber, ends]
    rfl

theorem scanNumber_of_some {n : Numeral}
    (scanned : Numeral.scan (latin (src.drop start)) = some (n, rest)) :
    ∃ stop, n.IsLongestAt src start stop ∧ stop + rest.length = start + (latin (src.drop start)).length ∧
      numberEnd src start = .ok (some stop) ∧ scanNumber src start = .ok (some (n.value, stop)) := by
  have ends := numberEnd_spec src start
  rw [scanned] at ends
  obtain ⟨stop, ran, reaches⟩ := ends
  obtain ⟨text, longest, split⟩ := Numeral.scan_eq_some_iff.mp scanned
  have length := congrArg List.length split
  rw [List.length_append] at length
  have conserves := reaches.conserves
  have isLongest : n.IsLongestAt src start stop :=
    Numeral.isLongestAt_iff.mpr ⟨text, longest, by omega⟩
  obtain ⟨s, bytes, converted⟩ := slice_of_isAt isLongest.isAt
  refine ⟨stop, isLongest, conserves, ran, ?_⟩
  rw [scanNumber_of_slice ran bytes, converted]
  rfl

/-- In the bytes of a text it finds what is found in the text. -/
theorem scanNumber_encodeChars (front back : List Char) :
    scanNumber (encodeChars (front ++ back)) (encodeChars front).length =
      .ok ((Numeral.scan back).map fun (n, rest) =>
        (n.value, (encodeChars (front ++ back)).length - (encodeChars rest).length)) := by
  have behind : (encodeChars (front ++ back)).drop (encodeChars front).length = encodeChars back := by
    rw [Text.encodeChars_append, List.drop_left]
  have scanned := Numeral.scan_latin_encodeChars back
  rw [← behind] at scanned
  cases same : Numeral.scan back with
  | none =>
      rw [same] at scanned
      exact (scanNumber_of_none scanned).2.2
  | some found =>
      obtain ⟨n, rest⟩ := found
      rw [same] at scanned
      obtain ⟨stop, -, conserves, -, result⟩ := scanNumber_of_some scanned
      have place : stop = (encodeChars (front ++ back)).length - (encodeChars rest).length := by
        rw [behind, Text.length_latin, Text.length_latin] at conserves
        rw [Text.encodeChars_append, List.length_append]
        omega
      rw [result, place]
      rfl

/-- From any place of any bytes the scan takes the longest numeral that stands there, with its value. It fails
only where no numeral stands, never faults, and converts whatever it cuts out. In the bytes of a text it does
what `Numeral.scan` does on the text. -/
theorem scanNumber_longest (src : Bytes) (start : Nat) :
    ∃ found, scanNumber src start = .ok found ∧
      (∀ v stop, found = some (v, stop) ↔ ∃ n : Numeral, n.IsLongestAt src start stop ∧ v = n.value) ∧
      (found = none ↔ ∀ (n : Numeral) (stop : Nat), ¬ n.IsAt src start stop) ∧
      (∀ stop, numberEnd src start = .ok (some stop) → start < stop ∧ stop ≤ src.length ∧
        ∃ s v, slice src start stop = .ok (Text.encode s) ∧ Numeral.convert? s.toList = some v ∧
          found = some (v, stop)) ∧
      ∀ front back, src = encodeChars (front ++ back) → start = (encodeChars front).length →
        found = (Numeral.scan back).map fun (n, rest) =>
          (n.value, src.length - (encodeChars rest).length) := by
  have running : ∀ found, scanNumber src start = .ok found →
      ∀ front back, src = encodeChars (front ++ back) → start = (encodeChars front).length →
        found = (Numeral.scan back).map fun (n, rest) =>
          (n.value, src.length - (encodeChars rest).length) := by
    rintro found ran front back rfl rfl
    exact Except.ok.inj (ran.symm.trans (scanNumber_encodeChars front back))
  cases scanned : Numeral.scan (latin (src.drop start)) with
  | none =>
      obtain ⟨nothing, ends, result⟩ := scanNumber_of_none scanned
      refine ⟨none, result, fun v stop => ⟨nofun, ?_⟩, iff_of_true rfl nothing, ?_, running _ result⟩
      · rintro ⟨n, longest, -⟩
        exact absurd longest.isAt (nothing n stop)
      · intro stop ran
        cases ends.symm.trans ran
  | some found =>
      obtain ⟨n, rest⟩ := found
      obtain ⟨stop, longest, -, ends, result⟩ := scanNumber_of_some scanned
      refine ⟨some (n.value, stop), result, ?_, ?_, ?_, running _ result⟩
      · intro v other
        constructor
        · rintro ⟨⟩
          exact ⟨n, longest, rfl⟩
        · rintro ⟨m, another, rfl⟩
          obtain ⟨rfl, rfl⟩ := longest.unique another
          rfl
      · exact iff_of_false nofun fun nothing => nothing n stop longest.isAt
      · intro other ran
        cases ends.symm.trans ran
        obtain ⟨s, bytes, converted⟩ := slice_of_isAt longest.isAt
        exact ⟨longest.isAt.start_lt, longest.isAt.stop_le, s, n.value, bytes, converted, rfl⟩

end Spec

end Checked

end Worksheet
