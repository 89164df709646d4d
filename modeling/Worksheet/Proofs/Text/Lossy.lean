import Worksheet.Proofs.Text.Utf8
import Mathlib.Algebra.Group.Nat.Defs
import Mathlib.Data.List.Infix

/-!
Decoding bytes that are not all UTF-8.

`Lossy bs cs` is what it means that characters stand for arbitrary bytes. Where a character begins, it is
read. Where none does, the longest run of bytes that begins one is replaced as a whole, or the next byte
if not even that one begins a character. Such a run is a maximal subpart (`MaximalSubpart`).

`lossy_iff`: `decode` gives these characters, for all bytes. The decoder never looks back, so the proof
follows it byte by byte: an unfinished character is held just as long as some character has the bytes seen
so far (`Opened`), and it is given up at the first byte that no such character goes on with.
-/

namespace Worksheet.Text

/-! ## Maximal subparts -/

/-- The bytes are the first ones of a character, or all of them. -/
def Begins (bs : Bytes) : Prop := ∃ c, bs <+: String.utf8EncodeChar c

/-- At the front of `bs` stands no character, and `bad` is the longest part of it that begins one, or
a single byte if there is none. -/
structure MaximalSubpart (bad bs : Bytes) : Prop where
  unreadable : ∀ c, ¬ String.utf8EncodeChar c <+: bs
  nonempty : bad ≠ []
  begins_or_single : Begins bad ∨ bad.length = 1
  longest : ∀ p, p <+: bs → Begins p → p.length ≤ bad.length

/-- The characters that stand for any bytes. -/
inductive Lossy : Bytes → List Char → Prop where
  | nil : Lossy [] []
  | character {bs : Bytes} {cs : List Char} (c : Char) (rest : Lossy bs cs) :
    Lossy (String.utf8EncodeChar c ++ bs) (c :: cs)
  | replaced {bad bs : Bytes} {cs : List Char} (subpart : MaximalSubpart bad (bad ++ bs))
    (rest : Lossy bs cs) : Lossy (bad ++ bs) (replacement :: cs)

theorem decode_character (c : Char) (bs : Bytes) :
    decode (String.utf8EncodeChar c ++ bs) = c :: decode bs := by
  rw [decode, (charBytes_utf8EncodeChar c).decodeFrom, Char.ofNat_toNat, ← decode]

theorem decode_utf8EncodeChar (c : Char) : decode (String.utf8EncodeChar c) = [c] := by
  have alone := decode_character c []
  rwa [List.append_nil] at alone

/-- No character begins another one. -/
theorem eq_of_prefix {c d : Char} {bs : Bytes} (first : String.utf8EncodeChar c <+: bs)
    (second : String.utf8EncodeChar d <+: bs) : c = d := by
  obtain ⟨cs, rfl⟩ := first
  obtain ⟨ds, same⟩ := second
  have decoded := congrArg decode same
  rw [decode_character, decode_character] at decoded
  exact (List.cons.inj decoded).1.symm

theorem Begins.of_prefix {p bs : Bytes} (begins : Begins bs) (before : p <+: bs) : Begins p := by
  obtain ⟨c, whole⟩ := begins
  exact ⟨c, before.trans whole⟩

/-! ## Unfinished characters -/

/-- The last `n` bytes of the character with code `v`. -/
def tailBytes : Nat → Nat → Bytes
  | 0, _ => []
  | n + 1, v => tailByte (v / 0x40 ^ n) :: tailBytes n v

/-- After the bytes `seen` the decoder holds an unfinished character: with every code within the bounds
for the next byte, a character has these bytes and then `more + 1` others. -/
structure Opened (seen : Bytes) (bits more : Nat) (least greatest : UInt8) : Prop where
  decode_append : ∀ bs,
    decode (seen ++ bs) = decodeFrom (.character bits (more + 1) least greatest) bs
  least_le : least ≤ greatest
  least_tail : 0x80 ≤ least.toNat
  greatest_tail : greatest.toNat ≤ 0xbf
  charBytes : ∀ v, v / 0x40 ^ (more + 1) = bits →
    least.toNat ≤ v / 0x40 ^ more % 0x40 + 0x80 → v / 0x40 ^ more % 0x40 + 0x80 ≤ greatest.toNat →
      CharBytes v (seen ++ tailBytes (more + 1) v)

theorem CharBytes.isValidChar {v : Nat} {char : Bytes} (bytes : CharBytes v char) :
    v.isValidChar := by
  cases bytes with
  | one high => exact .inl (by omega)
  | two low high => exact .inl (by omega)
  | three low high valid =>
      rcases valid with below | above
      · exact .inl below
      · exact .inr ⟨above, by omega⟩
  | four low high => exact .inr ⟨by omega, high⟩

/-- A code has one sequence of bytes. -/
theorem CharBytes.unique {v : Nat} {first second : Bytes} (bytes : CharBytes v first)
    (others : CharBytes v second) : first = second := by
  cases bytes with
  | one => cases others <;> first | rfl | omega
  | two => cases others <;> first | rfl | omega
  | three => cases others <;> first | rfl | omega
  | four => cases others <;> first | rfl | omega

theorem CharBytes.utf8EncodeChar_ofNat {v : Nat} {char : Bytes} (bytes : CharBytes v char) :
    String.utf8EncodeChar (Char.ofNat v) = char := by
  have encoded := charBytes_utf8EncodeChar (Char.ofNat v)
  rw [toNat_ofNat_of_valid bytes.isValidChar] at encoded
  exact encoded.unique bytes

section Leading

variable {n : Nat}

theorem opened_two (low : 0xc2 ≤ n) (high : n ≤ 0xdf) :
    Opened [UInt8.ofNat n] (n - 0xc0) 0 0x80 0xbf := by
  refine ⟨fun bs => decodeFrom_opening (openWith_two low high), by decide, by decide, by decide,
    fun v lead _ _ => ?_⟩
  have first : v / 0x40 % 0x20 + 0xc0 = n := by omega
  have bytes : CharBytes v _ := .two (by omega) (by omega)
  rw [first] at bytes
  simpa [tailBytes] using bytes

theorem opened_three (low : 0xe0 ≤ n) (high : n ≤ 0xef) : ∃ least greatest,
    openWith (UInt8.ofNat n) = ([], .character (n - 0xe0) 2 least greatest) ∧
      Opened [UInt8.ofNat n] (n - 0xe0) 1 least greatest := by
  obtain ⟨least, greatest, opens, fewest, most⟩ := openWith_three low high
  refine ⟨least, greatest, opens, fun bs => decodeFrom_opening opens, ?_, ?_, ?_,
    fun v lead above below => ?_⟩
  · rw [UInt8.le_iff_toNat_le]
    split at fewest <;> split at most <;> omega
  · split at fewest <;> omega
  · split at most <;> omega
  have first : v / 0x1000 % 0x10 + 0xe0 = n := by omega
  -- the bounds shut out the long forms and the surrogates
  have bytes : CharBytes v _ :=
    .three (by split at fewest <;> omega) (by omega) (by split at most <;> omega)
  rw [first] at bytes
  simpa [tailBytes] using bytes

theorem opened_four (low : 0xf0 ≤ n) (high : n ≤ 0xf4) : ∃ least greatest,
    openWith (UInt8.ofNat n) = ([], .character (n - 0xf0) 3 least greatest) ∧
      Opened [UInt8.ofNat n] (n - 0xf0) 2 least greatest := by
  obtain ⟨least, greatest, opens, fewest, most⟩ := openWith_four low high
  refine ⟨least, greatest, opens, fun bs => decodeFrom_opening opens, ?_, ?_, ?_,
    fun v lead above below => ?_⟩
  · rw [UInt8.le_iff_toNat_le]
    split at fewest <;> split at most <;> omega
  · split at fewest <;> omega
  · split at most <;> omega
  have first : v / 0x40000 % 0x08 + 0xf0 = n := by omega
  -- here they shut out the long forms and the codes beyond the last one
  have bytes : CharBytes v _ := .four (by split at fewest <;> omega) (by split at most <;> omega)
  rw [first] at bytes
  simpa [tailBytes] using bytes

end Leading

/-- A byte is a character of its own, begins none, or leaves a character unfinished. -/
theorem openWith_cases (b : UInt8) :
    (∃ c, openWith b = ([c], .nothing) ∧ String.utf8EncodeChar c = [b]) ∨
      openWith b = ([replacement], .nothing) ∨
      ∃ bits more least greatest, openWith b = ([], .character bits (more + 1) least greatest) ∧
        Opened [b] bits more least greatest := by
  generalize number : b.toNat = n
  have same : b = UInt8.ofNat n := by rw [← number, UInt8.ofNat_toNat]
  have byte : n < 256 := number ▸ b.toNat_lt
  subst same
  by_cases one : n < 0x80
  · exact .inl ⟨_, openWith_one one, (CharBytes.one one).utf8EncodeChar_ofNat⟩
  by_cases two : 0xc2 ≤ n ∧ n ≤ 0xdf
  · exact .inr (.inr ⟨_, _, _, _, openWith_two two.1 two.2, opened_two two.1 two.2⟩)
  by_cases three : 0xe0 ≤ n ∧ n ≤ 0xef
  · exact .inr (.inr ⟨_, _, opened_three three.1 three.2⟩)
  by_cases four : 0xf0 ≤ n ∧ n ≤ 0xf4
  · exact .inr (.inr ⟨_, _, opened_four four.1 four.2⟩)
  refine .inr (.inl ?_)
  rw [openWith, toNat_ofNat_of_lt byte, if_neg one, if_neg two, if_neg (by omega), if_neg (by omega),
    if_neg (by omega), if_neg (by omega), if_neg (by omega), if_neg (by omega)]

/-- A character that goes on with one more byte. -/
theorem Opened.next {seen : Bytes} {bits more : Nat} {least greatest b : UInt8}
    (opened : Opened seen bits (more + 1) least greatest) (low : least ≤ b) (high : b ≤ greatest) :
    Opened (seen ++ [b]) (bits * 0x40 + (b.toNat - 0x80)) more 0x80 0xbf := by
  rw [UInt8.le_iff_toNat_le] at low high
  have least_tail := opened.least_tail
  have greatest_tail := opened.greatest_tail
  refine ⟨fun bs => ?_, by decide, by decide, by decide, fun v lead _ _ => ?_⟩
  · rw [List.append_assoc, List.singleton_append, opened.decode_append, decodeFrom_cons, take,
      if_pos (by simp only [UInt8.le_iff_toNat_le]; exact ⟨low, high⟩), if_neg (by omega)]
    rfl
  · have shift : v / 0x40 ^ (more + 1 + 1) = v / 0x40 ^ (more + 1) / 0x40 := by
      rw [Nat.pow_succ, Nat.div_div_eq_div_mul]
    have bytes := opened.charBytes v (by omega) (by omega) (by omega)
    have byte : tailByte (v / 0x40 ^ (more + 1)) = b := by
      rw [← UInt8.toNat_inj, toNat_tailByte]
      omega
    rwa [tailBytes, byte, ← List.singleton_append, ← List.append_assoc] at bytes

/-- A character that one more byte completes. -/
theorem Opened.last {seen : Bytes} {bits : Nat} {least greatest b : UInt8}
    (opened : Opened seen bits 0 least greatest) (low : least ≤ b) (high : b ≤ greatest) :
    String.utf8EncodeChar (Char.ofNat (bits * 0x40 + (b.toNat - 0x80))) = seen ++ [b] := by
  rw [UInt8.le_iff_toNat_le] at low high
  have least_tail := opened.least_tail
  have greatest_tail := opened.greatest_tail
  have bytes := opened.charBytes (bits * 0x40 + (b.toNat - 0x80)) (by omega) (by omega) (by omega)
  have byte : tailByte ((bits * 0x40 + (b.toNat - 0x80)) / 0x40 ^ 0) = b := by
    rw [← UInt8.toNat_inj, toNat_tailByte]
    omega
  rw [tailBytes, byte] at bytes
  exact bytes.utf8EncodeChar_ofNat

section Opened

variable {seen : Bytes} {bits more : Nat} {least greatest : UInt8}
  (opened : Opened seen bits more least greatest)

include opened

/-- The bytes seen are not yet all of a character that they begin. -/
theorem Opened.exists_rest : ∃ c rest, rest ≠ [] ∧ String.utf8EncodeChar c = seen ++ rest := by
  have order := UInt8.le_iff_toNat_le.mp opened.least_le
  have least_tail := opened.least_tail
  have greatest_tail := opened.greatest_tail
  let v := 0x40 ^ more * (bits * 0x40 + (least.toNat - 0x80))
  have next : v / 0x40 ^ more = bits * 0x40 + (least.toNat - 0x80) :=
    Nat.mul_div_cancel_left _ (Nat.pow_pos (by decide))
  have lead : v / 0x40 ^ (more + 1) = bits := by
    rw [Nat.pow_succ, ← Nat.div_div_eq_div_mul, next]
    omega
  have bytes := opened.charBytes v lead (by omega) (by omega)
  exact ⟨_, _, List.cons_ne_nil _ _, bytes.utf8EncodeChar_ofNat⟩

theorem Opened.begins : Begins seen := by
  obtain ⟨c, rest, -, bytes⟩ := opened.exists_rest
  exact ⟨c, rest, bytes.symm⟩

/-- None of the bytes seen ends a character. -/
theorem Opened.not_prefix (c : Char) : ¬ String.utf8EncodeChar c <+: seen := by
  intro early
  obtain ⟨d, rest, more, bytes⟩ := opened.exists_rest
  have whole : String.utf8EncodeChar c <+: String.utf8EncodeChar d := bytes ▸ early.trans ⟨rest, rfl⟩
  obtain rfl := eq_of_prefix whole List.prefix_rfl
  have length := early.length_le
  rw [bytes, List.length_append] at length
  exact more (List.eq_nil_of_length_eq_zero (by omega))

end Opened

theorem decodeFrom_character_ne_nil (bits needed : Nat) (least greatest : UInt8) (bs : Bytes) :
    decodeFrom (.character bits needed least greatest) bs ≠ [] := by
  induction bs generalizing bits needed least greatest with
  | nil => exact List.cons_ne_nil _ _
  | cons b bs ih =>
      rw [decodeFrom_cons, take]
      split
      · dsimp only
        split
        · exact List.cons_ne_nil _ _
        · exact ih _ _ _ _
      · exact List.cons_ne_nil _ _

/-- Bytes never vanish. -/
theorem decode_ne_nil {bs : Bytes} (nonempty : bs ≠ []) : decode bs ≠ [] := by
  cases bs with
  | nil => exact absurd rfl nonempty
  | cons b bs =>
      rw [decode, decodeFrom_cons, take]
      rcases openWith_cases b with ⟨c, own, -⟩ | none | ⟨_, _, _, _, opens, -⟩
      · rw [own]
        exact List.cons_ne_nil _ _
      · rw [none]
        exact List.cons_ne_nil _ _
      · rw [opens]
        exact decodeFrom_character_ne_nil _ _ _ _ bs

/-- If the decoder replaces what it has seen by now and then goes on with some byte, no character has
these bytes. -/
theorem not_begins_of_replaced {p : Bytes} {b : UInt8}
    (replaced : ∀ bs, decode (p ++ b :: bs) = replacement :: decode (b :: bs)) :
    ¬ Begins (p ++ [b]) := by
  rintro ⟨c, rest, whole⟩
  have decoded := decode_utf8EncodeChar c
  rw [← whole, List.append_assoc, List.singleton_append, replaced] at decoded
  exact decode_ne_nil (List.cons_ne_nil b rest) (List.cons.inj decoded).2

/-- What an unfinished character becomes with the next byte. -/
theorem Opened.take_cases {seen : Bytes} {bits more : Nat} {least greatest : UInt8}
    (opened : Opened seen bits more least greatest) (b : UInt8) :
    let u := Unfinished.character bits (more + 1) least greatest
    (∃ c, take u b = ([c], .nothing) ∧ String.utf8EncodeChar c = seen ++ [b]) ∨
      (∃ bits' more' least' greatest',
        take u b = ([], .character bits' (more' + 1) least' greatest') ∧
          Opened (seen ++ [b]) bits' more' least' greatest') ∨
      ((∀ bs, decodeFrom u (b :: bs) = replacement :: decode (b :: bs)) ∧ ¬ Begins (seen ++ [b])) := by
  intro u
  by_cases within : least ≤ b ∧ b ≤ greatest
  · obtain ⟨low, high⟩ := within
    cases more with
    | zero =>
        refine .inl ⟨_, ?_, opened.last low high⟩
        rw [take, if_pos ⟨low, high⟩, if_pos (Nat.le_refl 1)]
    | succ more =>
        refine .inr (.inl ⟨_, _, _, _, ?_, opened.next low high⟩)
        rw [take, if_pos ⟨low, high⟩, if_neg (by omega)]
        rfl
  · have ended (bs : Bytes) : decodeFrom u (b :: bs) = replacement :: decode (b :: bs) := by
      rw [decodeFrom_cons, take, if_neg within]
      rfl
    exact .inr (.inr ⟨ended, not_begins_of_replaced fun bs => (opened.decode_append _).trans (ended bs)⟩)

/-! ## What is replaced -/

/-- The bytes seen are a maximal subpart as soon as no character goes on with the next byte. -/
theorem Opened.maximalSubpart {seen bs : Bytes} {bits more : Nat} {least greatest : UInt8}
    (opened : Opened seen bits more least greatest)
    (ends : ∀ b ∈ bs.head?, ¬ Begins (seen ++ [b])) : MaximalSubpart seen (seen ++ bs) := by
  have within {p : Bytes} (front : p <+: seen ++ bs) (begins : Begins p) : p <+: seen := by
    rcases List.prefix_or_prefix_of_prefix front (List.prefix_append seen bs) with short | long
    · exact short
    obtain ⟨rest, rfl⟩ := long
    cases rest with
    | nil => rw [List.append_nil]
    | cons b rest =>
        obtain ⟨later, rfl⟩ := (List.prefix_append_right_inj seen).mp front
        have early : seen ++ [b] <+: seen ++ b :: rest := by simp
        exact absurd (begins.of_prefix early) (ends b rfl)
  refine ⟨fun c front => opened.not_prefix c (within front ⟨c, List.prefix_rfl⟩), ?_,
    .inl opened.begins, fun p front begins => (within front begins).length_le⟩
  rintro rfl
  exact absurd (opened.decode_append []) nofun

/-- A byte that begins no character is a maximal subpart. -/
theorem maximalSubpart_of_none {b : UInt8} (none : openWith b = ([replacement], .nothing))
    (bs : Bytes) : MaximalSubpart [b] ([b] ++ bs) := by
  have outside : ¬ Begins [b] := by
    rintro ⟨c, rest, whole⟩
    have decoded := decode_utf8EncodeChar c
    rw [← whole, List.singleton_append, decode, decodeFrom_opening none] at decoded
    obtain ⟨same, vanished⟩ := List.cons.inj decoded
    have nothing : rest = [] := by_contra fun some => decode_ne_nil some vanished
    subst nothing same
    exact absurd (show 1 = 3 from congrArg List.length whole) (by decide)
  have empty {p : Bytes} (front : p <+: [b] ++ bs) (begins : Begins p) : p = [] := by
    cases p with
    | nil => rfl
    | cons first rest =>
        obtain ⟨later, same⟩ := front
        obtain rfl := (List.cons.inj same).1
        exact absurd (begins.of_prefix (List.prefix_append [first] rest)) outside
  refine ⟨fun c front => ?_, List.cons_ne_nil b [], .inr rfl, fun p front begins => ?_⟩
  · exact String.utf8EncodeChar_ne_nil (empty front ⟨c, List.prefix_rfl⟩)
  · rw [empty front begins]
    exact Nat.zero_le 1

/-! ## The decoder -/

/-- What is decoded from bytes, and from bytes after an unfinished character. -/
theorem lossy_decodeFrom (bs : Bytes) :
    Lossy bs (decode bs) ∧ ∀ seen bits more least greatest,
      Opened seen bits more least greatest →
        Lossy (seen ++ bs) (decodeFrom (.character bits (more + 1) least greatest) bs) := by
  induction bs with
  | nil =>
      refine ⟨.nil, fun seen bits more least greatest opened => ?_⟩
      exact .replaced (opened.maximalSubpart nofun) .nil
  | cons b bs ih =>
      obtain ⟨fresh, going⟩ := ih
      have whole : Lossy (b :: bs) (decode (b :: bs)) := by
        rw [decode, decodeFrom_cons, take]
        rcases openWith_cases b with ⟨c, own, bytes⟩ | none | ⟨_, _, _, _, opens, opened⟩
        · rw [own, ← List.singleton_append, ← bytes]
          exact .character c fresh
        · rw [none]
          exact .replaced (maximalSubpart_of_none none bs) fresh
        · rw [opens]
          exact going _ _ _ _ _ opened
      refine ⟨whole, fun seen bits more least greatest opened => ?_⟩
      have split : seen ++ b :: bs = seen ++ [b] ++ bs := by simp
      rcases opened.take_cases b with ⟨c, last, bytes⟩ | ⟨_, _, _, _, next, opened'⟩ | ⟨ended, stops⟩
      · rw [split, decodeFrom_cons, last, ← bytes]
        exact .character c fresh
      · rw [split, decodeFrom_cons, next]
        exact going _ _ _ _ _ opened'
      · rw [ended]
        exact .replaced (opened.maximalSubpart fun x first => Option.some.inj first ▸ stops) whole

theorem lossy_decode (bs : Bytes) : Lossy bs (decode bs) := (lossy_decodeFrom bs).1

/-! ## Uniqueness -/

theorem MaximalSubpart.length_le {bad other bs : Bytes} (subpart : MaximalSubpart bad bs)
    (front : bad <+: bs) (another : MaximalSubpart other bs) : bad.length ≤ other.length := by
  rcases subpart.begins_or_single with begins | single
  · exact another.longest bad front begins
  · rw [single]
    exact List.length_pos_iff.mpr another.nonempty

theorem Lossy.cases {bs : Bytes} {cs : List Char} (lossy : Lossy bs cs) :
    (bs = [] ∧ cs = []) ∨
      (∃ c rest ds, bs = String.utf8EncodeChar c ++ rest ∧ cs = c :: ds ∧ Lossy rest ds) ∨
      ∃ bad rest ds, bs = bad ++ rest ∧ cs = replacement :: ds ∧ MaximalSubpart bad bs ∧
        Lossy rest ds := by
  cases lossy with
  | nil => exact .inl ⟨rfl, rfl⟩
  | character c rest => exact .inr (.inl ⟨c, _, _, rfl, rfl, rest⟩)
  | replaced subpart rest => exact .inr (.inr ⟨_, _, _, rfl, rfl, subpart, rest⟩)

theorem Lossy.unique {bs : Bytes} {cs ds : List Char} (first : Lossy bs cs) (second : Lossy bs ds) :
    cs = ds := by
  induction first generalizing ds with
  | nil =>
      rcases second.cases with ⟨-, rfl⟩ | ⟨c, rest, _, same, -⟩ | ⟨bad, rest, _, same, -, subpart, -⟩
      · rfl
      · exact absurd (List.append_eq_nil_iff.mp same.symm).1 String.utf8EncodeChar_ne_nil
      · exact absurd (List.append_eq_nil_iff.mp same.symm).1 subpart.nonempty
  | @character bs cs c rest ih =>
      rcases second.cases with ⟨same, -⟩ | ⟨d, rest', ds, same, rfl, later⟩ | ⟨_, _, _, -, -, subpart, -⟩
      · exact absurd (List.append_eq_nil_iff.mp same).1 String.utf8EncodeChar_ne_nil
      · obtain rfl := eq_of_prefix (List.prefix_append _ bs) ⟨rest', same.symm⟩
        obtain rfl := List.append_cancel_left same
        rw [ih later]
      · exact absurd (List.prefix_append _ bs) (subpart.unreadable c)
  | @replaced bad bs cs subpart rest ih =>
      rcases second.cases with ⟨same, -⟩ | ⟨d, rest', _, same, -⟩ |
        ⟨other, rest', ds, same, rfl, subpart', later⟩
      · exact absurd (List.append_eq_nil_iff.mp same).1 subpart.nonempty
      · exact absurd ⟨rest', same.symm⟩ (subpart.unreadable d)
      · have length := Nat.le_antisymm (subpart.length_le (List.prefix_append bad bs) subpart')
          (subpart'.length_le ⟨rest', same.symm⟩ subpart)
        obtain ⟨rfl, rfl⟩ := List.append_inj same length
        rw [ih later]

/-- The decoder gives the characters that stand for its bytes, and no others. -/
theorem lossy_iff {bs : Bytes} {cs : List Char} : Lossy bs cs ↔ cs = decode bs :=
  ⟨fun lossy => lossy.unique (lossy_decode bs), fun same => same ▸ lossy_decode bs⟩

/-! ## ASCII bytes -/

/-- A character of one byte is read wherever its byte stands. -/
theorem eq_encode_of_ascii_mem {b : UInt8} (ascii : b.toNat < 0x80) {c : Char}
    (member : b ∈ String.utf8EncodeChar c) : String.utf8EncodeChar c = [b] := by
  have code := (mem_utf8EncodeChar_of_ascii ascii).mp member
  rw [utf8EncodeChar_of_ascii (code ▸ ascii), ← code, UInt8.ofNat_toNat]

/-- A character is read from an ASCII byte, or from none. -/
theorem Lossy.mem_of_ascii {bs : Bytes} {cs : List Char} (lossy : Lossy bs cs) {c : Char}
    (member : c ∈ cs) (ascii : c.toNat < 0x80) : UInt8.ofNat c.toNat ∈ bs := by
  induction lossy with
  | nil => cases member
  | character d rest ih =>
      rcases List.mem_cons.mp member with rfl | later
      · rw [utf8EncodeChar_of_ascii ascii]
        exact List.mem_append_left _ List.mem_cons_self
      · exact List.mem_append_right _ (ih later)
  | replaced subpart rest ih =>
      rcases List.mem_cons.mp member with rfl | later
      · exact absurd ascii (by decide)
      · exact List.mem_append_right _ (ih later)

/-- What begins a character does not go on with an ASCII byte. -/
theorem Begins.prefix_of_append {p bs ds : Bytes} (begins : Begins p) (front : p <+: bs ++ ds)
    (nonempty : bs ≠ []) (ascii : ∀ b ∈ ds.head?, b.toNat < 0x80) : p <+: bs := by
  rcases List.prefix_or_prefix_of_prefix front (List.prefix_append bs ds) with short | ⟨rest, rfl⟩
  · exact short
  cases rest with
  | nil => rw [List.append_nil]
  | cons b rest =>
      obtain ⟨later, rfl⟩ := (List.prefix_append_right_inj bs).mp front
      obtain ⟨c, whole⟩ := begins
      have member : b ∈ String.utf8EncodeChar c := whole.subset (by simp)
      have length := whole.length_le
      rw [eq_encode_of_ascii_mem (ascii b rfl) member] at length
      have first := List.length_pos_iff.mpr nonempty
      simp only [List.length_append, List.length_cons, List.length_nil] at length
      omega

theorem Lossy.append {bs ds : Bytes} {cs es : List Char} (first : Lossy bs cs) (second : Lossy ds es)
    (ascii : ∀ b ∈ ds.head?, b.toNat < 0x80) : Lossy (bs ++ ds) (cs ++ es) := by
  induction first with
  | nil => exact second
  | character c rest ih =>
      rw [List.append_assoc]
      exact .character c ih
  | @replaced bad bs cs subpart rest ih =>
      have within {p : Bytes} (front : p <+: bad ++ (bs ++ ds)) (begins : Begins p) :
          p <+: bad ++ bs := by
        rw [← List.append_assoc] at front
        exact begins.prefix_of_append front (List.append_ne_nil_of_left_ne_nil subpart.nonempty bs) ascii
      rw [List.append_assoc]
      refine .replaced ⟨fun c front => ?_, subpart.nonempty, subpart.begins_or_single,
        fun p front begins => subpart.longest p (within front begins) begins⟩ ih
      exact subpart.unreadable c (within front ⟨c, List.prefix_rfl⟩)

/-- Bytes may be decoded in two parts if the second one starts with an ASCII byte. -/
theorem decode_append {bs ds : Bytes} (ascii : ∀ b ∈ ds.head?, b.toNat < 0x80) :
    decode (bs ++ ds) = decode bs ++ decode ds :=
  (lossy_iff.mp ((lossy_decode bs).append (lossy_decode ds) ascii)).symm

theorem decode_cons_of_ascii {b : UInt8} (ascii : b.toNat < 0x80) (bs : Bytes) :
    decode (b :: bs) = Char.ofNat b.toNat :: decode bs := by
  have bytes := (CharBytes.one ascii).utf8EncodeChar_ofNat
  rw [UInt8.ofNat_toNat] at bytes
  rw [← List.singleton_append, ← bytes, decode_character]

/-- A decoded text starts with an ASCII character only if the bytes start with it. -/
theorem head_decode_of_ascii {c : Char} (ascii : c.toNat < 0x80) {bs : Bytes}
    (first : (decode bs).head? = some c) : bs.head? = some (UInt8.ofNat c.toNat) := by
  rcases (lossy_decode bs).cases with ⟨-, none⟩ | ⟨d, rest, _, rfl, decoded, -⟩ | ⟨_, _, _, -, decoded, -⟩
  · rw [none] at first
    cases first
  · rw [decoded] at first
    cases first
    rw [utf8EncodeChar_of_ascii ascii]
    rfl
  · rw [decoded] at first
    cases first
    exact absurd ascii (by decide)

end Worksheet.Text
