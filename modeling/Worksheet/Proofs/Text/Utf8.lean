import Worksheet.Text.Utf8

/-!
Decoding undoes encoding.

* `decode_encodeChars`: the bytes of any characters decode to these characters, with no replacement
  in between.
* `mem_encodeChars_of_ascii`: an ASCII byte occurs among the bytes only as the ASCII character that
  it stands for, and never as a part of another one.

Both go character by character. The machine's bounds on the second byte of a character shut out the
long forms and the surrogates, so the cases follow the number of bytes, and the bounds on the code
settle what is left.
-/

namespace Worksheet.Text

/-- The UTF-8 bytes of characters. -/
def encodeChars (cs : List Char) : Bytes :=
  cs.flatMap String.utf8EncodeChar

theorem encode_ofList (cs : List Char) : encode (String.ofList cs) = encodeChars cs := by
  rw [encode, String.toUTF8_eq_toByteArray, String.toByteArray_ofList, List.utf8Encode,
    List.toList_data_toByteArray, encodeChars]

@[simp] theorem encodeChars_nil : encodeChars [] = [] := rfl

@[simp] theorem encodeChars_cons (c : Char) (cs : List Char) :
    encodeChars (c :: cs) = String.utf8EncodeChar c ++ encodeChars cs := rfl

@[simp] theorem encodeChars_append (cs ds : List Char) :
    encodeChars (cs ++ ds) = encodeChars cs ++ encodeChars ds :=
  List.flatMap_append

theorem toNat_ofNat_of_lt {n : Nat} (byte : n < 256) : (UInt8.ofNat n).toNat = n := by
  rw [UInt8.toNat_ofNat']
  omega

theorem toNat_ofNat_of_valid {v : Nat} (valid : v.isValidChar) : (Char.ofNat v).toNat = v := by
  have character : Char.ofNat v = Char.ofNatAux v valid := dif_pos valid
  rw [character]
  rfl

theorem decodeFrom_cons (u : Unfinished) (b : UInt8) (bs : Bytes) :
    decodeFrom u (b :: bs) = (take u b).1 ++ decodeFrom (take u b).2 bs := rfl

/-! ## Leading bytes -/

theorem openWith_one {n : Nat} (high : n < 0x80) :
    openWith (UInt8.ofNat n) = ([Char.ofNat n], .nothing) := by
  rw [openWith, toNat_ofNat_of_lt (by omega), if_pos high]

theorem openWith_two {n : Nat} (low : 0xc2 ≤ n) (high : n ≤ 0xdf) :
    openWith (UInt8.ofNat n) = ([], .character (n - 0xc0) 1 0x80 0xbf) := by
  rw [openWith, toNat_ofNat_of_lt (by omega), if_neg (by omega), if_pos ⟨low, high⟩]

theorem openWith_three {n : Nat} (low : 0xe0 ≤ n) (high : n ≤ 0xef) :
    ∃ least greatest : UInt8,
      openWith (UInt8.ofNat n) = ([], .character (n - 0xe0) 2 least greatest) ∧
        least.toNat = (if n = 0xe0 then 0xa0 else 0x80) ∧
        greatest.toNat = if n = 0xed then 0x9f else 0xbf := by
  rw [openWith, toNat_ofNat_of_lt (by omega), if_neg (by omega), if_neg (by omega)]
  by_cases long : n = 0xe0
  · subst long
    exact ⟨0xa0, 0xbf, rfl, rfl, rfl⟩
  by_cases surrogate : n = 0xed
  · subst surrogate
    exact ⟨0x80, 0x9f, rfl, rfl, rfl⟩
  rw [if_neg long, if_neg surrogate, if_pos (by omega), if_neg long, if_neg surrogate]
  exact ⟨0x80, 0xbf, rfl, rfl, rfl⟩

theorem openWith_four {n : Nat} (low : 0xf0 ≤ n) (high : n ≤ 0xf4) :
    ∃ least greatest : UInt8,
      openWith (UInt8.ofNat n) = ([], .character (n - 0xf0) 3 least greatest) ∧
        least.toNat = (if n = 0xf0 then 0x90 else 0x80) ∧
        greatest.toNat = if n = 0xf4 then 0x8f else 0xbf := by
  rw [openWith, toNat_ofNat_of_lt (by omega), if_neg (by omega), if_neg (by omega),
    if_neg (by omega), if_neg (by omega), if_neg (by omega)]
  by_cases long : n = 0xf0
  · subst long
    exact ⟨0x90, 0xbf, rfl, rfl, rfl⟩
  by_cases last : n = 0xf4
  · subst last
    exact ⟨0x80, 0x8f, rfl, rfl, rfl⟩
  rw [if_neg long, if_neg last, if_pos (by omega), if_neg long, if_neg last]
  exact ⟨0x80, 0xbf, rfl, rfl, rfl⟩

theorem decodeFrom_opening {b : UInt8} {bs : Bytes} {cs : List Char} {u : Unfinished}
    (opens : openWith b = (cs, u)) : decodeFrom .nothing (b :: bs) = cs ++ decodeFrom u bs := by
  rw [decodeFrom_cons, take, opens]

/-! ## Bytes that go on -/

/-- The byte that carries the last six bits of `v`. -/
def tailByte (v : Nat) : UInt8 := UInt8.ofNat (v % 0x40 + 0x80)

theorem toNat_tailByte (v : Nat) : (tailByte v).toNat = v % 0x40 + 0x80 :=
  toNat_ofNat_of_lt (by omega)

section Tail

variable {bits needed v : Nat} {least greatest : UInt8} {bs : Bytes}

theorem take_tailByte (low : least.toNat ≤ v % 0x40 + 0x80)
    (high : v % 0x40 + 0x80 ≤ greatest.toNat) :
    take (.character bits needed least greatest) (tailByte v) =
      if needed ≤ 1 then ([Char.ofNat (bits * 0x40 + v % 0x40)], .nothing)
      else ([], .character (bits * 0x40 + v % 0x40) (needed - 1) 0x80 0xbf) := by
  have within : least ≤ tailByte v ∧ tailByte v ≤ greatest := by
    rw [UInt8.le_iff_toNat_le, UInt8.le_iff_toNat_le, toNat_tailByte]
    exact ⟨low, high⟩
  rw [take, if_pos within, toNat_tailByte, Nat.add_sub_cancel]

theorem decodeFrom_tailByte_last (low : least.toNat ≤ v % 0x40 + 0x80)
    (high : v % 0x40 + 0x80 ≤ greatest.toNat) (whole : bits * 0x40 + v % 0x40 = v) :
    decodeFrom (.character bits 1 least greatest) (tailByte v :: bs) =
      Char.ofNat v :: decodeFrom .nothing bs := by
  rw [decodeFrom_cons, take_tailByte low high, if_pos (Nat.le_refl 1), whole]
  rfl

theorem decodeFrom_tailByte (low : least.toNat ≤ v % 0x40 + 0x80)
    (high : v % 0x40 + 0x80 ≤ greatest.toNat) (more : 1 < needed) :
    decodeFrom (.character bits needed least greatest) (tailByte v :: bs) =
      decodeFrom (.character (bits * 0x40 + v % 0x40) (needed - 1) 0x80 0xbf) bs := by
  rw [decodeFrom_cons, take_tailByte low high, if_neg (by omega)]
  rfl

end Tail

/-! ## Whole characters -/

/-- The bytes of a character with code `v`. -/
inductive CharBytes (v : Nat) : Bytes → Prop
  | one : v < 0x80 → CharBytes v [UInt8.ofNat v]
  | two : 0x80 ≤ v → v < 0x800 →
    CharBytes v [UInt8.ofNat (v / 0x40 % 0x20 + 0xc0), tailByte v]
  | three : 0x800 ≤ v → v < 0x10000 → v < 0xd800 ∨ 0xdfff < v →
    CharBytes v [UInt8.ofNat (v / 0x1000 % 0x10 + 0xe0), tailByte (v / 0x40), tailByte v]
  | four : 0x10000 ≤ v → v < 0x110000 →
    CharBytes v [UInt8.ofNat (v / 0x40000 % 0x08 + 0xf0), tailByte (v / 0x1000),
      tailByte (v / 0x40), tailByte v]

theorem charBytes_utf8EncodeChar (c : Char) : CharBytes c.toNat (String.utf8EncodeChar c) := by
  have valid := c.valid
  simp only [UInt32.isValidChar, Nat.isValidChar] at valid
  unfold String.utf8EncodeChar Char.toNat
  generalize c.val.toNat = v at valid ⊢
  dsimp only
  split
  · exact .one (by omega)
  split
  · exact .two (by omega) (by omega)
  split
  · exact .three (by omega) (by omega) (by omega)
  · exact .four (by omega) (by omega)

theorem CharBytes.decodeFrom {v : Nat} {char : Bytes} (bytes : CharBytes v char) (bs : Bytes) :
    decodeFrom .nothing (char ++ bs) = Char.ofNat v :: decodeFrom .nothing bs := by
  have least : (0x80 : UInt8).toNat = 0x80 := rfl
  have greatest : (0xbf : UInt8).toNat = 0xbf := rfl
  cases bytes with
  | one high => exact decodeFrom_opening (openWith_one high)
  | two low high =>
      have opens := openWith_two (n := v / 0x40 % 0x20 + 0xc0) (by omega) (by omega)
      refine (decodeFrom_opening opens).trans ?_
      exact decodeFrom_tailByte_last (by omega) (by omega) (by omega)
  | three low high valid =>
      obtain ⟨_, _, opens, first, last⟩ :=
        openWith_three (n := v / 0x1000 % 0x10 + 0xe0) (by omega) (by omega)
      refine (decodeFrom_opening opens).trans ?_
      refine (decodeFrom_tailByte (by split at first <;> omega) (by split at last <;> omega)
        (by decide)).trans ?_
      exact decodeFrom_tailByte_last (by omega) (by omega) (by omega)
  | four low high =>
      obtain ⟨_, _, opens, first, last⟩ :=
        openWith_four (n := v / 0x40000 % 0x08 + 0xf0) (by omega) (by omega)
      refine (decodeFrom_opening opens).trans ?_
      refine (decodeFrom_tailByte (by split at first <;> omega) (by split at last <;> omega)
        (by decide)).trans ?_
      refine (decodeFrom_tailByte (by omega) (by omega) (by decide)).trans ?_
      exact decodeFrom_tailByte_last (by omega) (by omega) (by omega)

theorem decode_encodeChars (cs : List Char) : decode (encodeChars cs) = cs := by
  rw [decode]
  induction cs with
  | nil => rfl
  | cons c cs ih =>
      rw [encodeChars_cons, (charBytes_utf8EncodeChar c).decodeFrom, Char.ofNat_toNat, ih]

/-! ## ASCII bytes -/

theorem le_toNat_tailByte (v : Nat) : 0x80 ≤ (tailByte v).toNat := by
  rw [toNat_tailByte]
  omega

/-- A character beyond ASCII has no ASCII byte. -/
theorem CharBytes.ascii_or {v : Nat} {char : Bytes} (bytes : CharBytes v char) :
    (v < 0x80 ∧ char = [UInt8.ofNat v]) ∨ (0x80 ≤ v ∧ ∀ b ∈ char, 0x80 ≤ b.toNat) := by
  have lead {n : Nat} (low : 0x80 ≤ n) (byte : n < 256) : 0x80 ≤ (UInt8.ofNat n).toNat := by
    rwa [toNat_ofNat_of_lt byte]
  cases bytes with
  | one high => exact .inl ⟨high, rfl⟩
  | two low =>
      refine .inr ⟨low, List.forall_mem_cons.mpr ⟨lead (by omega) (by omega), ?_⟩⟩
      simp [le_toNat_tailByte]
  | three low =>
      refine .inr ⟨by omega, List.forall_mem_cons.mpr ⟨lead (by omega) (by omega), ?_⟩⟩
      simp [le_toNat_tailByte]
  | four low =>
      refine .inr ⟨by omega, List.forall_mem_cons.mpr ⟨lead (by omega) (by omega), ?_⟩⟩
      simp [le_toNat_tailByte]

theorem utf8EncodeChar_of_ascii {c : Char} (ascii : c.toNat < 0x80) :
    String.utf8EncodeChar c = [UInt8.ofNat c.toNat] := by
  rcases (charBytes_utf8EncodeChar c).ascii_or with ⟨-, bytes⟩ | ⟨low, -⟩
  · exact bytes
  · omega

theorem encodeChars_of_ascii {cs : List Char} (ascii : ∀ c ∈ cs, c.toNat < 0x80) :
    encodeChars cs = cs.map fun c => UInt8.ofNat c.toNat := by
  induction cs with
  | nil => rfl
  | cons c cs ih =>
      obtain ⟨first, rest⟩ := List.forall_mem_cons.mp ascii
      rw [encodeChars_cons, utf8EncodeChar_of_ascii first, ih rest, List.map_cons,
        List.singleton_append]

theorem mem_utf8EncodeChar_of_ascii {b : UInt8} (ascii : b.toNat < 0x80) {c : Char} :
    b ∈ String.utf8EncodeChar c ↔ b.toNat = c.toNat := by
  rcases (charBytes_utf8EncodeChar c).ascii_or with ⟨high, bytes⟩ | ⟨low, high⟩
  · rw [bytes, List.mem_singleton, ← UInt8.toNat_inj, toNat_ofNat_of_lt (by omega)]
  · constructor
    · intro member
      have := high b member
      omega
    · omega

theorem mem_encodeChars_of_ascii {b : UInt8} (ascii : b.toNat < 0x80) {cs : List Char} :
    b ∈ encodeChars cs ↔ ∃ c ∈ cs, b.toNat = c.toNat := by
  simp only [encodeChars, List.mem_flatMap, mem_utf8EncodeChar_of_ascii ascii]

end Worksheet.Text
