import Worksheet.Proofs.Text.Utf8

/-!
Where bytes of UTF-8 may be split.

The first byte of a character tells that a character begins there, and no other byte of it does
(`CharBytes.opens`). So among the bytes of characters the places between two of them can be told by
looking at one byte: `isBoundary_front` and `isBoundary_inside`.
-/

namespace Worksheet.Text

/-! ## Lengths -/

theorem encode_eq (s : String) : encode s = encodeChars s.toList := by
  rw [← encode_ofList, String.ofList_toList]

theorem length_encodeChars (cs : List Char) :
    (encodeChars cs).length = (String.ofList cs).utf8ByteSize := by
  induction cs with
  | nil => rfl
  | cons c cs ih =>
      rw [encodeChars_cons, List.length_append, ih, String.length_utf8EncodeChar, String.ofList_cons,
        String.utf8ByteSize_append, String.utf8ByteSize_singleton]

theorem length_encode (s : String) : (encode s).length = s.utf8ByteSize := by
  rw [encode_eq, length_encodeChars, String.ofList_toList]

theorem decode?_encode (s : String) : decode? (encode s) = some s :=
  dif_pos s.isValidUTF8

theorem encode_inj {s t : String} : encode s = encode t ↔ s = t := by
  refine ⟨fun same => ?_, fun same => same ▸ rfl⟩
  have decoded := congrArg decode? same
  rw [decode?_encode, decode?_encode] at decoded
  exact Option.some.inj decoded

/-! ## Boundaries -/

/-- A character may begin with this byte. -/
def opensCharacter (b : UInt8) : Bool := b < 0x80 || 0xc0 ≤ b

/-- A place where bytes may be split: an end of them, or where a character may begin. -/
def isBoundary (bs : Bytes) (place : Nat) : Bool :=
  place = 0 || place = bs.length || bs[place]?.any opensCharacter

theorem opensCharacter_iff {b : UInt8} :
    opensCharacter b = true ↔ b.toNat < 0x80 ∨ 0xc0 ≤ b.toNat := by
  rw [opensCharacter, Bool.or_eq_true, decide_eq_true_iff, decide_eq_true_iff, UInt8.lt_iff_toNat_lt,
    UInt8.le_iff_toNat_le]
  rfl

theorem opensCharacter_tailByte (v : Nat) : opensCharacter (tailByte v) = false := by
  rw [← Bool.not_eq_true, opensCharacter_iff, toNat_tailByte]
  omega

theorem CharBytes.opens {v : Nat} {char : Bytes} (bytes : CharBytes v char) :
    ∃ b rest, char = b :: rest ∧ opensCharacter b = true ∧
      ∀ x ∈ rest, opensCharacter x = false := by
  have lead {n : Nat} (low : n < 0x80 ∨ 0xc0 ≤ n) (byte : n < 256) :
      opensCharacter (UInt8.ofNat n) = true := by
    rwa [opensCharacter_iff, toNat_ofNat_of_lt byte]
  cases bytes with
  | one high => exact ⟨_, _, rfl, lead (.inl high) (by omega), nofun⟩
  | two low =>
      refine ⟨_, _, rfl, lead (.inr (by omega)) (by omega), ?_⟩
      simp [opensCharacter_tailByte]
  | three low =>
      refine ⟨_, _, rfl, lead (.inr (by omega)) (by omega), ?_⟩
      simp [opensCharacter_tailByte]
  | four low =>
      refine ⟨_, _, rfl, lead (.inr (by omega)) (by omega), ?_⟩
      simp [opensCharacter_tailByte]

section Places

variable (front rest : List Char) (c : Char)

/-- A byte of a character that stands between others. -/
theorem getElem?_encodeChars {i : Nat} (inside : i < c.utf8Size) :
    (encodeChars (front ++ c :: rest))[(encodeChars front).length + i]? =
      (String.utf8EncodeChar c)[i]? := by
  rw [encodeChars_append, encodeChars_cons, List.getElem?_append_right (Nat.le_add_right _ _),
    Nat.add_sub_cancel_left, List.getElem?_append_left (by rwa [String.length_utf8EncodeChar])]

theorem isBoundary_front :
    isBoundary (encodeChars (front ++ c :: rest)) (encodeChars front).length = true := by
  obtain ⟨b, tail, bytes, opens, -⟩ := (charBytes_utf8EncodeChar c).opens
  have first := getElem?_encodeChars front rest c c.utf8Size_pos
  rw [bytes, Nat.add_zero, List.getElem?_cons_zero] at first
  rw [isBoundary, first, Option.any_some, opens, Bool.or_true]

theorem isBoundary_inside {i : Nat} (past : 0 < i) (inside : i < c.utf8Size) :
    isBoundary (encodeChars (front ++ c :: rest)) ((encodeChars front).length + i) = false := by
  obtain ⟨b, tail, bytes, -, others⟩ := (charBytes_utf8EncodeChar c).opens
  have width := String.length_utf8EncodeChar c
  have here := getElem?_encodeChars front rest c inside
  obtain ⟨j, rfl⟩ := Nat.exists_eq_add_of_lt past
  rw [Nat.zero_add] at inside here ⊢
  rw [bytes, List.length_cons] at width
  have short : j < tail.length := by omega
  rw [bytes, List.getElem?_cons_succ, List.getElem?_eq_getElem short] at here
  have notFirst : (encodeChars front).length + (j + 1) ≠ 0 := by omega
  have notEnd : (encodeChars front).length + (j + 1) ≠ (encodeChars (front ++ c :: rest)).length := by
    rw [encodeChars_append, encodeChars_cons, List.length_append, List.length_append,
      String.length_utf8EncodeChar]
    omega
  rw [isBoundary, here, Option.any_some, others _ (List.getElem_mem _), decide_eq_false notFirst,
    decide_eq_false notEnd]
  rfl

end Places

end Worksheet.Text
