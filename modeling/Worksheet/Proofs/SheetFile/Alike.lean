import Worksheet.Proofs.Sheet.Files
import Worksheet.Proofs.SheetFile.Line
import Worksheet.Proofs.Text.Lossy

/-!
Reading bytes and reading the text that they stand for.

A file is read as bytes, and only the payload of a line is decoded. Decoding the whole file first would
come to the same (`load_eq_parse`), because all that the format asks about a byte is which ASCII character
it is. So two byte strings are `Alike` if they have the same ASCII bytes in the same places, and the runs
of other bytes in between decode to the same characters. Any bytes are alike to the bytes of their text, and
every stage of reading takes alike bytes to alike bytes.
-/

namespace Worksheet.SheetFile

open Text

/-! ## Alike bytes -/

/-- The byte of an ASCII character. -/
abbrev IsAscii (b : UInt8) : Prop := b.toNat < 0x80

/-- Nothing follows, or an ASCII byte does. -/
abbrev StartsAscii (bs : Bytes) : Prop := ∀ b ∈ bs.head?, IsAscii b

theorem startsAscii_nil : StartsAscii [] := by
  intro b first
  cases first

/-- Some bytes, none of which is the byte of an ASCII character. -/
structure Run (bs : Bytes) : Prop where
  nonempty : bs ≠ []
  beyond : ∀ b ∈ bs, ¬ IsAscii b

/-- The same ASCII bytes, and between them runs that decode to the same characters. -/
inductive Alike : Bytes → Bytes → Prop where
  | nil : Alike [] []
  | ascii {bs cs : Bytes} (b : UInt8) (ascii : IsAscii b) (rest : Alike bs cs) :
    Alike (b :: bs) (b :: cs)
  | run {xs ys bs cs : Bytes} (first : Run xs) (second : Run ys) (same : decode xs = decode ys)
    (ends : StartsAscii bs) (rest : Alike bs cs) : Alike (xs ++ bs) (ys ++ cs)

theorem Run.not_startsAscii {xs : Bytes} (run : Run xs) (bs : Bytes) : ¬ StartsAscii (xs ++ bs) := by
  obtain ⟨x, xs, rfl⟩ := List.exists_cons_of_ne_nil run.nonempty
  exact fun ends => run.beyond x List.mem_cons_self (ends x rfl)

theorem Run.not_mem {xs : Bytes} (run : Run xs) {b : UInt8} (ascii : IsAscii b) : b ∉ xs :=
  fun member => run.beyond b member ascii

/-- The bytes of the characters that a run decodes to are a run. -/
theorem Run.encodeChars_decode {xs : Bytes} (run : Run xs) : Run (encodeChars (decode xs)) := by
  constructor
  · obtain ⟨c, cs, some⟩ := List.exists_cons_of_ne_nil (decode_ne_nil run.nonempty)
    rw [some, encodeChars_cons]
    exact List.append_ne_nil_of_left_ne_nil String.utf8EncodeChar_ne_nil _
  · intro b member ascii
    obtain ⟨c, decoded, code⟩ := (mem_encodeChars_of_ascii ascii).mp member
    have early := (lossy_decode xs).mem_of_ascii decoded (code ▸ ascii)
    rw [← code, UInt8.ofNat_toNat] at early
    exact run.not_mem ascii early

theorem utf8EncodeChar_ofNat_of_ascii {b : UInt8} (ascii : IsAscii b) :
    String.utf8EncodeChar (Char.ofNat b.toNat) = [b] := by
  rw [(CharBytes.one ascii).utf8EncodeChar_ofNat, UInt8.ofNat_toNat]

/-- Bytes that start with another than an ASCII byte start with a run. -/
theorem exists_run {b : UInt8} (beyond : ¬ IsAscii b) (bs : Bytes) :
    ∃ xs rest, b :: bs = xs ++ rest ∧ Run xs ∧ StartsAscii rest := by
  induction bs generalizing b with
  | nil => exact ⟨[b], [], rfl, ⟨List.cons_ne_nil b [], by simpa using beyond⟩, startsAscii_nil⟩
  | cons c bs ih =>
      by_cases ascii : IsAscii c
      · refine ⟨[b], c :: bs, rfl, ⟨List.cons_ne_nil b [], by simpa using beyond⟩, fun x first => ?_⟩
        exact Option.some.inj first ▸ ascii
      · obtain ⟨xs, rest, same, run, ends⟩ := ih ascii
        exact ⟨b :: xs, rest, congrArg (b :: ·) same,
          ⟨List.cons_ne_nil b xs, List.forall_mem_cons.mpr ⟨beyond, run.beyond⟩⟩, ends⟩

/-- Any bytes are alike to the bytes of their text. -/
theorem alike_encodeChars_decode (bs : Bytes) : Alike bs (encodeChars (decode bs)) := by
  induction length : bs.length using Nat.strong_induction_on generalizing bs with
  | _ n ih =>
  cases bs with
  | nil => exact .nil
  | cons b bs =>
      rw [List.length_cons] at length
      by_cases ascii : IsAscii b
      · rw [decode_cons_of_ascii ascii, encodeChars_cons, utf8EncodeChar_ofNat_of_ascii ascii]
        exact .ascii b ascii (ih bs.length (by omega) bs rfl)
      · obtain ⟨xs, rest, same, run, ends⟩ := exists_run ascii bs
        have shorter := congrArg List.length same
        have some := List.length_pos_iff.mpr run.nonempty
        rw [List.length_cons, List.length_append] at shorter
        rw [same, decode_append ends, encodeChars_append]
        exact .run run run.encodeChars_decode (decode_encodeChars _).symm ends
          (ih rest.length (by omega) rest rfl)

/-! ## Stages of reading -/

/-- A test that only ASCII bytes pass. -/
abbrev AsciiOnly (p : UInt8 → Bool) : Prop := ∀ b, p b = true → IsAscii b

namespace Run

variable {xs : Bytes} (run : Run xs)

include run

theorem fails {p : UInt8 → Bool} (only : AsciiOnly p) : ∀ x ∈ xs, p x = false :=
  fun x member => eq_false_of_ne_true fun passes => run.beyond x member (only x passes)

theorem takeWhile_append {p : UInt8 → Bool} (only : AsciiOnly p) (bs : Bytes) :
    (xs ++ bs).takeWhile p = [] :=
  takeWhile_append_of_none run.nonempty (run.fails only) bs

end Run

theorem isAscii_of_escaped? {b x : UInt8} (stands : escaped? b = some x) : IsAscii b ∧ IsAscii x := by
  unfold escaped? backslash at stands
  split at stands
  · next letter => cases stands; subst letter; decide
  split at stands
  · next letter => cases stands; subst letter; decide
  split at stands
  · next letter => cases stands; subst letter; decide
  · cases stands

theorem Run.unescape_backslash {xs : Bytes} (run : Run xs) (bs : Bytes) :
    unescape (backslash :: (xs ++ bs)) = backslash :: unescape (xs ++ bs) := by
  obtain ⟨x, xs, rfl⟩ := List.exists_cons_of_ne_nil run.nonempty
  cases stands : escaped? x with
  | none => rw [List.cons_append, SheetFile.unescape_backslash, stands]
  | some y => exact absurd (isAscii_of_escaped? stands).1 (run.beyond x List.mem_cons_self)

theorem startsAscii_unescape {bs : Bytes} (ends : StartsAscii bs) : StartsAscii (unescape bs) := by
  cases bs with
  | nil => exact ends
  | cons b bs =>
      have ascii := ends b rfl
      by_cases marked : b = backslash
      · subst marked
        cases bs with
        | nil => exact ends
        | cons c bs =>
            rw [unescape_backslash]
            cases stands : escaped? c with
            | none => exact fun x first => Option.some.inj first ▸ ascii
            | some y => exact fun x first => Option.some.inj first ▸ (isAscii_of_escaped? stands).2
      · rw [unescape_cons_of_ne marked]
        exact fun x first => Option.some.inj first ▸ ascii

theorem lines_run {xs : Bytes} (run : Run xs) (bs : Bytes) : lines (xs ++ bs) =
    match lines bs with
    | [] => [xs]
    | l :: ls => (xs ++ l) :: ls := by
  obtain ⟨nonempty, beyond⟩ := run
  induction xs with
  | nil => exact absurd rfl nonempty
  | cons x xs ih =>
      obtain ⟨first, later⟩ := List.forall_mem_cons.mp beyond
      have other : x ≠ 0x0a := fun same => first (by rw [same]; decide)
      rw [List.cons_append, lines, if_neg other]
      cases xs with
      | nil => rfl
      | cons y xs =>
          rw [ih (List.cons_ne_nil y xs) later]
          cases lines bs with
          | nil => rfl
          | cons l ls => rfl

theorem startsAscii_line {bs l : Bytes} {ls : List Bytes} (ends : StartsAscii bs)
    (parts : lines bs = l :: ls) : StartsAscii l := by
  cases bs with
  | nil => cases parts
  | cons b bs =>
      have ascii := ends b rfl
      rw [lines] at parts
      split at parts
      · cases parts
        exact startsAscii_nil
      · split at parts <;> cases parts <;> exact fun x first => Option.some.inj first ▸ ascii

namespace Alike

variable {bs cs : Bytes}

theorem startsAscii (alike : Alike bs cs) (ends : StartsAscii bs) : StartsAscii cs := by
  cases alike with
  | nil => exact ends
  | ascii b ascii rest => exact ends
  | @run xs _ bs _ first => exact absurd ends (first.not_startsAscii bs)

/-- Alike bytes decode to the same characters. -/
theorem decode_eq (alike : Alike bs cs) : decode bs = decode cs := by
  induction alike with
  | nil => rfl
  | ascii b ascii rest ih => rw [decode_cons_of_ascii ascii, decode_cons_of_ascii ascii, ih]
  | run first second same ends rest ih =>
      rw [decode_append ends, decode_append (rest.startsAscii ends), same, ih]

section Test

variable {p : UInt8 → Bool} (only : AsciiOnly p)

include only

theorem dropWhile (alike : Alike bs cs) : Alike (bs.dropWhile p) (cs.dropWhile p) := by
  induction alike with
  | nil => exact .nil
  | ascii b ascii rest ih =>
      rw [List.dropWhile_cons, List.dropWhile_cons]
      split
      · exact ih
      · exact .ascii b ascii rest
  | @run xs ys bs cs first second same ends rest ih =>
      rw [dropWhile_append_of_none first.nonempty (first.fails only) bs,
        dropWhile_append_of_none second.nonempty (second.fails only) cs]
      exact .run first second same ends rest

theorem takeWhile (alike : Alike bs cs) : bs.takeWhile p = cs.takeWhile p := by
  induction alike with
  | nil => rfl
  | ascii b ascii rest ih => rw [List.takeWhile_cons, List.takeWhile_cons, ih]
  | run first second same ends rest ih =>
      rw [first.takeWhile_append only, second.takeWhile_append only]

end Test

/-! ### Escapes -/

/-- Alike bytes are alike when their escapes are undone, also after a backslash. -/
theorem unescape_and (alike : Alike bs cs) : Alike (unescape bs) (unescape cs) ∧
    Alike (unescape (backslash :: bs)) (unescape (backslash :: cs)) := by
  have backslashAscii : IsAscii backslash := by decide
  induction alike with
  | nil => exact ⟨.nil, .ascii backslash backslashAscii .nil⟩
  | @ascii bs cs b ascii rest ih =>
      have whole : Alike (unescape (b :: bs)) (unescape (b :: cs)) := by
        by_cases marked : b = backslash
        · rw [marked]
          exact ih.2
        · rw [unescape_cons_of_ne marked, unescape_cons_of_ne marked]
          exact .ascii b ascii ih.1
      refine ⟨whole, ?_⟩
      rw [unescape_backslash, unescape_backslash]
      cases stands : escaped? b with
      | none => exact .ascii backslash backslashAscii whole
      | some x => exact .ascii x (isAscii_of_escaped? stands).2 ih.1
  | @run xs ys bs cs first second same ends rest ih =>
      have whole : Alike (unescape (xs ++ bs)) (unescape (ys ++ cs)) := by
        rw [unescape_append (first.not_mem backslashAscii),
          unescape_append (second.not_mem backslashAscii)]
        exact .run first second same (startsAscii_unescape ends) ih.1
      refine ⟨whole, ?_⟩
      rw [first.unescape_backslash, second.unescape_backslash]
      exact .ascii backslash backslashAscii whole

theorem unescape (alike : Alike bs cs) : Alike (unescape bs) (unescape cs) := alike.unescape_and.1

/-! ### Lines -/

/-- Alike bytes have alike lines. -/
theorem lines (alike : Alike bs cs) : List.Forall₂ Alike (lines bs) (lines cs) := by
  induction alike with
  | nil => exact .nil
  | @ascii bs cs b ascii rest ih =>
      rw [SheetFile.lines, SheetFile.lines]
      split
      · exact .cons .nil ih
      · generalize SheetFile.lines bs = ls at ih
        generalize SheetFile.lines cs = ms at ih
        cases ih with
        | nil => exact .cons (.ascii b ascii .nil) .nil
        | cons line later => exact .cons (.ascii b ascii line) later
  | @run xs ys bs cs first second same ends rest ih =>
      rw [lines_run first, lines_run second]
      generalize parts : SheetFile.lines bs = ls at ih
      generalize SheetFile.lines cs = ms at ih
      cases ih with
      | nil =>
          have alone := run first second same startsAscii_nil .nil
          rw [List.append_nil, List.append_nil] at alone
          exact .cons alone .nil
      | cons line later =>
          exact .cons (.run first second same (startsAscii_line ends parts) line) later

/-! ### Numbers and texts -/

theorem asciiOnly_isSpace : AsciiOnly isSpace := by
  intro b space
  simp only [isSpace, Bool.or_eq_true, decide_eq_true_eq] at space
  rcases space with (((rfl | rfl) | rfl) | rfl) | rfl <;> decide

theorem asciiOnly_isSeparator : AsciiOnly isSeparator := by
  intro b separator
  simp only [isSeparator, Bool.or_eq_true, decide_eq_true_eq] at separator
  rcases separator with rfl | rfl <;> decide

theorem asciiOnly_isDigit : AsciiOnly isDigit := by
  intro b digit
  simp only [isDigit, UInt8.le_iff_toNat_le, Bool.and_eq_true, decide_eq_true_eq] at digit
  exact Nat.lt_of_le_of_lt digit.2 (by decide)

/-- Alike bytes start with the same number, or both with none. -/
theorem readNumber (alike : Alike bs cs) :
    (readNumber bs = none ∧ readNumber cs = none) ∨
      ∃ n rest rest', readNumber bs = some (n, rest) ∧ readNumber cs = some (n, rest') ∧
        Alike rest rest' := by
  unfold SheetFile.readNumber
  rw [← alike.takeWhile asciiOnly_isDigit]
  dsimp only
  split
  · exact .inr ⟨_, _, _, rfl, rfl, alike.dropWhile asciiOnly_isDigit⟩
  · exact .inl ⟨rfl, rfl⟩

/-- Alike lines say the same. -/
theorem readLine (alike : Alike bs cs) : readLine bs = readLine cs := by
  unfold SheetFile.readLine
  dsimp only
  rcases (alike.dropWhile asciiOnly_isSpace).readNumber with
    ⟨none, none'⟩ | ⟨row, afterRow, afterRow', some, some', rest⟩
  · rw [none, none']
  rw [some, some']
  rcases (rest.dropWhile asciiOnly_isSpace).readNumber with
    ⟨none, none'⟩ | ⟨column, afterColumn, afterColumn', some, some', payload⟩
  · simp only [Option.bind_eq_bind, Option.bind_some, none, none', Option.bind_none]
  · simp only [Option.bind_eq_bind, Option.bind_some, some, some']
    rw [(payload.dropWhile asciiOnly_isSeparator).unescape.decode_eq]

/-- Alike files hold the same. -/
theorem read (alike : Alike bs cs) : read bs = read cs := by
  have same {ls ms : List Bytes} (lines : List.Forall₂ Alike ls ms) (c : Contents) :
      ls.foldl Contents.addLine c = ms.foldl Contents.addLine c := by
    induction lines generalizing c with
    | nil => rfl
    | cons line later ih =>
        rw [List.foldl_cons, List.foldl_cons, Contents.addLine, line.readLine, ← Contents.addLine, ih]
  exact same alike.lines .empty

end Alike

end Worksheet.SheetFile

namespace Worksheet

/-- A file that can be opened gives `load` what its text gives `parse`: the same texts of cells, the same
number of stored lines and the same places that are passed over. Its text has the characters that stand for
its bytes, so that each maximal subpart that is no character is replaced; and the bytes of a text give that
text. -/
theorem Sheet.load_eq_parse (s t : Sheet) {disk : Disk} {path : String} {bytes : Text.Bytes}
    (holds : disk.open? path = .ok (.file bytes)) :
    ∃ content : String, (∀ cs, Text.Lossy bytes cs ↔ cs = content.toList) ∧
      (∀ text, bytes = Text.encode text → content = text) ∧
      let (result, outside, loaded) := s.load disk path
      let (contents, parsed) := t.parse (Text.encode content)
      result = .ok contents.stored ∧ loaded.texts = parsed.texts ∧ outside = contents.outside := by
  have whole : disk.read path = .whole bytes := by rw [Disk.read, holds]
  have same : SheetFile.read bytes =
      SheetFile.read (Text.encode (String.ofList (Text.decode bytes))) := by
    rw [Text.encode_ofList]
    exact (SheetFile.alike_encodeChars_decode bytes).read
  refine ⟨String.ofList (Text.decode bytes), fun cs => ?_, ?_, ?_⟩
  · rw [String.toList_ofList]
    exact Text.lossy_iff
  · rintro text rfl
    rw [← String.ofList_toList (s := text), Text.encode_ofList, Text.decode_encodeChars]
  · rw [Sheet.load, whole, Sheet.loaded, Sheet.parse, Sheet.parse, same]
    exact ⟨rfl, rfl, rfl⟩

/-- The line of the first cell, with two characters that are torn off, one before an escape and one at the
end. -/
def tornLine : Text.Bytes :=
  [0x30, 0x20, 0x30, 0x20, 0xe2, 0x82, 0x5c, 0x6e, 0xff, 0x0a, 0xf0, 0x9f]

theorem Sheet.load_eq_parse_of_tornLine :
    let disk : Disk := ⟨[(["f"], .file tornLine)]⟩
    let content := "0 0 \ufffd\\n\ufffd\n\ufffd"
    disk.open? "f" = .ok (.file tornLine) ∧ content.toList = Text.decode tornLine ∧
      (Sheet.empty.load disk "f").1 = .ok (Sheet.empty.parse (Text.encode content)).1.stored := by
  intro disk content
  have holds : disk.open? "f" = .ok (.file tornLine) := by
    rw [Disk.open?_of_isName Disk.isName_f]
    rfl
  have decoded : content.toList = Text.decode tornLine := by decide
  obtain ⟨text, stands, -, result, -, -⟩ := Sheet.empty.load_eq_parse Sheet.empty holds
  have same : text = content :=
    String.toList_inj.mp ((stands _).mp (Text.lossy_iff.mpr decoded)).symm
  exact ⟨holds, decoded, same ▸ result⟩

end Worksheet
