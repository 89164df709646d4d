import Worksheet.Proofs.CellText.Cut
import Worksheet.Proofs.Sheet.Files
import Worksheet.Proofs.SheetFile.RoundTrip
import Worksheet.Proofs.Text.Lossy
import Mathlib.Logic.Function.Iterate

/-!
Loading, saving and loading again.

A file may hold any bytes. What is loaded from it never starts with a space (`plain_read`), and
such texts are just those that the format gives back unchanged. Hence one save puts the file into a form
that further loads and saves keep: `resave_stable`.

That no text starts with a space needs an argument for each stage of reading: the separator takes all
spaces and tabs, no escape stands for a space, and decoding gives one only for its own byte.
-/

namespace Worksheet

/-! ## What is read starts with no space -/

theorem CellText.head_ofString {cs : List Char} {c : Char}
    (first : (ofString (String.ofList cs)).chars.head? = some c) : cs.head? = some c := by
  obtain ⟨rest, whole⟩ := (cutOf_ofString (String.ofList cs)).isPrefix
  rw [String.toList_ofList] at whole
  rw [← whole, List.head?_append, first, Option.some_or]

namespace SheetFile

open Text (Bytes)

/-- No escape stands for a space. -/
theorem escaped?_ne_space (b : UInt8) : escaped? b ≠ some 0x20 := by
  unfold escaped? backslash
  split
  · decide
  split
  · decide
  split
  · decide
  · nofun

theorem head_unescape {bs : Bytes} (first : (unescape bs).head? = some 0x20) :
    bs.head? = some 0x20 := by
  cases bs with
  | nil => cases first
  | cons b bs =>
      by_cases marked : b = backslash
      · subst marked
        cases bs with
        | nil => exact first
        | cons c rest =>
            rw [unescape_backslash] at first
            split at first
            · next x stands => exact absurd (stands.trans first) (escaped?_ne_space c)
            · exact first
      · rw [unescape_cons_of_ne marked] at first
        exact first

theorem head_readLine {line : Bytes} {l : Line} (read : readLine line = some l) :
    l.text.chars.head? ≠ some ' ' := by
  intro first
  unfold readLine at read
  dsimp only [Option.bind_eq_bind] at read
  obtain ⟨⟨row, afterRow⟩, -, read⟩ := Option.bind_eq_some_iff.mp read
  obtain ⟨⟨column, afterColumn⟩, -, read⟩ := Option.bind_eq_some_iff.mp read
  cases read
  have opened := head_unescape (Text.head_decode_of_ascii (by decide)
    (CellText.head_ofString first))
  have separated := List.head?_dropWhile_not isSeparator afterColumn
  rw [opened] at separated
  exact absurd separated (by decide)

/-- No text starts with a space. -/
def Contents.Plain (c : Contents) : Prop := ∀ a, (c.texts.get a).chars.head? ≠ some ' '

theorem Contents.plain_empty : empty.Plain := by
  intro a
  rw [empty, Grid.get_fill]
  decide

theorem Contents.Plain.addLine {c : Contents} (plain : c.Plain) (line : Bytes) :
    (c.addLine line).Plain := by
  intro a
  unfold Contents.addLine
  split
  · exact plain a
  next l read =>
  split
  · rw [Grid.get_set]
    split
    · exact head_readLine read
    · exact plain a
  · exact plain a

theorem Contents.Plain.foldl {c : Contents} (plain : c.Plain) (ls : List Bytes) :
    (ls.foldl Contents.addLine c).Plain := by
  induction ls generalizing c with
  | nil => exact plain
  | cons line ls ih => exact ih (plain.addLine line)

theorem plain_read (bytes : Bytes) : (read bytes).Plain :=
  Contents.plain_empty.foldl (lines bytes)

/-! ## Saving what was read -/

/-- What a file holds after its sheet has been loaded and saved again. -/
def resave (bytes : Bytes) : Bytes := Text.encode (write (read bytes).texts)

/-- Texts that were read are read again after they have been written. -/
theorem texts_read_resave (bytes : Bytes) : (read (resave bytes)).texts = (read bytes).texts := by
  refine Grid.ext_get fun a => ?_
  rw [resave, (read_write _).2 a]
  exact (CellText.dropSpaces_eq_self_iff _).mpr (plain_read bytes a)

theorem texts_read_iterate_resave (n : Nat) (bytes : Bytes) :
    (read (resave^[n] bytes)).texts = (read bytes).texts := by
  induction n with
  | zero => rfl
  | succ n ih => rw [Function.iterate_succ_apply', texts_read_resave, ih]

end SheetFile

theorem Sheet.texts_loaded_whole (s : Sheet) (path : String) (bytes : Text.Bytes) :
    (s.loaded path (.whole bytes)).2.2.texts = (SheetFile.read bytes).texts :=
  rfl

/-- Whatever a file holds: loading and saving it any number of times keeps the texts that were loaded
first, and after the first time it also keeps the bytes. On a disk, what any sheet loads after a save has
the texts that were saved, and would be saved as the same bytes. -/
theorem Sheet.resave_stable (bytes : Text.Bytes) :
    (∀ n, (SheetFile.read (SheetFile.resave^[n] bytes)).texts = (SheetFile.read bytes).texts ∧
      SheetFile.resave^[n + 1] bytes = SheetFile.resave bytes) ∧
    ∀ (s t : Sheet) (fault : Option DiskError) (disk : Disk) (path target : String),
      let loaded := (s.loaded path (.whole bytes)).2.2
      match loaded.saveUnder fault disk target with
      | (.error _, _, _) => True
      | (.ok _, _, disk') =>
        disk'.read target = .whole (SheetFile.resave bytes) ∧
          (t.load disk' target).2.2.texts = loaded.texts ∧
          Text.encode (t.load disk' target).2.2.content = SheetFile.resave bytes := by
  constructor
  · intro n
    refine ⟨SheetFile.texts_read_iterate_resave n bytes, ?_⟩
    rw [Function.iterate_succ_apply', SheetFile.resave, SheetFile.texts_read_iterate_resave,
      SheetFile.resave]
  intro s t fault disk path target loaded
  rcases outcome : loaded.saveUnder fault disk target with ⟨result, saved, disk'⟩
  cases result with
  | error e => trivial
  | ok count =>
      obtain ⟨replaced, -, -⟩ := saveUnder_ok outcome
      obtain ⟨-, -, holds, -⟩ := Disk.replace_ok replaced
      have read : disk'.read target = .whole (SheetFile.resave bytes) := by
        rw [Disk.read, holds]
        rfl
      have texts : (t.load disk' target).2.2.texts = loaded.texts := by
        rw [load, read, texts_loaded_whole, SheetFile.texts_read_resave]
        exact (texts_loaded_whole s path bytes).symm
      refine ⟨read, texts, ?_⟩
      rw [content, texts]
      rfl

end Worksheet
