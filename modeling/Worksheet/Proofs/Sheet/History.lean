import Worksheet.Proofs.Disk.Replace
import Worksheet.Sheet

/-!
Histories of a sheet.

A history is what has been done to a sheet that began empty, the latest operation first. Saving and
loading stand in it with what came of them, so that a history may have any file system, and any
faults of it, behind it.

The mark of modification rests on one fact about single operations (`perform_unmodified`): one that
leaves a sheet unmodified has changed no text, or it was a save or load that succeeded, or it was a
load that was interrupted. From this `texts_of_unmodified` tells which texts an unmodified sheet has.
An interrupted load is among them only because it empties the sheet and leaves the mark alone.
-/

namespace Worksheet

/-- What can be done to a sheet. A save comes with how writing the file went, a load with what reading
the file came to. -/
inductive Operation where
  | setText (a : Address) (new : String)
  | clear (a : Address)
  | beginPass
  | recompute
  | result (a : Address)
  | display (a : Address)
  | save (path : String) (written : Except DiskError Unit)
  | load (path : String) (read : ReadOutcome)

namespace Operation

/-- A save or a load that succeeds. -/
def succeeds : Operation → Bool
  | save _ (.ok _) | load _ (.whole _) => true
  | _ => false

/-- Starts or continues a pass. -/
def evaluates : Operation → Bool
  | beginPass | recompute | result _ | display _ => true
  | _ => false

/-- A load that fails after the file was opened. -/
def cutShort : Operation → Bool
  | load _ (.interrupted _ _) => true
  | _ => false

end Operation

namespace Sheet

/-! ## Operations -/

def perform (s : Sheet) : Operation → Sheet
  | .setText a new => s.setText a new
  | .clear a => s.clear a
  | .beginPass => s.beginPass
  | .recompute => s.recompute
  | .result a => (s.result a).2
  | .display a => (s.display a).2
  | .save path written => (s.saved path written).2
  | .load path read => (s.loaded path read).2.2

theorem perform_load (s : Sheet) (disk : Disk) (path : String) :
    (s.load disk path).2.2 = s.perform (.load path (disk.read path)) :=
  rfl

/-- Loading a directory is interrupted before the first line. -/
theorem perform_load_directory (s : Sheet) {disk : Disk} {path : String}
    (directory : disk.open? path = .ok .directory) :
    (s.load disk path).2.2 = s.perform (.load path (.interrupted [] .isADirectory)) := by
  rw [perform_load, Disk.read, directory]

/-- Evaluation changes records only. -/
theorem perform_evaluation (s : Sheet) (o : Operation) (evaluates : o.evaluates = true) :
    ∃ rs, s.perform o = { s with records := rs } := by
  cases o with
  | beginPass | recompute | result a | display a => exact ⟨_, rfl⟩
  | setText | clear | save | load => cases evaluates

/-- A sheet on which the history, whose latest operation stands first, has been performed. -/
def after : List Operation → Sheet
  | [] => .empty
  | o :: earlier => (after earlier).perform o

/-- The texts right after the latest operation of a kind, or none if there was no such operation. -/
def textsAtLast (kind : Operation → Bool) : List Operation → Grid CellText
  | [] => .fill .empty
  | o :: earlier => if kind o then (after (o :: earlier)).texts else textsAtLast kind earlier

/-! ## What an unmodified sheet holds -/

theorem setText_unmodified {s : Sheet} {a : Address} {new : String}
    (unmodified : (s.setText a new).modified = false) : s.setText a new = s := by
  unfold setText at unmodified ⊢
  split at unmodified
  · next same => rw [if_pos same]
  · cases unmodified

theorem perform_unmodified {s : Sheet} {o : Operation}
    (unmodified : (s.perform o).modified = false) :
    (o.succeeds || o.cutShort) = true ∨ s.modified = false ∧ (s.perform o).texts = s.texts := by
  by_cases evaluates : o.evaluates = true
  · obtain ⟨rs, same⟩ := perform_evaluation s o evaluates
    rw [same] at unmodified ⊢
    exact .inr ⟨unmodified, rfl⟩
  cases o with
  | setText a new =>
      have same : s.perform (.setText a new) = s := setText_unmodified unmodified
      rw [same] at unmodified ⊢
      exact .inr ⟨unmodified, rfl⟩
  | clear a =>
      have same : s.perform (.clear a) = s := setText_unmodified unmodified
      rw [same] at unmodified ⊢
      exact .inr ⟨unmodified, rfl⟩
  | beginPass | recompute | result | display => exact absurd rfl evaluates
  | save path written =>
      cases written with
      | ok done => exact .inl rfl
      | error e => exact .inr ⟨unmodified, rfl⟩
  | load path read =>
      cases read with
      | unopened e => exact .inr ⟨unmodified, rfl⟩
      | interrupted before e => exact .inl rfl
      | whole content => exact .inl rfl

theorem texts_eq_textsAtLast {history : List Operation}
    (unmodified : (after history).modified = false) :
    (after history).texts = textsAtLast (fun o => o.succeeds || o.cutShort) history := by
  induction history with
  | nil => rfl
  | cons o earlier ih =>
      unfold textsAtLast
      split
      · rfl
      next other =>
      rcases perform_unmodified unmodified with kind | ⟨before, texts⟩
      · exact absurd kind other
      · rw [after, texts, ih before]

/-- Operations of another kind do not count if there was none since the latest of the kind. -/
theorem textsAtLast_or {kind other : Operation → Bool} {history : List Operation}
    (absent : ∀ o ∈ history.takeWhile (fun o => !kind o), other o = false) :
    textsAtLast (fun o => kind o || other o) history = textsAtLast kind history := by
  induction history with
  | nil => rfl
  | cons o earlier ih =>
      unfold textsAtLast
      cases present : kind o with
      | true => rfl
      | false =>
          rw [List.takeWhile_cons_of_pos (by rw [present]; rfl)] at absent
          obtain ⟨here, absent⟩ := List.forall_mem_cons.mp absent
          rw [here]
          exact ih absent

/-- An unmodified sheet holds the texts that it had after the latest save or load that succeeded, or
after the latest load that was interrupted, whichever came later. Unless a load was interrupted since,
these are the texts saved or loaded last. -/
theorem texts_of_unmodified (history : List Operation)
    (unmodified : (after history).modified = false) :
    (after history).texts = textsAtLast (fun o => o.succeeds || o.cutShort) history ∧
      ((∀ o ∈ history.takeWhile (fun o => !o.succeeds), o.cutShort = false) →
        (after history).texts = textsAtLast Operation.succeeds history) := by
  have texts := texts_eq_textsAtLast unmodified
  exact ⟨texts, fun absent => texts.trans (textsAtLast_or absent)⟩

/-- A history in which the text of the first cell is saved. -/
def savedOnce : List Operation :=
  [.save "f" (.ok ()), .setText .origin "x"]

theorem texts_of_unmodified_of_savedOnce :
    (after savedOnce).modified = false ∧
      (after savedOnce).texts = textsAtLast (fun o => o.succeeds || o.cutShort) savedOnce ∧
      (∀ o ∈ savedOnce.takeWhile (fun o => !o.succeeds), o.cutShort = false) ∧
      (after savedOnce).texts = textsAtLast Operation.succeeds savedOnce := by
  have unmodified : (after savedOnce).modified = false := rfl
  have absent : ∀ o ∈ savedOnce.takeWhile (fun o => !o.succeeds), o.cutShort = false := nofun
  obtain ⟨texts, saved⟩ := texts_of_unmodified savedOnce unmodified
  exact ⟨unmodified, texts, absent, saved absent⟩

/-- After that a directory is loaded: the sheet still counts as unmodified, and its texts are not those
that were saved. This is what a save to a new file comes to, followed by the load of a directory. -/
theorem texts_lost_on_directory :
    let history := .load "d" (.interrupted [] .isADirectory) :: savedOnce
    (after history).modified = false ∧
      (after history).texts ≠ textsAtLast Operation.succeeds history ∧
      ∃ count disk',
        (empty.setText .origin "x").save ⟨[(["d"], .directory)]⟩ "f" =
          (.ok count, after savedOnce, disk') ∧
        ((after savedOnce).load disk' "d").2.2 = after history := by
  intro history
  refine ⟨rfl, fun lost => ?_, ?_⟩
  · have blank : empty.text .origin ≠ "x" := by
      rw [text, empty, Grid.get_fill]
      decide
    have stored : (after savedOnce).texts = empty.texts.set .origin (.ofString "x") := by
      change (empty.setText .origin "x").texts = _
      rw [setText, if_neg blank]
    change Grid.fill .empty = (after savedOnce).texts at lost
    have cell := congrArg (fun texts => (texts.get .origin).text) lost
    rw [stored, Grid.get_fill, Grid.get_set, if_pos rfl] at cell
    exact absurd cell (by decide)
  · let written := empty.setText .origin "x"
    let disk : Disk := ⟨[(["d"], .directory)]⟩
    have done := Disk.fst_replace_of_isName Disk.isName_f disk (Text.encode written.content)
    rcases replaced : disk.replace none "f" (Text.encode written.content) with ⟨result, disk'⟩
    rw [replaced] at done
    cases done
    obtain ⟨place, walked, -, holds⟩ := Disk.replace_ok replaced
    obtain rfl := Disk.eq_of_walk Disk.isName_f walked
    have directory : disk'.open? "d" = .ok .directory := by
      rw [Disk.open?_of_isName Disk.isName_d, holds]
      rfl
    refine ⟨written.filledCount, disk', ?_, perform_load_directory _ directory⟩
    change written.saveUnder none disk "f" = _
    rw [saveUnder, replaced]
    rfl

end Sheet

end Worksheet
