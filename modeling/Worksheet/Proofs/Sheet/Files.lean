import Worksheet.Editor
import Worksheet.Proofs.Disk.Replace

/-!
What saving and loading leave behind.

A save that fails changes neither the sheet nor the tree, and one that succeeds changes one entry of
the tree. A load reads the tree only, and a path that cannot be opened leaves the sheet alone.
-/

namespace Worksheet

namespace Disk

theorem read_of_unopened {disk : Disk} {path : String} {e : DiskError}
    (unopened : disk.open? path = .error e) : disk.read path = .unopened e := by
  rw [read, unopened]

end Disk

namespace Sheet

/-! ## Saving -/

section Save

variable {fault : Option DiskError} {s after : Sheet} {disk disk' : Disk} {path : String}

/-- A save has replaced its file and learnt the outcome of that. -/
theorem saveUnder_cases {result : Except DiskError Nat}
    (saved : s.saveUnder fault disk path = (result, after, disk')) :
    (∃ e, result = .error e ∧ after = s ∧
      disk.replace fault path (Text.encode s.content) = (.error e, disk')) ∨
    (result = .ok s.filledCount ∧ after = { s with path := some path, modified := false } ∧
      disk.replace fault path (Text.encode s.content) = (.ok (), disk')) := by
  rcases replaced : disk.replace fault path (Text.encode s.content) with ⟨written, tree⟩
  unfold saveUnder at saved
  rw [replaced] at saved
  cases written with
  | error e =>
      cases saved
      exact .inl ⟨e, rfl, rfl, rfl⟩
  | ok done =>
      cases saved
      exact .inr ⟨rfl, rfl, rfl⟩

theorem fst_saveUnder (fault : Option DiskError) (s : Sheet) (disk : Disk) (path : String) :
    (s.saveUnder fault disk path).1 =
      (disk.replace fault path (Text.encode s.content)).1.map fun _ => s.filledCount := by
  rcases outcome : s.saveUnder fault disk path with ⟨result, after, disk'⟩
  rcases saveUnder_cases outcome with ⟨e, rfl, -, replaced⟩ | ⟨rfl, -, replaced⟩
  · rw [replaced]
    rfl
  · rw [replaced]
    rfl

theorem saveUnder_error {e : DiskError}
    (failed : s.saveUnder fault disk path = (.error e, after, disk')) :
    after = s ∧ disk' = disk := by
  rcases saveUnder_cases failed with ⟨_, _, unchanged, replaced⟩ | ⟨impossible, _⟩
  · exact ⟨unchanged, Disk.replace_error replaced⟩
  · cases impossible

theorem saveUnder_of_fails {e : DiskError} (fails : (s.saveUnder fault disk path).1 = .error e) :
    s.saveUnder fault disk path = (.error e, s, disk) := by
  rcases outcome : s.saveUnder fault disk path with ⟨result, after, disk'⟩
  rw [outcome] at fails
  cases fails
  obtain ⟨rfl, rfl⟩ := saveUnder_error outcome
  rfl

theorem saveUnder_ok {count : Nat}
    (done : s.saveUnder fault disk path = (.ok count, after, disk')) :
    disk.replace fault path (Text.encode s.content) = (.ok (), disk') ∧
      after = { s with path := some path, modified := false } ∧ count = s.filledCount := by
  rcases saveUnder_cases done with ⟨_, impossible, _⟩ | ⟨counted, remembered, replaced⟩
  · cases impossible
  · cases counted
    exact ⟨replaced, remembered, rfl⟩

end Save

/-! ## Loading -/

theorem load_of_unopened (s : Sheet) {disk : Disk} {path : String} {e : DiskError}
    (unopened : disk.open? path = .error e) : s.load disk path = (.error e, [], s) := by
  rw [load, Disk.read_of_unopened unopened, loaded]

end Sheet

theorem Workspace.disk_load (w : Workspace) (path : String) : (w.load path).disk = w.disk := by
  unfold Workspace.load
  rcases w.editor.sheet.load w.disk path with ⟨result, outside, sheet⟩
  cases result with
  | error e => rfl
  | ok count => rfl

/-! ## All or nothing -/

/-- A save that fails, by a fault or at any step, has changed nothing; one that succeeds has put the
written texts at the place its path leads to and changed no other place. A load leaves the tree as it
is, and the sheet too when the path cannot be opened. -/
theorem Sheet.save_load_all_or_nothing (s : Sheet) (fault : Option DiskError) (disk : Disk)
    (path : String) :
    (match s.saveUnder fault disk path with
      | (.error _, after, disk') => after = s ∧ disk' = disk
      | (.ok count, after, disk') =>
        (∃ place, disk'.walk [] (Disk.names path) = .ok place ∧
          ∀ q, disk'.lookup q =
            if q = place then some (.file (Text.encode (SheetFile.write s.texts)))
            else disk.lookup q) ∧
        disk'.open? path = .ok (.file (Text.encode (SheetFile.write s.texts))) ∧
        after = { s with path := some path, modified := false } ∧
        count = (SheetFile.filled s.texts).length) ∧
    (∀ w : Workspace, (w.load path).disk = w.disk) ∧
    ∀ e, disk.open? path = .error e → s.load disk path = (.error e, [], s) := by
  refine ⟨?_, fun w => w.disk_load path, fun _ unopened => s.load_of_unopened unopened⟩
  rcases outcome : s.saveUnder fault disk path with ⟨result, after, disk'⟩
  cases result with
  | error e => exact saveUnder_error outcome
  | ok count =>
      obtain ⟨replaced, remembered, counted⟩ := saveUnder_ok outcome
      obtain ⟨place, walked, holds, others⟩ := Disk.replace_ok replaced
      exact ⟨⟨place, walked, others⟩, holds, remembered, counted⟩

/-- A tree with one file, and something else or nothing under the name `f`. -/
def Disk.besides (f : Option DiskEntry) : Disk :=
  ⟨(["g"], .file (Text.encode "0 0 kept\n")) :: (f.map fun e => (["f"], e)).toList⟩

/-- A modified sheet is saved under the name of a file that is there, which a fault prevents at first;
under the name of a directory; and loaded from a name that nothing has. -/
theorem Sheet.save_load_all_or_nothing_of_setText :
    let s := Sheet.empty.setText .origin "x"
    let old := Disk.besides (some (.file (Text.encode "0 0 old\n")))
    let directory := Disk.besides (some .directory)
    let blank := Disk.besides none
    s.saveUnder (some .busy) old "f" = (.error .busy, s, old) ∧
      s.saveUnder none directory "f" = (.error .isADirectory, s, directory) ∧
      (∃ disk', s.saveUnder none old "f" =
          (.ok s.filledCount, { s with path := some "f", modified := false }, disk') ∧
        disk'.lookup ["f"] = some (.file (Text.encode (SheetFile.write s.texts))) ∧
        disk'.lookup ["g"] = old.lookup ["g"]) ∧
      blank.open? "f" = .error .notFound ∧ s.load blank "f" = (.error .notFound, [], s) := by
  intro s old directory blank
  have faulty : (s.saveUnder (some .busy) old "f").1 = .error .busy := by
    rw [fst_saveUnder, Disk.fst_replace_of_fault Disk.isName_f]
    rfl
  have blocked : (s.saveUnder none directory "f").1 = .error .isADirectory := by
    rw [fst_saveUnder, Disk.fst_replace_of_isName Disk.isName_f]
    rfl
  have written : (s.saveUnder none old "f").1 = .ok s.filledCount := by
    rw [fst_saveUnder, Disk.fst_replace_of_isName Disk.isName_f]
    rfl
  have missing : blank.open? "f" = .error .notFound := by
    rw [Disk.open?_of_isName Disk.isName_f]
    rfl
  have kept := (s.save_load_all_or_nothing none old "f").1
  refine ⟨saveUnder_of_fails faulty, saveUnder_of_fails blocked, ?_, missing,
    (s.save_load_all_or_nothing none blank "f").2.2 _ missing⟩
  rcases outcome : s.saveUnder none old "f" with ⟨result, after, disk'⟩
  rw [outcome] at kept written
  cases written
  obtain ⟨⟨place, walked, holds⟩, -, rfl, -⟩ := kept
  obtain rfl := Disk.eq_of_walk Disk.isName_f walked
  exact ⟨disk', rfl, holds ["f"], holds ["g"]⟩

end Worksheet
