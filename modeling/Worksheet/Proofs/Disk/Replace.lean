import Worksheet.Disk

/-!
Replacing a file is all or nothing.

`Disk.replace` makes a sibling of the path, fills it and renames it over the path; the steps may
fail, and filling the sibling fails under a fault.

* `replace_error`: if a step fails, the tree is as it was, entry by entry. The sibling has a name
  longer than any in use, so that taking it away again restores the tree.
* `replace_ok`: otherwise one place has changed, the one that the path leads to, and it holds the
  content.

That the path still leads to that place afterwards rests on `walk_of_directories`: a walk to a
directory passes through directories only, and the two trees have the same ones.
-/

namespace Worksheet

open Text (Bytes)

namespace Disk

/-! ## Looking up -/

section Lookup

variable (d : Disk) {p : Place}

theorem lookup_entries_erase {q : Place} (other : q ≠ p) :
    (d.erase p).entries.lookup q = d.entries.lookup q := by
  rw [erase]
  induction d.entries with
  | nil => rfl
  | cons entry entries ih =>
      obtain ⟨r, e⟩ := entry
      by_cases taken : r = p
      · subst taken
        have missed : (q == r) = false := beq_false_of_ne other
        rw [List.filter_cons_of_neg (by simp), ih, List.lookup_cons, missed]
      · rw [List.filter_cons_of_pos (by simpa using taken), List.lookup_cons, ih, List.lookup_cons]

theorem lookup_entries_erase_self : (d.erase p).entries.lookup p = none := by
  refine List.lookup_eq_none_iff.mpr fun entry member => ?_
  have other : entry.1 ≠ p := of_decide_eq_true (List.mem_filter.mp member).2
  exact bne_iff_ne.mpr other.symm

theorem lookup_insert (nonempty : p ≠ []) (e : DiskEntry) (q : Place) :
    (d.insert p e).lookup q = if q = p then some e else d.lookup q := by
  rw [lookup, insert, List.lookup_append]
  by_cases here : q = p
  · subst here
    rw [if_neg nonempty, if_pos rfl, lookup_entries_erase_self, List.lookup_cons_self,
      Option.none_or]
  · have missed : (q == p) = false := beq_false_of_ne here
    rw [if_neg here, lookup_entries_erase d here, List.lookup_cons, missed, List.lookup_nil,
      Option.or_none, lookup]

/-- No entry stands at the place. -/
def Unused (p : Place) : Prop := ∀ e ∈ d.entries, e.1 ≠ p

theorem entries_erase_of_unused (unused : d.Unused p) : (d.erase p).entries = d.entries :=
  List.filter_eq_self.mpr fun e member => decide_eq_true (unused e member)

theorem erase_insert_of_unused (unused : d.Unused p) (e : DiskEntry) :
    (d.insert p e).erase p = d := by
  have kept := entries_erase_of_unused d unused
  have gone : [(p, e)].filter (fun e => e.1 ≠ p) = [] := List.filter_cons_of_neg (by simp)
  rw [insert, kept, erase, List.filter_append, gone, List.append_nil]
  exact congrArg Disk.mk kept

end Lookup

/-! ## The temporary sibling -/

theorem le_foldl_max {n : Nat} {ns : List Nat} (start : Nat) (bound : n ≤ start ∨ n ∈ ns) :
    n ≤ ns.foldl max start := by
  induction ns generalizing start with
  | nil => simpa using bound
  | cons m ns ih =>
      refine ih _ ?_
      rcases bound with before | member
      · exact .inl (Nat.le_trans before (Nat.le_max_left start m))
      rcases List.mem_cons.mp member with rfl | later
      · exact .inl (Nat.le_max_right start n)
      · exact .inr later

theorem length_lt_freshName (d : Disk) {e : Place × DiskEntry} (member : e ∈ d.entries)
    {name : String} (inUse : name ∈ e.1) : name.length < d.freshName.length := by
  have listed : name.length ∈ d.entries.flatMap fun e => e.1.map String.length :=
    List.mem_flatMap.mpr ⟨e, member, List.mem_map.mpr ⟨name, inUse, rfl⟩⟩
  have longest := le_foldl_max 0 (.inr listed)
  unfold freshName
  rw [String.length_ofList, List.length_append, List.length_replicate]
  have marked : 0 < ".tmp".toList.length := by decide
  omega

theorem unused_freshName (d : Disk) (here : Place) : d.Unused (here ++ [d.freshName]) := by
  intro e member same
  have inUse : d.freshName ∈ e.1 := by simp [same]
  exact Nat.lt_irrefl _ (d.length_lt_freshName member inUse)

theorem bind_ok {α β : Type} {x : Except DiskError α} {f : α → Except DiskError β} {b : β}
    (ok : x >>= f = .ok b) : ∃ a, x = .ok a ∧ f a = .ok b := by
  cases x with
  | error e => cases ok
  | ok a => exact ⟨a, rfl, ok⟩

theorem makeSibling_ok {d made : Disk} {path : String} {content : Bytes} {place : Place}
    (ok : d.makeSibling path content = .ok (place, made)) :
    made = d.insert place (.file content) ∧ d.Unused place ∧ place ≠ [] := by
  unfold makeSibling at ok
  split at ok
  · cases ok
  split at ok
  · cases ok
  obtain ⟨here, -, ok⟩ := bind_ok ok
  split at ok
  · cases ok
    exact ⟨rfl, d.unused_freshName here, by simp⟩
  · cases ok

/-! ## Walking in another tree -/

section Walk

variable {d d' : Disk} {here there : Place}

theorem directory_of_walk {names : List String} (walked : d.walk here names = .ok there)
    (directory : d.lookup there = some .directory) : d.lookup here = some .directory := by
  cases names with
  | nil =>
      cases walked
      exact directory
  | cons name names =>
      unfold walk at walked
      split at walked
      · assumption
      · cases walked
      · cases walked

/-- A walk to a directory meets directories only, so it is the same in any tree that has them. -/
theorem walk_of_directories
    (same : ∀ p, d.lookup p = some .directory → d'.lookup p = some .directory)
    {names : List String} (walked : d.walk here names = .ok there)
    (directory : d.lookup there = some .directory) : d'.walk here names = .ok there := by
  induction names generalizing here with
  | nil => exact walked
  | cons name names ih =>
      have start := directory_of_walk walked directory
      unfold walk at walked ⊢
      rw [start] at walked
      rw [same here start]
      dsimp only at walked ⊢
      split at walked
      · next stays => rw [if_pos stays, ih walked]
      next leaves =>
      split at walked
      · next up => rw [if_neg leaves, if_pos up, ih walked]
      next down =>
      split at walked
      · cases walked
      next short =>
      split at walked
      · cases walked
      have present := same _ (directory_of_walk walked directory)
      rw [if_neg leaves, if_neg down, if_neg short, present, if_neg (by simp), ih walked]

theorem walk_append (names : List String) (name : String) :
    d.walk here (names ++ [name]) = d.walk here names >>= fun p => d.walk p [name] := by
  generalize last : (fun p => d.walk p [name]) = step
  induction names generalizing here with
  | nil => exact congrFun last here
  | cons name names ih =>
      rw [List.cons_append]
      unfold walk
      cases d.lookup here with
      | none => rfl
      | some e =>
          cases e with
          | file content => rfl
          | directory =>
              dsimp only
              split
              · exact ih
              split
              · exact ih
              split
              · rfl
              split
              · rfl
              · exact ih

end Walk

/-! ## Renaming -/

/-- What a path that a file can be renamed to looks like: names that lead to a directory, and a last
name in it that no directory has. -/
structure Renames (made : Disk) (path : String) (here : Place) (before : List String)
    (name : String) : Prop where
  allowed : pathError? path = none
  names : Disk.names path = before ++ [name]
  walked : made.walk [] before = .ok here
  directory : made.lookup here = some .directory
  proper : name ≠ "" ∧ name ≠ "." ∧ name ≠ ".."
  short : name.utf8ByteSize ≤ maxNameBytes
  free : made.lookup (here ++ [name]) ≠ some .directory

theorem names_of_slashless {path last : String} {before : List String}
    (slashless : endsInSlash path = false)
    (parts : (names path).reverse.dropWhile (· = "") = last :: before) :
    names path = before.reverse ++ [last] ∧ last ≠ "" := by
  have final : (names path).reverse.head? ≠ some "" := by
    rw [List.head?_reverse]
    exact of_decide_eq_false slashless
  cases turned : (names path).reverse with
  | nil =>
      rw [turned] at parts
      cases parts
  | cons name rest =>
      rw [turned] at parts final
      have named : name ≠ "" := fun blank => final (congrArg some blank)
      rw [List.dropWhile_cons_of_neg (by simpa using named)] at parts
      cases parts
      refine ⟨?_, named⟩
      rw [← List.reverse_cons, ← turned, List.reverse_reverse]

theorem parentOf_ok {d : Disk} {path name : String} {here : Place}
    (ok : d.parentOf path = .ok (here, some name)) :
    ∃ before, (names path).reverse.dropWhile (· = "") = name :: before ∧
      d.walk [] before.reverse = .ok here ∧ d.lookup here = some .directory := by
  unfold parentOf at ok
  split at ok
  · cases ok
  next last before parts =>
  obtain ⟨there, walked, ok⟩ := bind_ok ok
  split at ok
  · next directory =>
      cases ok
      exact ⟨before, parts, walked, directory⟩
  · cases ok

theorem rename_ok {made renamed : Disk} {place : Place} {path : String}
    (ok : made.rename place path = .ok renamed) :
    ∃ here before name, made.Renames path here before name ∧
      renamed = (made.erase place).insert (here ++ [name]) (.file (made.contentAt place)) := by
  unfold rename at ok
  split at ok
  · cases ok
  next allowed =>
  obtain ⟨⟨here, last⟩, parent, ok⟩ := bind_ok ok
  cases last with
  | none => cases ok
  | some name =>
      dsimp only at ok
      split at ok
      · cases ok
      next proper =>
      split at ok
      · cases ok
      next short =>
      split at ok
      · cases ok
      next slashless =>
      split at ok
      · cases ok
      next free =>
      cases ok
      obtain ⟨before, parts, walked, directory⟩ := parentOf_ok parent
      obtain ⟨split, named⟩ := names_of_slashless (eq_false_of_ne_true slashless) parts
      rw [not_or] at proper
      exact ⟨here, before.reverse, name,
        ⟨allowed, split, walked, directory, ⟨named, proper⟩, Nat.le_of_not_lt short, free⟩, rfl⟩

/-! ## Replacing -/

section Replace

variable {fault : Option DiskError} {d after : Disk} {path : String} {content : Bytes}

theorem replace_error {e : DiskError}
    (failed : d.replace fault path content = (.error e, after)) : after = d := by
  unfold replace at failed
  split at failed
  · cases failed
    rfl
  next place made sibling =>
  obtain ⟨rfl, unused, -⟩ := makeSibling_ok sibling
  split at failed
  · cases failed
    exact erase_insert_of_unused d unused _
  split at failed
  · cases failed
  · cases failed
    exact erase_insert_of_unused d unused _

theorem contentAt_insert {d : Disk} {p : Place} (nonempty : p ≠ []) (content : Bytes) :
    (d.insert p (.file content)).contentAt p = content := by
  rw [contentAt, lookup_insert d nonempty, if_pos rfl]

/-- A file put where no directory stands leaves the directories as they are. -/
theorem lookup_insert_eq_directory {d : Disk} {p : Place} (nonempty : p ≠ []) (content : Bytes)
    (free : d.lookup p ≠ some .directory) (q : Place) :
    (d.insert p (.file content)).lookup q = some .directory ↔ d.lookup q = some .directory := by
  rw [lookup_insert d nonempty]
  by_cases here : q = p
  · subst here
    simp [free]
  · rw [if_neg here]

theorem lookup_of_unused {d : Disk} {p : Place} (nonempty : p ≠ []) (unused : d.Unused p) :
    d.lookup p = none := by
  rw [lookup, if_neg nonempty]
  exact List.lookup_eq_none_iff.mpr fun e member => bne_iff_ne.mpr (unused e member).symm

theorem walk_of_renames {made after : Disk} {path name : String} {here : Place}
    {before : List String} (renames : made.Renames path here before name)
    (same : ∀ p, made.lookup p = some .directory → after.lookup p = some .directory)
    (present : (after.lookup (here ++ [name])).isSome) :
    after.walk [] (names path) = .ok (here ++ [name]) := by
  have walked := walk_of_directories same renames.walked renames.directory
  have directory := same here renames.directory
  obtain ⟨named, dot, up⟩ := renames.proper
  have short := Nat.not_lt_of_le renames.short
  rw [renames.names, walk_append, walked]
  change after.walk here [name] = _
  unfold walk
  rw [directory]
  dsimp only
  rw [if_neg (not_or.mpr ⟨named, dot⟩), if_neg up, if_neg short,
    if_neg (by simpa [Option.isSome_iff_ne_none] using present), walk]

theorem replace_ok (done : d.replace fault path content = (.ok (), after)) :
    ∃ place, after.walk [] (names path) = .ok place ∧
      after.open? path = .ok (.file content) ∧
      ∀ q, after.lookup q = if q = place then some (.file content) else d.lookup q := by
  unfold replace at done
  split at done
  · cases done
  next sibling made making =>
  obtain ⟨rfl, unused, nonempty⟩ := makeSibling_ok making
  split at done
  · cases done
  split at done
  next renamed moved =>
    cases done
    obtain ⟨here, before, name, renames, rfl⟩ := rename_ok moved
    rw [contentAt_insert nonempty, erase_insert_of_unused d unused]
    have proper : here ++ [name] ≠ [] := by simp
    have vacant : d.lookup sibling ≠ some .directory := by
      rw [lookup_of_unused nonempty unused]
      exact nofun
    have made := lookup_insert_eq_directory nonempty content vacant
    have free : d.lookup (here ++ [name]) ≠ some .directory := fun directory =>
      renames.free ((made _).mpr directory)
    have renamed := lookup_insert_eq_directory proper content free
    have holds := lookup_insert d proper (.file content)
    have found : (d.insert (here ++ [name]) (.file content)).lookup (here ++ [name]) =
        some (.file content) := by
      rw [holds, if_pos rfl]
    have walked := walk_of_renames renames
      (fun p directory => (renamed p).mpr ((made p).mp directory)) (by rw [found]; rfl)
    refine ⟨here ++ [name], walked, ?_, holds⟩
    rw [open?, renames.allowed, walked]
    dsimp only [bind, Except.bind]
    rw [found]
    rfl
  · cases done

/-- A path that is the name of something in the working directory. -/
structure IsName (name : String) : Prop where
  allowed : pathError? name = none
  names : Disk.names name = [name]
  proper : name ≠ "" ∧ name ≠ "." ∧ name ≠ ".."
  short : name.utf8ByteSize ≤ maxNameBytes

theorem isName_of_mem {name : String} (member : name ∈ ["d", "f"]) : IsName name := by
  simp only [List.mem_cons, List.not_mem_nil, or_false] at member
  rcases member with rfl | rfl
  all_goals
    refine ⟨by decide, ?_, by decide, by decide⟩
    rw [names, String.splitOn, if_neg (by decide)]
    -- the only character is no slash, and then the path ends
    unfold String.splitOnAux
    rw [if_neg (by decide)]
    dsimp only
    rw [if_neg (by decide)]
    unfold String.splitOnAux
    rw [if_pos (by decide)]
    decide

theorem isName_d : IsName "d" := isName_of_mem (by decide)

theorem isName_f : IsName "f" := isName_of_mem (by decide)

section Name

variable {name : String} (isName : IsName name) (d : Disk) (content : Bytes)

include isName

theorem walk_of_isName : d.walk [] (names name) =
    if (d.lookup [name]).isNone then .error .notFound else .ok [name] := by
  obtain ⟨named, dot, up⟩ := isName.proper
  rw [isName.names, walk, lookup, if_pos rfl]
  dsimp only
  rw [if_neg (not_or.mpr ⟨named, dot⟩), if_neg up, if_neg (Nat.not_lt_of_le isName.short)]
  rfl

theorem eq_of_walk {d : Disk} {place : Place} (walked : d.walk [] (names name) = .ok place) :
    place = [name] := by
  rw [walk_of_isName isName] at walked
  split at walked
  · cases walked
  · cases walked
    rfl

theorem open?_of_isName : d.open? name =
    match d.lookup [name] with
    | some e => .ok e
    | none => .error .notFound := by
  rw [open?, isName.allowed, walk_of_isName isName]
  dsimp only
  cases entry : d.lookup [name] with
  | none => rfl
  | some e =>
      rw [Option.isNone_some, if_neg Bool.false_ne_true]
      dsimp only [bind, Except.bind]
      rw [entry]
      rfl

theorem makeSibling_of_isName : d.makeSibling name content =
    .ok ([d.freshName], d.insert [d.freshName] (.file content)) := by
  have named := isName.proper.1
  have filtered : (names name).filter (· ≠ "") = [name] := by
    rw [isName.names, List.filter_cons_of_pos (by simpa using named), List.filter_nil]
  have beside : siblingDirectory name = [] := by
    rw [siblingDirectory, filtered]
    rfl
  have nulless : name.toList.contains '\x00' = false := by
    have allowed := isName.allowed
    unfold pathError? at allowed
    split at allowed
    · cases allowed
    · next absent => exact eq_false_of_ne_true absent
  rw [makeSibling, nulless, if_neg Bool.false_ne_true, beside, if_neg (by decide)]
  rfl

theorem rename_of_isName (place : Place) : d.rename place name =
    if d.lookup [name] = some .directory then .error .isADirectory
    else .ok ((d.erase place).insert [name] (.file (d.contentAt place))) := by
  obtain ⟨named, dot, up⟩ := isName.proper
  have parent : d.parentOf name = .ok ([], some name) := by
    rw [parentOf, isName.names, List.reverse_singleton,
      List.dropWhile_cons_of_neg (by simpa using named)]
    rfl
  have slashless : endsInSlash name = false := by
    rw [endsInSlash, isName.names]
    exact decide_eq_false fun blank => named (Option.some.inj blank)
  rw [rename, isName.allowed, parent]
  dsimp only [bind, Except.bind]
  rw [if_neg (not_or.mpr ⟨dot, up⟩), if_neg (Nat.not_lt_of_le isName.short), slashless,
    if_neg Bool.false_ne_true, List.nil_append]
  rfl

/-- A file can be put into the working directory unless a directory has its name there. -/
theorem fst_replace_of_isName : (d.replace none name content).1 =
    if d.lookup [name] = some .directory then .error .isADirectory else .ok () := by
  have still : (d.insert [d.freshName] (.file content)).lookup [name] = some .directory ↔
      d.lookup [name] = some .directory := by
    rw [lookup_insert d (List.cons_ne_nil _ _)]
    split
    · next same =>
        rw [same, lookup_of_unused (List.cons_ne_nil _ _) (d.unused_freshName [])]
        exact iff_of_false nofun nofun
    · exact Iff.rfl
  rw [replace, makeSibling_of_isName isName]
  dsimp only
  rw [rename_of_isName isName]
  by_cases directory : d.lookup [name] = some .directory
  · rw [if_pos directory, if_pos (still.mpr directory)]
  · rw [if_neg directory, if_neg (mt still.mp directory)]

theorem fst_replace_of_fault (e : DiskError) :
    (d.replace (some e) name content).1 = .error e := by
  rw [replace, makeSibling_of_isName isName]

end Name

end Replace

end Disk

end Worksheet
