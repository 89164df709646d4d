import Worksheet.Proofs.Evaluation.Calls
import Worksheet.Proofs.Formula.Fuel
import Worksheet.Proofs.Formula.Reading
import Worksheet.Sheet

/-!
Every evaluation ends.

Visits follow references through formulas that may refer to each other in circles, and they may
start from records of any kind. What bounds them is that the cells around a call are under way, so
that no text is evaluated inside itself: calls nest no deeper than the grid has cells, and within a
cell the fuel for reading its formula is in proportion to the length of the text.
-/

namespace Worksheet

/-! ## Bounds -/

/-- Cells that are all different are no more than the grid has. -/
theorem Address.length_le_of_nodup {cells : List Address} (distinct : cells.Nodup) :
    cells.length ≤ cellCount := by
  have positions : (cells.map Address.index).Nodup :=
    distinct.map fun _ _ => Address.index_injective
  have bound := positions.length_le_card
  rw [List.length_map, Fintype.card_fin] at bound
  exact bound

/-- Every character takes a byte at least. -/
theorem Text.length_le_utf8ByteSize (cs : List Char) :
    cs.length ≤ (String.ofList cs).utf8ByteSize := by
  induction cs with
  | nil => exact Nat.zero_le _
  | cons c cs ih =>
      have byte := c.utf8Size_pos
      rw [String.ofList_cons, String.utf8ByteSize_append, String.utf8ByteSize_singleton,
        List.length_cons]
      omega

/-- A formula is shorter than the capacity of a cell. -/
theorem CellText.length_lt_of_formula {t : CellText} {body : List Char}
    (formula : t.formula? = some body) : body.length < cellCapacity := by
  have chars : t.chars = '=' :: body := by
    unfold formula? at formula
    split at formula
    · next rest chars =>
        cases formula
        exact chars
    · cases formula
  have whole := t.size_le
  have counted := Text.length_le_utf8ByteSize t.chars
  rw [CellText.chars, String.ofList_toList] at counted
  have length := congrArg List.length chars
  rw [CellText.chars, List.length_cons] at length
  omega

namespace Records

theorem run_forM_visit (texts : Grid CellText) (cells : List Address) (rs : Records) :
    (forM cells fun a => visit texts cellCount a).run rs =
      some ((), cells.foldl (fun rs a => settle texts a rs) rs) := by
  induction cells generalizing rs with
  | nil => rfl
  | cons a cells ih =>
      rw [List.forM_cons, StateT.run_bind, run_visit texts a rs (Nat.le_refl _)]
      exact ih _

/-- Whatever the records hold, a visit ends, and depth beyond the number of cells makes no
difference. The cells around each of its calls are all different, so that there are no more of them
than cells, and a call that evaluates a text is not around itself. A recompute ends as well. And to
read the formula of a cell takes fuel in proportion to its length, which is less than the capacity
of a cell. -/
theorem evaluation_ends (texts : Grid CellText) (rs : Records) (a : Address) :
    ((calls texts a rs).head? = some ⟨[], a, decide (a ∈ untouched rs)⟩ ∧
      ∀ depth, cellCount ≤ depth →
        (visit texts depth a).run rs = some ((), settle texts a rs) ∧
        (visitTraced texts depth [] a).run (rs, []) =
          some ((), settle texts a rs, calls texts a rs)) ∧
    (∀ call ∈ calls texts a rs, call.outer.Nodup ∧ call.outer.length ≤ cellCount ∧
      (call.evaluates = true →
        (call.cell :: call.outer).Nodup ∧ (call.cell :: call.outer).length ≤ cellCount)) ∧
    (forM Address.all fun b => visit texts cellCount b).run unvisited =
      some ((), recompute texts) ∧
    ∀ b body, (texts.get b).formula? = some body →
      body.length < cellCapacity ∧ (Expr.ofChars body).size ≤ 2 * body.length + 2 ∧
      ∀ fuel, Expr.readingFuel body.length ≤ fuel →
        Expr.ofCharsWithin fuel body = some (Expr.ofChars body) := by
  obtain ⟨first, passage, -⟩ := settle_passage texts a rs
  refine ⟨⟨first, fun depth room => ⟨run_visit texts a rs room, run_visitTraced texts a rs room⟩⟩,
    fun call member => ?_, run_forM_visit texts Address.all unvisited, fun b body formula => ?_⟩
  · have distinct := passage.outer call member
    refine ⟨distinct, Address.length_le_of_nodup distinct, fun evaluates => ?_⟩
    have distinctAll := List.nodup_cons.mpr ⟨passage.inner call member evaluates, distinct⟩
    exact ⟨distinctAll, Address.length_le_of_nodup distinctAll⟩
  · have read := Expr.ofCharsWithin_eq (Nat.le_refl (Expr.readingFuel body.length))
    exact ⟨CellText.length_lt_of_formula formula, read.2, fun _ enough =>
      (Expr.ofCharsWithin_eq enough).1⟩

/-- A cell that refers to itself and to nothing else is called for once more, inside itself. -/
theorem calls_of_selfReference {texts : Grid CellText} {rs : Records} {a : Address}
    {body : List Char} (fresh : a ∈ untouched rs) (formula : (texts.get a).formula? = some body)
    (read : Expr.ofChars body = .reference a) :
    calls texts a rs = [⟨[], a, true⟩, ⟨[a], a, false⟩] := by
  let begun := rs.set a (rs.get a).begun
  have mark : begun.get a = (rs.get a).begun := by rw [Grid.get_set, if_pos rfl]
  have evaluated : (begun.get a).evaluated = false := by
    rw [mark]
    exact (mem_untouched.mp fresh).1
  have evaluating : (begun.get a).evaluating = true := by
    rw [mark]
    rfl
  let looped := begun.set a (begun.get a).reentered
  have inner : (outcomeOf (askTraced texts 0 [a]) (texts.get a)).run (begun, [⟨[], a, true⟩]) =
      some ((looped.get a).outcome, looped, [⟨[], a, true⟩, ⟨[a], a, false⟩]) := by
    rw [CellText.outcomeOf_eq, formula]
    dsimp only
    rw [read, Expr.evaluate]
    exact run_askTraced texts (run_visitTraced_of_evaluating texts evaluated evaluating _)
  have shallow : (visitTraced texts (0 + 1) [] a).run (rs, []) = some ((), _, _) :=
    visitTraced_of_untouched texts fresh inner
  have enough : 0 + 1 ≤ cellCount := by decide
  have run := sustains_visitTraced texts [] a enough _ _ shallow
  rw [run_visitTraced texts a rs (Nat.le_refl _)] at run
  exact congrArg (·.2.2) (Option.some.inj run)

/-- The first cell asks for itself, while every other cell counts as under way: the second call stands
inside the first. -/
theorem evaluation_ends_of_selfReference :
    let texts := (Sheet.empty.store .origin "=A1").texts
    let rs := (Grid.fill Record.unvisited.begun).set .origin .unvisited
    (visit texts cellCount .origin).run rs = some ((), settle texts .origin rs) ∧
      calls texts .origin rs = [⟨[], .origin, true⟩, ⟨[.origin], .origin, false⟩] ∧
      [Address.origin].Nodup ∧ [Address.origin].length ≤ cellCount ∧
      (texts.get .origin).formula? = some ['A', '1'] ∧
      Expr.ofCharsWithin 15 ['A', '1'] = some (Expr.ofChars ['A', '1']) := by
  intro texts rs
  have fresh : Address.origin ∈ untouched rs := by
    rw [mem_untouched, Grid.get_set, if_pos rfl]
    exact ⟨rfl, rfl⟩
  have formula : (texts.get .origin).formula? = some ['A', '1'] := by
    change ((Sheet.empty.texts.set .origin (.ofString "=A1")).get .origin).formula? = _
    rw [Grid.get_set, if_pos rfl]
    decide
  have label : Lexeme (.label (some .origin)) ['A', '1'] := .inside (.inl rfl) nofun (by decide) rfl
  have spelling : Spelling _ ['A', '1'] := .of_lexeme label <| @Spelling.done [] nofun
  have read : Expr.ofChars ['A', '1'] = .reference .origin :=
    Expr.ofChars_of_writtenAs ⟨_, spelling, .product (.factor .label)⟩
  have made := calls_of_selfReference fresh formula read
  obtain ⟨⟨-, ends⟩, nested, -, reads⟩ := evaluation_ends texts rs .origin
  have around : ⟨[.origin], .origin, false⟩ ∈ calls texts .origin rs := by
    rw [made]
    exact List.mem_cons_of_mem _ List.mem_cons_self
  have outermost : ⟨[], .origin, true⟩ ∈ calls texts .origin rs := by
    rw [made]
    exact List.mem_cons_self
  have distinct := ((nested _ outermost).2.2 rfl).1
  exact ⟨(ends cellCount (Nat.le_refl _)).1, made, distinct, (nested _ around).2.1, formula,
    (reads .origin _ formula).2.2 15 (by decide)⟩

end Records

end Worksheet
