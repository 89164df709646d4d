import Worksheet.Proofs.Evaluation.Recompute
import Worksheet.Proofs.Formula.Reading
import Worksheet.Sheet

/-!
Where an error comes from.

A formula fails by itself or because a reference does. In the second case the reference is the last
one asked for, since an error ends the evaluation, and the formula passes it on as it is
(`Expr.asked_of_error`). Following these references from a failed cell comes to an end unless the
error is that of a cycle, so that every other error has a cell that raised it:
`recompute_error_origin`.
-/

namespace Worksheet

/-! ## One formula -/

namespace Expr

theorem evaluateIn_reference (table : Address → Outcome) (a : Address) :
    (reference a).evaluateIn table = (table a, [a]) :=
  rfl

/-- An evaluation that gives a value has met values only. -/
theorem ok_of_mem_asked {table : Address → Outcome} {e : Expr} {x : Float} {a : Address}
    (given : (e.evaluateIn table).1 = .ok x) (asked : a ∈ (e.evaluateIn table).2) :
    ∃ y, table a = .ok y := by
  cases outcome : table a with
  | ok y => exact ⟨y, rfl⟩
  | error k => cases given.symm.trans (error_of_mem_asked asked outcome)

/-- An evaluation that fails has met values only, or the last reference asked for carries the error. -/
theorem asked_of_error {table : Address → Outcome} {e : Expr} {k : CellError}
    (failed : (e.evaluateIn table).1 = .error k) :
    (∀ a ∈ (e.evaluateIn table).2, ∃ x, table a = .ok x) ∨
      ∃ a, (e.evaluateIn table).2.getLast? = some a ∧ table a = .error k := by
  induction e with
  | number | outside | missing => exact .inl nofun
  | reference a => exact .inr ⟨a, rfl, failed⟩
  | negate operand ih =>
      rw [evaluateIn_negate] at failed ⊢
      rcases evaluated : operand.evaluateIn table with ⟨l | x, asked⟩
      · rw [evaluated] at failed ih
        exact ih failed
      · rw [evaluated] at failed
        cases failed
  | binary op left right ihLeft ihRight =>
      rw [evaluateIn_binary] at failed ⊢
      rcases evaluated : left.evaluateIn table with ⟨l | x, asked⟩
      · rw [evaluated] at failed ihLeft
        exact ihLeft failed
      have leftMet (a : Address) (member : a ∈ asked) : ∃ y, table a = .ok y :=
        ok_of_mem_asked (congrArg Prod.fst evaluated) (evaluated ▸ member)
      rcases evaluatedRight : right.evaluateIn table with ⟨l | y, more⟩
      · rw [evaluated, evaluatedRight] at failed
        rw [evaluatedRight] at ihRight
        dsimp only
        rcases ihRight failed with rightMet | ⟨a, last, carried⟩
        · exact .inl fun a member =>
            (List.mem_append.mp member).elim (leftMet a) (rightMet a)
        · refine .inr ⟨a, ?_, carried⟩
          rw [List.getLast?_append, last]
          rfl
      · have rightMet (a : Address) (member : a ∈ more) : ∃ z, table a = .ok z :=
          ok_of_mem_asked (congrArg Prod.fst evaluatedRight) (evaluatedRight ▸ member)
        exact .inl fun a member => (List.mem_append.mp member).elim (leftMet a) (rightMet a)
  | broken tree ih =>
      rw [evaluateIn_broken] at failed ⊢
      rcases evaluated : tree.evaluateIn table with ⟨l | x, asked⟩
      · rw [evaluated] at failed ih
        exact ih failed
      · exact .inl fun a member =>
          ok_of_mem_asked (congrArg Prod.fst evaluated) (evaluated ▸ member)

end Expr

/-! ## From cell to cell -/

/-- `b` is the last cell that the text of `a` asks the table for. -/
def AsksLast (texts : Grid CellText) (table : Address → Outcome) (a b : Address) : Prop :=
  ((texts.get a).evaluateIn table).2.getLast? = some b

/-- The text of `a` is a formula that fails although every reference it asks for has a value. -/
def Raises (texts : Grid CellText) (table : Address → Outcome) (k : CellError) (a : Address) : Prop :=
  ∃ body, (texts.get a).formula? = some body ∧ ((Expr.ofChars body).evaluateIn table).1 = .error k ∧
    ∀ b ∈ ((Expr.ofChars body).evaluateIn table).2, ∃ x, table b = .ok x

/-- A way from a failed cell to one that raises the error: each cell carries the error, and each but
the last has asked for the next one last. -/
structure ErrorTrail (texts : Grid CellText) (table : Address → Outcome) (k : CellError) (a : Address)
    (further : List Address) : Prop where
  linked : (a :: further).IsChain (AsksLast texts table)
  carried : ∀ b ∈ a :: further, table b = .error k
  raised : Raises texts table k ((a :: further).getLast (List.cons_ne_nil a further))

section Trail

variable {texts : Grid CellText} {table : Address → Outcome} {k : CellError} {a b : Address}
  {further : List Address}

theorem ErrorTrail.of_raises (carried : table a = .error k) (raises : Raises texts table k a) :
    ErrorTrail texts table k a [] where
  linked := .singleton a
  carried := List.forall_mem_singleton.mpr carried
  raised := raises

theorem ErrorTrail.cons (trail : ErrorTrail texts table k b further) (carried : table a = .error k)
    (asked : AsksLast texts table a b) : ErrorTrail texts table k a (b :: further) where
  linked := .cons_cons asked trail.linked
  carried := List.forall_mem_cons.mpr ⟨carried, trail.carried⟩
  raised := by
    rw [List.getLast_cons_cons]
    exact trail.raised

theorem CellText.evaluateIn_of_formula {t : CellText} {body : List Char}
    (formula : t.formula? = some body) :
    t.evaluateIn table = (Expr.ofChars body).evaluateIn table := by
  rw [evaluateIn, formula]

theorem AsksLast.demands (asked : AsksLast texts table a b) : Demands texts table a b :=
  List.mem_of_getLast? asked

/-- A text that fails raises the error or has asked last for a cell that carries it. -/
theorem raises_or_asksLast (failed : ((texts.get a).evaluateIn table).1 = .error k) :
    Raises texts table k a ∨ ∃ b, AsksLast texts table a b ∧ table b = .error k := by
  cases formula : (texts.get a).formula? with
  | none =>
      rw [CellText.evaluateIn, formula] at failed
      cases failed
  | some body =>
      have same : (texts.get a).evaluateIn table = (Expr.ofChars body).evaluateIn table :=
        CellText.evaluateIn_of_formula formula
      rw [same] at failed
      rcases Expr.asked_of_error failed with met | ⟨b, last, carried⟩
      · exact .inl ⟨body, formula, failed, met⟩
      · refine .inr ⟨b, ?_, carried⟩
        rw [AsksLast, same]
        exact last

/-- By the demands below the cell, which come to an end where the outcome is no cycle. -/
theorem Solution.exists_trail (S : Solution texts) (failed : S.table a = .error k)
    (known : k ≠ .cycle) : ∃ further, ErrorTrail texts S.table k a further := by
  have noCycle : S.table a ≠ .error .cycle := by
    rw [failed]
    exact fun same => known (Except.error.inj same)
  induction S.grounded a noCycle with
  | intro a _ ih =>
      rcases raises_or_asksLast ((S.solves a).symm.trans failed) with raises | ⟨b, asked, carried⟩
      · exact ⟨[], .of_raises failed raises⟩
      · have noCycleNext : S.table b ≠ .error .cycle := by
          rw [carried, ← failed]
          exact noCycle
        obtain ⟨further, trail⟩ := ih b asked.demands carried noCycleNext
        exact ⟨b :: further, trail.cons failed asked⟩

end Trail

/-! ## After a recompute -/

theorem Records.table_eq_evaluateIn (texts : Grid CellText) (a : Address) :
    (recompute texts).table a = ((texts.get a).evaluateIn (recompute texts).table).1 := by
  obtain ⟨S⟩ := exists_solution texts
  rw [table_recompute S]
  exact S.solves a

/-- From a cell with an error other than that of a cycle, following the last reference that each formula
asked for leads through cells with the same error to a formula that raises it; and a formula that asks
for a failed cell has that cell's error. -/
theorem recompute_error_origin (texts : Grid CellText) (a : Address) :
    let table := (Records.recompute texts).table
    (∀ k, table a = .error k → k ≠ .cycle → ∃ further, ErrorTrail texts table k a further) ∧
      ∀ b k, Demands texts table a b → table b = .error k → table a = .error k := by
  obtain ⟨S⟩ := exists_solution texts
  rw [Records.table_recompute S]
  exact ⟨fun k failed known => S.exists_trail failed known,
    fun b k demanded failed => S.error_of_demands demanded failed⟩

/-- A cell of the first row. -/
def firstRowCell (column : Nat) : Address := .nearest 0 column

namespace Sheet

/-- The first cell asks for the third, which is empty, and then for the second, whose label is
outside the grid. -/
def astray : Sheet :=
  (empty.store .origin "=C1*B1").store (firstRowCell 1) "=Z0"

section Astray

variable (table : Address → Outcome)

theorem evaluateIn_astray_second :
    (astray.texts.get (firstRowCell 1)).evaluateIn table = (.error .badReference, []) := by
  have text : astray.texts.get (firstRowCell 1) = .ofString "=Z0" := by
    rw [astray, store, Grid.get_set, if_pos rfl]
  have formula : (CellText.ofString "=Z0").formula? = some ['Z', '0'] := by decide
  have label : Lexeme (.label none) ['Z', '0'] := .outside rfl nofun (by decide) (by decide)
  have spelling : Spelling [.label none] ['Z', '0'] := .of_lexeme label <| @Spelling.done [] nofun
  have read : Expr.ofChars ['Z', '0'] = .outside :=
    Expr.ofChars_of_writtenAs ⟨_, spelling, .product (.factor .label)⟩
  rw [text, CellText.evaluateIn_of_formula formula, read]
  rfl

theorem evaluateIn_astray_third :
    (astray.texts.get (firstRowCell 2)).evaluateIn table = (.ok 0.0, []) := by
  have text : astray.texts.get (firstRowCell 2) = .empty := by
    rw [astray, store, Grid.get_set, if_neg (by decide), store, Grid.get_set, if_neg (by decide), empty,
      Grid.get_fill]
  rw [text]
  rfl

theorem evaluateIn_astray_first (zero : table (firstRowCell 2) = .ok 0.0)
    (lost : table (firstRowCell 1) = .error .badReference) :
    (astray.texts.get .origin).evaluateIn table =
      (.error .badReference, [firstRowCell 2, firstRowCell 1]) := by
  have text : astray.texts.get .origin = .ofString "=C1*B1" := by
    rw [astray, store, Grid.get_set, if_neg (by decide), store, Grid.get_set, if_pos rfl]
  have formula : (CellText.ofString "=C1*B1").formula? = some ['C', '1', '*', 'B', '1'] := by decide
  have third : Lexeme (.label (some (firstRowCell 2))) ['C', '1'] :=
    .inside (.inl rfl) nofun (by decide) rfl
  have second : Lexeme (.label (some (firstRowCell 1))) ['B', '1'] :=
    .inside (.inl rfl) nofun (by decide) rfl
  have spelling : Spelling _ ['C', '1', '*', 'B', '1'] :=
    .of_lexeme third <| .of_lexeme .multiply <| .of_lexeme second <| .done nofun
  have read : Expr.ofChars ['C', '1', '*', 'B', '1'] =
      .binary .multiply (.reference (firstRowCell 2)) (.reference (firstRowCell 1)) :=
    Expr.ofChars_of_writtenAs
      ⟨_, spelling, .product (.times (.factor .label) (.inl rfl) .label)⟩
  rw [text, CellText.evaluateIn_of_formula formula, read, Expr.evaluateIn_binary,
    Expr.evaluateIn_reference, Expr.evaluateIn_reference, zero, lost]
  rfl

end Astray

end Sheet

/-- The first cell has the error of the second, which it asks for last. -/
theorem recompute_error_origin_of_astray :
    let second := firstRowCell 1
    let table := (Records.recompute Sheet.astray.texts).table
    (table .origin = .error .badReference ∧ CellError.badReference ≠ .cycle ∧
      ∃ further, ErrorTrail Sheet.astray.texts table .badReference .origin further) ∧
    Demands Sheet.astray.texts table .origin second ∧ table second = .error .badReference := by
  intro second table
  have solves := Records.table_eq_evaluateIn Sheet.astray.texts
  have lost : table second = .error .badReference :=
    (solves second).trans (congrArg Prod.fst (Sheet.evaluateIn_astray_second table))
  have zero : table (firstRowCell 2) = .ok 0.0 :=
    (solves _).trans (congrArg Prod.fst (Sheet.evaluateIn_astray_third table))
  have asked : Demands Sheet.astray.texts table .origin second := by
    rw [Demands, Sheet.evaluateIn_astray_first table zero lost]
    decide
  obtain ⟨origin, passedOn⟩ := recompute_error_origin Sheet.astray.texts .origin
  have failed : table .origin = .error .badReference := passedOn second _ asked lost
  exact ⟨⟨failed, nofun, origin _ failed nofun⟩, asked, lost⟩

end Worksheet
