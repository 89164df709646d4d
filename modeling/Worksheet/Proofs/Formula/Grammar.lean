import Worksheet.Formula.Evaluation
import Worksheet.Proofs.Numeral.Scanning

/-!
The grammar of formulas, and what a formula comes to.

    sum     := product (('+' | '-') product)*
    product := factor (('*' | '/') factor)*
    factor  := '(' sum ')' | ('+' | '-') factor | label | number

`Derives` is this grammar on tokens, `Spelling` says how tokens are written, with blanks before,
between and after them and nowhere else, and `Formula.WrittenAs` puts the two together. None of them
says how a text is read.

`Formula.steps` lists the steps that evaluate a formula, operands before their operator and left
before right, and `Step.run` carries out such a list until a step fails.
-/

namespace Worksheet

/-! ## Trees -/

/-- The tree of a formula; a label without an address names a row outside the grid. -/
inductive Formula where
  | number (value : Float)
  | label (a : Option Address)
  | plus (operand : Formula)
  | minus (operand : Formula)
  | binary (op : Operator) (left right : Formula)

/-! ## Phrases -/

inductive Category where
  | sum
  | product
  | factor

/-- The tokens of each category, with the tree of the phrase. Both levels of operators grow at their
right end, so that they associate to the left. -/
inductive Derives : Category → List Token → Formula → Prop
  | product {ts : List Token} {f : Formula} : Derives .product ts f → Derives .sum ts f
  | sum {ts us : List Token} {f g : Formula} {op : Operator} :
    Derives .sum ts f → op = .add ∨ op = .subtract → Derives .product us g →
    Derives .sum (ts ++ .operator op :: us) (.binary op f g)
  | factor {ts : List Token} {f : Formula} : Derives .factor ts f → Derives .product ts f
  | times {ts us : List Token} {f g : Formula} {op : Operator} :
    Derives .product ts f → op = .multiply ∨ op = .divide → Derives .factor us g →
    Derives .product (ts ++ .operator op :: us) (.binary op f g)
  | bracket {ts : List Token} {f : Formula} :
    Derives .sum ts f → Derives .factor (.opening :: (ts ++ [.closing])) f
  | plus {ts : List Token} {f : Formula} :
    Derives .factor ts f → Derives .factor (.operator .add :: ts) (.plus f)
  | minus {ts : List Token} {f : Formula} :
    Derives .factor ts f → Derives .factor (.operator .subtract :: ts) (.minus f)
  | label {a : Option Address} : Derives .factor [.label a] (.label a)
  | number {value : Float} : Derives .factor [.number value] (.number value)

/-! ## Spelling -/

/-- How one token is written. A label is a letter in either case and the number of its row. -/
inductive Lexeme : Token → List Char → Prop
  | add : Lexeme (.operator .add) ['+']
  | subtract : Lexeme (.operator .subtract) ['-']
  | multiply : Lexeme (.operator .multiply) ['*']
  | divide : Lexeme (.operator .divide) ['/']
  | opening : Lexeme .opening ['(']
  | closing : Lexeme .closing [')']
  | number {n : Numeral} {text : List Char} : n.WrittenAs text → Lexeme (.number n.value) text
  | inside {a : Address} {letter : Char} {digits : List Char} :
    letter = Address.columnLetter a.column ∨ letter = (Address.columnLetter a.column).toLower →
    digits ≠ [] → Numeral.AllDigits digits →
    Nat.ofDigitChars 10 digits 0 = a.row + 1 → Lexeme (.label (some a)) (letter :: digits)
  | outside {letter : Char} {digits : List Char} :
    letter.isAlpha = true → digits ≠ [] → Numeral.AllDigits digits →
    (∀ row : Fin rowCount, Nat.ofDigitChars 10 digits 0 ≠ row + 1) →
    Lexeme (.label none) (letter :: digits)

def AllBlank (cs : List Char) : Prop := ∀ c ∈ cs, Text.isBlank c = true

instance (cs : List Char) : Decidable (AllBlank cs) :=
  List.decidableBAll (fun c : Char => Text.isBlank c = true) cs

/-- The tokens are written as `cs`, with any number of blanks in front of each and at the end. -/
inductive Spelling : List Token → List Char → Prop
  | done {blanks : List Char} : AllBlank blanks → Spelling [] blanks
  | token {t : Token} {ts : List Token} {blanks text cs : List Char} :
    AllBlank blanks → Lexeme t text → Spelling ts cs → Spelling (t :: ts) (blanks ++ (text ++ cs))

/-- The text derives from the grammar, with this tree. -/
def Formula.WrittenAs (f : Formula) (cs : List Char) : Prop :=
  ∃ ts, Spelling ts cs ∧ Derives .sum ts f

/-! ## Evaluation by steps -/

inductive Step where
  | push (value : Float)
  | fetch (a : Option Address)
  | negate
  | apply (op : Operator)

/-- The steps of a formula in postorder. A plus sign in front of a factor takes none. -/
def Formula.steps : Formula → List Step
  | number value => [.push value]
  | label a => [.fetch a]
  | plus operand => operand.steps
  | minus operand => operand.steps ++ [.negate]
  | binary op left right => left.steps ++ (right.steps ++ [.apply op])

/-- The operations on doubles themselves, with no check. -/
def Operator.compute : Operator → Float → Float → Float
  | .add, x, y => x + y
  | .subtract, x, y => x - y
  | .multiply, x, y => x * y
  | .divide, x, y => x / y

/-- Carries out steps on a stack of numbers; the first that fails ends the run with its error. The last
equation is for lists of steps that leave no single number and belong to no formula. -/
def Step.run {m : Type → Type} [Monad m] (resolve : Address → m Outcome) :
    List Step → List Float → m Outcome
  | [], [x] => pure (.ok x)
  | push value :: steps, stack =>
    if value.isFinite then run resolve steps (value :: stack) else pure (.error .parse)
  | fetch none :: _, _ => pure (.error .badReference)
  | fetch (some a) :: steps, stack => do
    match ← resolve a with
    | .ok x => run resolve steps (x :: stack)
    | .error k => return .error k
  | negate :: steps, x :: stack => run resolve steps (-x :: stack)
  | apply op :: steps, y :: x :: stack =>
    if op = .divide ∧ y == 0.0 then pure (.error .divisionByZero)
    else if (op.compute x y).isFinite then run resolve steps (op.compute x y :: stack)
    else pure (.error .parse)
  | _, _ => pure (.error .parse)

end Worksheet
