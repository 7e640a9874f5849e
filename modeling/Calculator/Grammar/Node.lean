import Calculator.Decimal.Numeral
import Calculator.Grammar.Progress

/-!
# Building nodes

The steps of a reading that make a node of the tree, or find that none can be
made.
-/

namespace Calculator

namespace Step

/-- The height of a node over children of height at most `height`. -/
def grow (rules : Rules) (height : Nat) : Step Nat :=
  if withinLimit rules.limits.height (height + 1) then pure (height + 1)
  else failHere .tooDeeplyNested

def binary (rules : Rules) (op : BinaryOp) (column : Nat) (left right : Measured) :
    Step Measured := do
  let height ← grow rules (max left.height right.height)
  return ⟨.binary op left.expr right.expr column, height⟩

def unary (rules : Rules) (sign : Sign) (column : Nat) (operand : Measured) :
    Step Measured := do
  let height ← grow rules operand.height
  return ⟨.unary sign operand.expr column, height⟩

def call (rules : Rules) (function : Function) (column : Nat) (argument : Measured) :
    Step Measured := do
  let height ← grow rules argument.height
  return ⟨.call function argument.expr column, height⟩

/-- A number literal is the whole run of digits and points. -/
def number : Step Measured := do
  let column ← column
  let literal ← takeWhile isNumberChar
  match Numeral.read? literal with
  | some value => return ⟨.number value column, 1⟩
  | none => fail (.invalidNumber (String.ofList literal)) column

/-- What stands for an operand where none begins. -/
def missingOperand (rules : Rules) : Step Measured := do
  let found ← current?
  let column ← column
  if rules.strict then fail (.expectedOperand found) column
  else return ⟨.number 0.0 column, 1⟩

/-- Skips the parenthesis that closes `inner`. -/
def close (rules : Rules) (inner : Measured) : Step Measured := do
  let closed ← consume ')'
  if !closed && rules.strict then failHere .unclosedParenthesis
  else return inner

end Step

namespace Onward

theorem grow (rules : Rules) (height : Nat) : Onward (Step.grow rules height) := by
  unfold Step.grow
  split
  · exact pure _
  · exact failHere _

theorem binary (rules : Rules) (op : BinaryOp) (column : Nat) (left right : Measured) :
    Onward (Step.binary rules op column left right) :=
  bind (grow _ _) fun _ => pure _

theorem unary (rules : Rules) (sign : Sign) (column : Nat) (operand : Measured) :
    Onward (Step.unary rules sign column operand) :=
  bind (grow _ _) fun _ => pure _

theorem call (rules : Rules) (function : Function) (column : Nat) (argument : Measured) :
    Onward (Step.call rules function column argument) :=
  bind (grow _ _) fun _ => pure _

theorem number : Onward Step.number :=
  bind column fun _ => bind (takeWhile _) fun _ => by
    split
    · exact pure _
    · exact fail _ _

theorem missingOperand (rules : Rules) : Onward (Step.missingOperand rules) :=
  bind current? fun _ => bind column fun _ => by
    split
    · exact fail _ _
    · exact pure _

theorem close (rules : Rules) (inner : Measured) : Onward (Step.close rules inner) :=
  bind (consume _) fun _ => by
    split
    · exact failHere _
    · exact pure _

end Onward

end Calculator
