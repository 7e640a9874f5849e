import Calculator.Decimal.Numeral

/-!
# Expressions

The trees of arithmetic expressions, what their signs, operators and functions do
to doubles, and their texts. Every node carries the column of its token in the
source text; columns count characters from one.
-/

namespace Calculator

inductive Sign where
  | plus
  | minus
deriving DecidableEq, Repr

inductive BinaryOp where
  | add
  | sub
  | mul
  | div
  | pow
deriving DecidableEq, Repr

/-- The named functions. Angles are in degrees. -/
inductive Function where
  | sqrt
  | sin
  | cos
  | tan
deriving DecidableEq, Repr

namespace Sign

def symbol : Sign → Char
  | plus => '+'
  | minus => '-'

def ofChar? : Char → Option Sign
  | '+' => some plus
  | '-' => some minus
  | _ => none

theorem ofChar?_eq_some_iff {c : Char} {sign : Sign} :
    ofChar? c = some sign ↔ c = sign.symbol := by
  constructor
  · intro h
    unfold ofChar? at h
    split at h <;> cases h <;> rfl
  · rintro rfl
    cases sign <;> rfl

end Sign

namespace BinaryOp

def symbol : BinaryOp → Char
  | add => '+'
  | sub => '-'
  | mul => '*'
  | div => '/'
  | pow => '^'

def ofChar? : Char → Option BinaryOp
  | '+' => some add
  | '-' => some sub
  | '*' => some mul
  | '/' => some div
  | '^' => some pow
  | _ => none

theorem ofChar?_eq_some_iff {c : Char} {op : BinaryOp} :
    ofChar? c = some op ↔ c = op.symbol := by
  constructor
  · intro h
    unfold ofChar? at h
    split at h <;> cases h <;> rfl
  · rintro rfl
    cases op <;> rfl

end BinaryOp

namespace Function

def name : Function → String
  | sqrt => "sqrt"
  | sin => "sin"
  | cos => "cos"
  | tan => "tan"

def ofName? (name : String) : Option Function :=
  if name = "sqrt" then some sqrt
  else if name = "sin" then some sin
  else if name = "cos" then some cos
  else if name = "tan" then some tan
  else none

theorem ofName?_eq_some_iff {s : String} {f : Function} : ofName? s = some f ↔ s = f.name := by
  constructor
  · intro h
    unfold ofName? at h
    repeat' split at h
    all_goals cases h
    all_goals assumption
  · rintro rfl
    cases f <;> decide

end Function

inductive Expr where
  | number (value : Float) (column : Nat)
  | var (name : String) (column : Nat)
  | unary (sign : Sign) (operand : Expr) (column : Nat)
  | binary (op : BinaryOp) (left right : Expr) (column : Nat)
  | call (function : Function) (argument : Expr) (column : Nat)
deriving DecidableEq

namespace Expr

/-- The column of the root. -/
def column : Expr → Nat
  | number _ column => column
  | var _ column => column
  | unary _ _ column => column
  | binary _ _ _ column => column
  | call _ _ column => column

/-- The number of nodes on the longest path to a leaf. -/
def height : Expr → Nat
  | number _ _ => 1
  | var _ _ => 1
  | unary _ operand _ => operand.height + 1
  | binary _ left right _ => max left.height right.height + 1
  | call _ argument _ => argument.height + 1

end Expr

/-!
## Arithmetic

Nothing here fails: division by zero and arguments outside a domain give
infinities and NaN.
-/

/-- One degree in radians. -/
def degree : Float := 0.017453292519943295

def Sign.apply : Sign → Float → Float
  | plus, x => x
  | minus, x => -x

def BinaryOp.apply : BinaryOp → Float → Float → Float
  | add, x, y => x + y
  | sub, x, y => x - y
  | mul, x, y => x * y
  | div, x, y => x / y
  | pow, x, y => Float.pow x y

def Function.apply : Function → Float → Float
  | sqrt, x => x.sqrt
  | sin, x => (x * degree).sin
  | cos, x => (x * degree).cos
  | tan, x => (x * degree).tan

/-- Every operator stands in parentheses with its operands, so that the text shows the tree. -/
def Expr.text : Expr → String
  | number value _ => Numeral.write value
  | var name _ => name
  | unary sign operand _ => "(" ++ sign.symbol.toString ++ operand.text ++ ")"
  | binary op left right _ =>
      "(" ++ left.text ++ " " ++ op.symbol.toString ++ " " ++ right.text ++ ")"
  | call function argument _ => function.name ++ "(" ++ argument.text ++ ")"

end Calculator
