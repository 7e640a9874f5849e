import Calculator.Expr
import Calculator.Grammar.Parse
import Calculator.Session.Journal
import Calculator.Session.Variables

/-!
# Evaluation

A session keeps the values of variables from one expression to the next. A
variable without a value is asked for when the evaluation comes to it, from left
to right, and keeps the first value it gets. Parsing comes first, so that a text
that does not parse asks for nothing.
-/

namespace Calculator

structure Session where
  bindings : Bindings := ∅
  rules : Rules := .permissive
  journal : Array Event := #[]

namespace Session

def note (event : Event) (s : Session) : Session :=
  { s with journal := s.journal.push event }

def bind (name : String) (value : Float) (s : Session) : Session :=
  { s with bindings := s.bindings.insert name value }

/-- Parses by the rules of the session. -/
def parse (source : String) (s : Session) : Except ParseError Expr × Session :=
  let (result, reader) := (Reader.ofText source).parse s.rules
  (result, { s with journal := s.journal ++ reader.journal.map .parsing })

end Session

abbrev Evaluation (m : Type → Type) := ExceptT EvalError (StateT Session m)

namespace Evaluation

variable {m : Type → Type} [Monad m]

def note (event : Event) : Evaluation m Unit :=
  modify (Session.note event)

/-- Asks for the value of a variable and binds it. -/
def resolve (ask : Resolver m) (name : String) (column : Nat) : Evaluation m Float := do
  note (.resolving name)
  match ← (ask name : m _) with
  | .error fault => throw (.unresolved name fault.message column)
  | .ok answer =>
    match answerValue? answer with
    | none => throw (.invalidValue name answer column)
    | some value =>
      modify (Session.bind name value)
      return value

def lookup (ask : Resolver m) (name : String) (column : Nat) : Evaluation m Float := do
  match (← get).bindings[name]? with
  | some value =>
    note (.recalled name value)
    return value
  | none => resolve ask name column

/-- The value of a tree. -/
def value (ask : Resolver m) : Expr → Evaluation m Float
  | .number value _ => return value
  | .var name column => lookup ask name column
  | .unary sign operand _ => return sign.apply (← value ask operand)
  | .binary op left right _ => do
      let x ← value ask left
      let y ← value ask right
      return op.apply x y
  | .call function argument _ => return function.apply (← value ask argument)

def parse (source : String) : Evaluation m Expr := do
  match ← modifyGet (Session.parse source) with
  | .ok expr => return expr
  | .error e => throw (.parse e)

/-- The value of a text. -/
def evaluate (ask : Resolver m) (source : String) : Evaluation m Float := do
  value ask (← parse source)

end Evaluation

end Calculator
