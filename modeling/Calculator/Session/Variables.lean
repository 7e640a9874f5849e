import Calculator.Decimal.Numeral
import Calculator.Error
import Std.Data.ExtTreeMap

/-!
# Variables

The values of variables, in the order of the names, and where those of unknown
variables come from: a resolver gives the text of an answer for a name, or a
fault.
-/

namespace Calculator

abbrev Bindings := Std.ExtTreeMap String Float

namespace Bindings

/-- Binds the names in turn; the last value of a name counts. -/
def ofPairs (pairs : List (String × Float)) : Bindings :=
  .ofList pairs

end Bindings

/-- The number that an answer gives, blanks around it apart. -/
def answerValue? (answer : String) : Option Float :=
  Numeral.read? (Text.trim answer.toList)

/-! ## Resolvers -/

abbrev Resolver (m : Type → Type) := String → m (Except Fault String)

namespace Resolver

variable {m : Type → Type} [Monad m]

/-- Refuses every name. -/
def refuse : Resolver m :=
  fun name => pure (.error (.noValue name))

end Resolver

/-- Answers by name, and the names asked for so far. -/
structure Script where
  answers : Std.ExtTreeMap String String
  requests : List String := []

namespace Script

/-- Of several answers for a name the last counts. -/
def ofPairs (pairs : List (String × String)) : Script :=
  { answers := .ofList pairs }

def answer (s : Script) (name : String) : Except Fault String :=
  match s.answers[name]? with
  | some answer => .ok answer
  | none => .error (.noScriptedValue name)

/-- Answers from the script, which records the request. -/
def resolver : Resolver (StateM Script) := fun name s =>
  (s.answer name, { s with requests := s.requests ++ [name] })

end Script

end Calculator
