import Calculator.Text

/-!
# Errors

Faults of the devices around a session, errors of a text and errors of an
evaluation, each with its message. Errors of a text point to a column, errors of a
variable to the variable.
-/

namespace Calculator

/-- What can go wrong when a value is asked for or a text is written. -/
inductive Fault where
  /-- No values can be had. -/
  | noValue (name : String)
  /-- The script has no answer for the name. -/
  | noScriptedValue (name : String)
  | inputClosed
  /-- A line of the input is not UTF-8. -/
  | malformedText
  /-- The reader of the output has gone. -/
  | pipeClosed
  | other (message : String)
deriving DecidableEq, Repr

namespace Fault

inductive Kind where
  | notFound
  | unexpectedEnd
  | invalidData
  | brokenPipe
  | other
deriving DecidableEq, Repr

def Kind.name : Kind → String
  | notFound => "NotFound"
  | unexpectedEnd => "UnexpectedEof"
  | invalidData => "InvalidData"
  | brokenPipe => "BrokenPipe"
  | other => "Other"

def kind : Fault → Kind
  | noValue _ => .notFound
  | noScriptedValue _ => .notFound
  | inputClosed => .unexpectedEnd
  | malformedText => .invalidData
  | pipeClosed => .brokenPipe
  | other _ => .other

def message : Fault → String
  | noValue name => "no value available for '" ++ name ++ "'"
  | noScriptedValue name => "no scripted value for '" ++ name ++ "'"
  | inputClosed => "input closed"
  | malformedText => "stream did not contain valid UTF-8"
  | pipeClosed => "pipe closed"
  | other message => message

end Fault

/-- Why a text is not an expression. -/
inductive ParseError.Kind where
  /-- An operator or a closing parenthesis right after an operator. -/
  | unexpectedOperator
  /-- The text goes on after a complete expression. -/
  | unexpectedCharacter (c : Char)
  | invalidNumber (literal : String)
  | unclosedParenthesis
  /-- An operand is missing; what stands there instead is nothing at the end of the text. -/
  | expectedOperand (found : Option Char)
  | tooDeeplyNested
deriving DecidableEq, Repr

structure ParseError where
  kind : ParseError.Kind
  column : Nat
deriving DecidableEq, Repr

namespace ParseError

def Kind.message : Kind → String
  | unexpectedOperator => "Syntax error: unexpected operator"
  | unexpectedCharacter c => "Unexpected character: " ++ c.toString
  | invalidNumber literal => "Invalid number: " ++ literal
  | unclosedParenthesis => "Syntax error: expected ')'"
  | expectedOperand (some c) => "Syntax error: expected operand, found '" ++ c.toString ++ "'"
  | expectedOperand none => "Syntax error: expected operand, found end of input"
  | tooDeeplyNested => "Syntax error: expression nested too deeply"

def message (e : ParseError) : String :=
  e.kind.message

end ParseError

/-- Why an expression has no value: its text does not parse, or a variable has none. -/
inductive EvalError where
  | parse (error : ParseError)
  /-- The answer for the variable is not a number. -/
  | invalidValue (name answer : String) (column : Nat)
  /-- There was no answer for the variable. -/
  | unresolved (name reason : String) (column : Nat)
deriving DecidableEq, Repr

namespace EvalError

def column : EvalError → Nat
  | parse error => error.column
  | invalidValue _ _ column => column
  | unresolved _ _ column => column

def message : EvalError → String
  | parse error => error.message
  | invalidValue name answer _ =>
      "Invalid value for variable '" ++ name ++ "': " ++ Text.quoted answer ++ " is not a number"
  | unresolved name reason _ =>
      "Could not read value for variable '" ++ name ++ "': " ++ reason

end EvalError

end Calculator
