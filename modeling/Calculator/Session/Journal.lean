import Calculator.Decimal.Numeral
import Calculator.Error
import Calculator.Expr
import Calculator.Grammar.Reader

/-!
# The journal

What a session reports about its work, and the lines in which it is written.
-/

namespace Calculator

namespace ParseEvent

def message : ParseEvent → String
  | signed sign column => "unary " ++ sign.symbol.toString ++ " at column " ++ toString column
  | called function column => "call " ++ function.name ++ " at column " ++ toString column
  | completed expr length height =>
      "parsed " ++ expr.text ++ " (" ++ toString length ++ " chars, height " ++
        toString height ++ ")"

end ParseEvent

/-- A record with named fields, as a journal shows it. -/
def record (name : String) (fields : List (String × String)) : String :=
  name ++ " \x7b " ++ ", ".intercalate (fields.map fun (key, value) => key ++ ": " ++ value) ++
    " \x7d"

/-- A case with one value. -/
def tagged (name value : String) : String :=
  name ++ "(" ++ value ++ ")"

def columnRecord (column : Nat) : String :=
  record "SourceLocation" [("column", toString column)]

namespace ParseError

def Kind.inspect : Kind → String
  | unexpectedOperator => "UnexpectedOperator"
  | unexpectedCharacter c => tagged "UnexpectedCharacter" (Text.quotedChar c)
  | invalidNumber literal => tagged "InvalidNumber" (Text.quoted literal)
  | unclosedParenthesis => "UnclosedParen"
  | expectedOperand (some c) => tagged "ExpectedOperand" (tagged "Some" (Text.quotedChar c))
  | expectedOperand none => tagged "ExpectedOperand" "None"
  | tooDeeplyNested => "TooDeeplyNested"

def inspect (e : ParseError) : String :=
  record "ParseError" [("kind", e.kind.inspect), ("location", columnRecord e.column)]

end ParseError

namespace EvalError

def inspect : EvalError → String
  | parse error => tagged "Parse" error.inspect
  | invalidValue name answer column =>
      record "InvalidVariableValue"
        [("name", Text.quoted name), ("input", Text.quoted answer),
          ("location", columnRecord column)]
  | unresolved name reason column =>
      record "ResolverFailed"
        [("name", Text.quoted name), ("message", Text.quoted reason),
          ("location", columnRecord column)]

end EvalError

inductive Event where
  | parsing (event : ParseEvent)
  /-- The variable had its value already. -/
  | recalled (name : String) (value : Float)
  /-- The value of the variable is asked for. -/
  | resolving (name : String)
  | failed (source : String) (error : EvalError)

namespace Event

def level : Event → String
  | parsing _ => "TRACE"
  | recalled _ _ => "DEBUG"
  | resolving _ => "DEBUG"
  | failed _ _ => "DEBUG"

def message : Event → String
  | parsing event => event.message
  | recalled name value => "variable '" ++ name ++ "' cached as " ++ Numeral.write value
  | resolving name => "resolving variable '" ++ name ++ "'"
  | failed source error =>
      "evaluation of " ++ Text.quoted source ++ " failed: " ++ error.inspect

def line (event : Event) : String :=
  event.level ++ " " ++ event.message

end Event

end Calculator
