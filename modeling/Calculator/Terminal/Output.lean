import Calculator.Error
import Calculator.Expr

/-!
# Output

What is written and where to: texts in colour, the lines that report a value, a
tree or an error, and sinks that keep the bytes written to them.
-/

namespace Calculator

/-! ## Colours -/

/-- A colour by its components, up to 255 each. -/
structure Color where
  r : Nat
  g : Nat
  b : Nat

namespace Color

/-- Switches the foreground to the colour. -/
def foreground (c : Color) : String :=
  "\x1b[38;2;" ++ toString c.r ++ ";" ++ toString c.g ++ ";" ++ toString c.b ++ "m"

/-- The text in the colour, and then the foreground as it was by default. -/
def paint (c : Color) (text : String) : String :=
  c.foreground ++ text ++ "\x1b[39m"

/-- The text in the colour and bold, and then everything as it was by default. -/
def paintBold (c : Color) (text : String) : String :=
  c.foreground ++ "\x1b[1m" ++ text ++ "\x1b[0m"

def blue : Color := ⟨137, 180, 250⟩

def orange : Color := ⟨250, 179, 135⟩

def green : Color := ⟨166, 227, 161⟩

def red : Color := ⟨243, 139, 168⟩

def yellow : Color := ⟨249, 226, 175⟩

def grey : Color := ⟨108, 112, 134⟩

end Color

/-! ## Reports -/

namespace Report

/-- The line that shows a value. -/
def value (x : Float) : String :=
  Color.green.paint (Numeral.write x) ++ "\n"

/-- The line that shows a tree. -/
def tree (expr : Expr) : String :=
  Color.grey.paint expr.text ++ "\n"

/-- The message, the source text, and a caret under the column of the error. -/
def error (source : String) (e : EvalError) : String :=
  Color.red.paint e.message ++ "\n" ++
    "  " ++ source ++ "\n" ++
    "  " ++ String.ofList (List.replicate (e.column - 1) ' ') ++ Color.yellow.paintBold "^" ++ "\n"

end Report

/-! ## Sinks -/

/-- An output with a limit accepts that many bytes in all, and a write that goes beyond them
fails. -/
structure Sink where
  limit : Option Nat := none
  accepted : ByteArray := .empty

namespace Sink

/-- What a limit leaves of all the bytes written. -/
def clip : Option Nat → ByteArray → ByteArray
  | none, bytes => bytes
  | some limit, bytes => bytes.extract 0 limit

/-- Accepts as much of the text as the limit allows, and fails if that is not all. -/
def write (text : String) (s : Sink) : Except Fault Unit × Sink :=
  let bytes := s.accepted ++ text.toUTF8
  let kept := clip s.limit bytes
  (if kept.size < bytes.size then .error .pipeClosed else .ok (), { s with accepted := kept })

theorem write_of_unlimited (text : String) {s : Sink} (h : s.limit = none) :
    s.write text = (.ok (), { s with accepted := s.accepted ++ text.toUTF8 }) := by
  simp [write, h, clip]

end Sink

end Calculator
