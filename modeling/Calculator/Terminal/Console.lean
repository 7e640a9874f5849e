import Calculator.Session.Variables
import Calculator.Terminal.Output
import Calculator.Text

/-!
# Consoles

A dialogue by lines: questions are written, and answers are read. What a console
does is said once for any device that can write a text and read a line; a device
in memory has its input as bytes and a sink for its output.
-/

namespace Calculator

/-- What a dialogue needs: no line is read at the end of the input. -/
structure Console (m : Type → Type) where
  write : String → m (Except Fault Unit)
  readLine : m (Except Fault (Option String))

namespace Console

variable {m : Type → Type} [Monad m]

/-- Writes a text in the colour of prompts. -/
def prompt (console : Console m) (text : String) : m (Except Fault Unit) :=
  console.write (Color.blue.paint text)

/-- The line that asks for the value of a variable. -/
def question (name : String) : String :=
  Color.blue.paint "Enter the value for variable" ++ " " ++ Color.orange.paintBold name ++ ":\n"

/-- Asks for the value of a variable on the console. -/
def resolver (console : Console m) : Resolver m := fun name => ExceptT.run do
  ExceptT.mk (console.write (question name))
  match ← ExceptT.mk console.readLine with
  | some answer => return answer
  | none => throw .inputClosed

end Console

/-- A device in memory. -/
structure Device where
  input : List UInt8 := []
  output : Sink := {}

namespace Device

def newline : UInt8 := 10

def isLineEnd (c : Char) : Bool :=
  c == '\r' || c == '\n'

/-- Reads the bytes up to a newline, and returns them without the line end. A line that is
not UTF-8 is read all the same. -/
def readLine (device : Device) : Except Fault (Option String) × Device :=
  if device.input.isEmpty then (.ok none, device)
  else
    let line := device.input.takeWhile (· != newline)
    let rest := (device.input.dropWhile (· != newline)).drop 1
    let result :=
      match String.fromUTF8? line.toByteArray with
      | some text => .ok (some (String.ofList (Text.trimEnd isLineEnd text.toList)))
      | none => .error .malformedText
    (result, { device with input := rest })

def write (text : String) (device : Device) : Except Fault Unit × Device :=
  let (result, output) := device.output.write text
  (result, { device with output })

def console : Console (StateM Device) :=
  ⟨write, readLine⟩

end Device

end Calculator
