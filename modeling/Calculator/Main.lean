import Calculator.CommandLine.Program

/-!
# The command line

The program on the streams of its process.
-/

namespace Calculator.Main

/-- Turns an exception of a stream into a fault. -/
def guarded {α : Type} (action : IO α) : IO (Except Fault α) := do
  match ← action.toBaseIO with
  | .ok a => return .ok a
  | .error e => return .error (.other (toString e))

/-- Appends the bytes of the next line. -/
partial def readBytes (stream : IO.FS.Stream) (line : ByteArray) : IO ByteArray := do
  let bytes ← stream.read 1
  if bytes.isEmpty then return line
  let line := line ++ bytes
  if bytes.toList.contains Device.newline then return line
  readBytes stream line

def writer (stream : IO.FS.Stream) : Writer IO := fun text => guarded do
  stream.putStr text
  stream.flush

def console : IO (Console IO) := do
  let stdin ← IO.getStdin
  let stdout ← IO.getStdout
  return {
    write := writer stdout
    readLine := do
      match ← guarded (readBytes stdin .empty) with
      | .ok bytes => return (Device.readLine { input := bytes.toList }).1
      | .error fault => return .error fault }

partial def turns (console : Console IO) (err : Writer IO) (showTree : Bool) : Faulty IO Unit := do
  if ← Turn.dialogue console err showTree then
    turns console err showTree

end Calculator.Main

open Calculator Main in
def main (args : List String) : IO UInt32 := do
  let console ← console
  let err := writer (← IO.getStderr)
  return (← Program.run "calculator" console err (turns console err) args).toUInt32
