import Calculator.CommandLine.Options
import Calculator.Session.Stage

/-!
# The program

A run of the program, on any console and any place for errors. With an
expression among the arguments there is one turn; without one there is a
dialogue that goes on to its end.
-/

namespace Calculator

namespace Program

def usage (program : String) : String :=
  "Usage: " ++ program ++ " [--strict] [--ast] [--var NAME=VALUE]... [EXPRESSION...]\n\n" ++
  "Options:\n" ++
  "  --strict          Reject missing ')' and missing operands\n" ++
  "  --ast             Print the parsed expression tree before the value\n" ++
  "  --var NAME=VALUE  Give a variable its value up front\n\n" ++
  "Without an expression, reads expressions line by line from stdin.\n" ++
  "Unknown variables are asked for once and remembered.\n\n" ++
  "Examples:\n" ++
  "  " ++ program ++ " '2 ^ 3 + sqrt(16)'\n" ++
  "  " ++ program ++ " --var r=2 '3.14159 * r ^ 2'\n"

/-- The last words of a run that a fault ends. -/
def obituary (fault : Fault) : String :=
  "Error: " ++
    record "Error" [("kind", fault.kind.name), ("message", Text.quoted fault.message)] ++ "\n"

variable {m : Type → Type} [Monad m]

def session (o : Options) : Session :=
  { bindings := o.bindings, rules := { strict := o.strict } }

/-- Up to `count` turns of a dialogue. -/
def converse (console : Console m) (err : Writer m) (showTree : Bool) : Nat → Faulty m Unit
  | 0 => return ()
  | count + 1 => do
    if ← Turn.dialogue console err showTree then
      converse console err showTree count

/-- One turn, or a dialogue of as many turns as `turns` takes. The answer is the exit
status. -/
def calculate (console : Console m) (err : Writer m) (turns : Bool → Faulty m Unit)
    (o : Options) : Faulty m Nat := do
  match o.expression? with
  | some source =>
    return if ← Turn.run console.resolver console.write err o.showTree source then 0 else 1
  | none =>
    Turn.outside (console.write "Enter expression:\n")
    turns o.showTree
    return 0

/-- Runs the program on its arguments; the answer is the exit status. -/
def run (program : String) (console : Console m) (err : Writer m) (turns : Bool → Faulty m Unit)
    (args : List String) : m Nat := do
  match Request.ofArguments args with
  | .ok .help =>
    let _ ← err (usage program)
    return 0
  | .error e =>
    let _ ← err ("Error: " ++ e.message ++ "\n\n" ++ usage program)
    return 2
  | .ok (.calculate o) =>
    match ← (calculate console err turns o).run.run' (session o) with
    | .ok status => return status
    | .error fault =>
      let _ ← err (obituary fault)
      return 1

end Program

/-- The streams of a run in memory. -/
structure Streams where
  device : Device
  errors : Sink := {}

namespace Streams

def console : Console (StateM Streams) where
  write text s :=
    let (result, device) := s.device.write text
    (result, { s with device })
  readLine s :=
    let (result, device) := s.device.readLine
    (result, { s with device })

def writeError : Writer (StateM Streams) := fun text s =>
  let (result, errors) := s.errors.write text
  (result, { s with errors })

/-- Runs the program on the given input. Every turn but the last reads a line, so that the
number of bytes bounds the number of turns. -/
def run (program : String) (args : List String) (input : List UInt8) : Nat × Streams :=
  let turns (showTree : Bool) := Program.converse console writeError showTree (input.length + 1)
  (Program.run program console writeError turns args).run { device := { input } }

end Streams

end Calculator
