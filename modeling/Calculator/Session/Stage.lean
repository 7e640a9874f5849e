import Calculator.Session.Evaluation
import Calculator.Terminal.Console

/-!
# Turns

One expression from its text to what is shown for it: its tree if that is
wanted, and its value or the reason why it has none. In a dialogue every turn
begins with a line that is read. A stage is where a turn can be played in memory.
-/

namespace Calculator

abbrev Writer (m : Type → Type) := String → m (Except Fault Unit)

/-- Steps of a session that a fault ends. -/
abbrev Faulty (m : Type → Type) := ExceptT Fault (StateT Session m)

namespace Turn

variable {m : Type → Type} [Monad m]

/-- A step outside of the session. -/
def outside {α : Type} (step : m (Except Fault α)) : Faulty m α :=
  ExceptT.mk (StateT.lift step)

/-- The outcome of an evaluation, which is no fault whatever it is. -/
def attempt {α : Type} (evaluation : Evaluation m α) : Faulty m (Except EvalError α) :=
  ExceptT.lift evaluation.run

/-- Shows why the expression has no value. -/
def fail (err : Writer m) (source : String) (e : EvalError) : Faulty m Bool := do
  modify (Session.note (.failed source e))
  outside (err (Report.error source e))
  return false

/-- Parses, shows the tree if it is wanted, and evaluates. The answer tells whether the
expression has a value. -/
def run (ask : Resolver m) (out err : Writer m) (showTree : Bool) (source : String) :
    Faulty m Bool := do
  match ← attempt (Evaluation.parse source) with
  | .error e => fail err source e
  | .ok expr =>
    if showTree then outside (out (Report.tree expr))
    match ← attempt (Evaluation.value ask expr) with
    | .ok value =>
      outside (out (Report.value value))
      return true
    | .error e => fail err source e

/-- A blank line and the words of farewell end a dialogue. -/
def isFarewell (line : String) : Bool :=
  line == "" || line == "exit" || line == "quit"

/-- Reads a line and takes it as an expression. The answer tells whether the dialogue goes
on. -/
def dialogue (console : Console m) (err : Writer m) (showTree : Bool) : Faulty m Bool := do
  outside (console.prompt "> ")
  match ← outside console.readLine with
  | none => return false
  | some line =>
    let source := String.ofList (Text.trim line.toList)
    if isFarewell source then return false
    let _ ← run console.resolver console.write err showTree source
    return true

end Turn

/-- A resolver that is a machine with states of any kind, one sink for what is shown, and one for
errors. -/
structure Stage (σ : Type) where
  /-- The state of the resolver. -/
  state : σ
  out : Sink := {}
  err : Sink := {}

namespace Stage

variable {σ : Type}

def resolver (ask : Resolver (StateM σ)) : Resolver (StateM (Stage σ)) := fun name s =>
  let (answer, state) := ask name s.state
  (answer, { s with state })

def writeOut : Writer (StateM (Stage σ)) := fun text s =>
  let (result, out) := s.out.write text
  (result, { s with out })

def writeErr : Writer (StateM (Stage σ)) := fun text s =>
  let (result, err) := s.err.write text
  (result, { s with err })

def run (ask : Resolver (StateM σ)) (showTree : Bool) (source : String) (session : Session)
    (s : Stage σ) : (Except Fault Bool × Session) × Stage σ :=
  ((Turn.run (resolver ask) writeOut writeErr showTree source).run.run session).run s

end Stage

end Calculator
