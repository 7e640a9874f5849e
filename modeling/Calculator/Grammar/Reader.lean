import Calculator.Error
import Calculator.Expr
import Calculator.Grammar.Cursor

/-!
# Reading an expression

The state of a reading, the rules it follows, and its elementary steps.
-/

namespace Calculator

/-- Bounds on the shape of expressions; without a number there is no bound. -/
structure Limits where
  /-- How many factors may be open at once. -/
  nesting : Option Nat
  /-- How high a tree may be. -/
  height : Option Nat
deriving DecidableEq, Repr

namespace Limits

def standard : Limits := ⟨some 128, some 1024⟩

def unlimited : Limits := ⟨none, none⟩

end Limits

/-- Whether `n` is within an optional bound. -/
def withinLimit (limit : Option Nat) (n : Nat) : Bool :=
  limit.all (n ≤ ·)

theorem withinLimit_mono {limit : Option Nat} {m n : Nat} (h : withinLimit limit n = true)
    (hmn : m ≤ n) : withinLimit limit m = true := by
  cases limit with
  | none => rfl
  | some k =>
    have hn : n ≤ k := by simpa [withinLimit] using h
    simpa [withinLimit] using Nat.le_trans hmn hn

theorem Limits.within_nesting {n : Nat} : withinLimit standard.nesting n = true ↔ n ≤ 128 := by
  simp [withinLimit, standard]

theorem Limits.within_height {n : Nat} : withinLimit standard.height n = true ↔ n ≤ 1024 := by
  simp [withinLimit, standard]

/-- The rules of a reading. Strict rules refuse a missing operand or closing parenthesis;
otherwise a missing operand is zero, and a missing parenthesis is closed. -/
structure Rules where
  strict : Bool := false
  limits : Limits := .standard
deriving DecidableEq, Repr

def Rules.permissive : Rules := {}

def Rules.strictly : Rules := { strict := true }

/-- What a reading reports while it goes on. -/
inductive ParseEvent where
  | signed (sign : Sign) (column : Nat)
  | called (function : Function) (column : Nat)
  /-- A whole text was read: its tree, the number of its characters, and the tree's height. -/
  | completed (expr : Expr) (length height : Nat)

/-- The state of a reading. -/
structure Reader where
  cursor : Cursor
  openFactors : Nat := 0
  journal : Array ParseEvent := #[]

/-- A tree with its height. -/
structure Measured where
  expr : Expr
  height : Nat

/-- A step of a reading, which leaves a state also when it fails. -/
abbrev Step := EStateM ParseError Reader

namespace Reader

def ofText (s : String) : Reader :=
  { cursor := .ofText s }

/-- The number of characters still to be read. -/
def left (s : Reader) : Nat :=
  s.cursor.rest.length

def skipSpaces (s : Reader) : Reader :=
  { s with cursor := s.cursor.skipSpaces }

def advance (s : Reader) : Reader :=
  { s with cursor := s.cursor.advance }

def skipWhile (p : Char → Bool) (s : Reader) : Reader :=
  { s with cursor := s.cursor.skipWhile p }

def enter (s : Reader) : Reader :=
  { s with openFactors := s.openFactors + 1 }

def leave (s : Reader) : Reader :=
  { s with openFactors := s.openFactors - 1 }

def note (e : ParseEvent) (s : Reader) : Reader :=
  { s with journal := s.journal.push e }

theorem left_advance_lt {s : Reader} {c : Char} (h : s.cursor.current? = some c) :
    s.advance.left < s.left :=
  Cursor.length_advance_lt h

theorem left_skipWhile_lt {p : Char → Bool} {s : Reader} {c : Char}
    (h : s.cursor.current? = some c) (hp : p c = true) : (s.skipWhile p).left < s.left :=
  Cursor.length_skipWhile_lt h hp

@[simp] theorem left_enter (s : Reader) : s.enter.left = s.left := rfl

@[simp] theorem left_note (e : ParseEvent) (s : Reader) : (s.note e).left = s.left := rfl

end Reader

namespace Step

/-- The state in which a step ends, whether it succeeds or fails. -/
def final {α : Type} : EStateM.Result ParseError Reader α → Reader
  | .ok _ s => s
  | .error _ s => s

def skipSpaces : Step Unit :=
  modify Reader.skipSpaces

def advance : Step Unit :=
  modify Reader.advance

def current? : Step (Option Char) :=
  return (← get).cursor.current?

def atEnd : Step Bool :=
  return (← get).cursor.atEnd

def column : Step Nat :=
  return (← get).cursor.column

def note (e : ParseEvent) : Step Unit :=
  modify (Reader.note e)

/-- Reads on by a function of the cursor, and returns what it returns. -/
def reading {α : Type} (f : Cursor → α × Cursor) : Step α :=
  modifyGet fun s => ((f s.cursor).1, { s with cursor := (f s.cursor).2 })

def takeWhile (p : Char → Bool) : Step (List Char) :=
  reading (Cursor.takeWhile p)

def consume (expected : Char) : Step Bool :=
  reading (Cursor.consume expected)

def atOperator : Step Bool :=
  reading Cursor.atOperator

def fail {α : Type} (kind : ParseError.Kind) (column : Nat) : Step α :=
  throw ⟨kind, column⟩

/-- Fails at the cursor. -/
def failHere {α : Type} (kind : ParseError.Kind) : Step α := do
  fail kind (← column)

/-- Skips spaces, and fails at a character that may not follow an operator. -/
def rejectOperator : Step Unit := do
  if ← atOperator then
    failHere .unexpectedOperator

theorem bind_apply {α β : Type} (a : Step α) (f : α → Step β) (s : Reader) :
    (a >>= f) s = match a s with
      | .ok x s' => f x s'
      | .error e s' => .error e s' := by
  show EStateM.bind a f s = _
  unfold EStateM.bind
  cases a s <;> rfl

@[simp] theorem pure_apply {α : Type} (a : α) (s : Reader) : (pure a : Step α) s = .ok a s := rfl

@[simp] theorem skipSpaces_apply (s : Reader) : skipSpaces s = .ok () s.skipSpaces := rfl

@[simp] theorem advance_apply (s : Reader) : advance s = .ok () s.advance := rfl

@[simp] theorem current?_apply (s : Reader) : current? s = .ok s.cursor.current? s := rfl

@[simp] theorem column_apply (s : Reader) : column s = .ok s.cursor.column s := rfl

@[simp] theorem note_apply (e : ParseEvent) (s : Reader) : note e s = .ok () (s.note e) := rfl

@[simp] theorem atEnd_apply (s : Reader) : atEnd s = .ok s.cursor.atEnd s := rfl

@[simp] theorem takeWhile_apply (p : Char → Bool) (s : Reader) :
    takeWhile p s = .ok (s.cursor.rest.takeWhile p) (s.skipWhile p) := rfl

theorem consume_apply (expected : Char) (s : Reader) :
    consume expected s =
      if s.skipSpaces.cursor.current? = some expected then .ok true s.skipSpaces.advance
      else .ok false s.skipSpaces := by
  show EStateM.Result.ok (s.cursor.consume expected).1
    { s with cursor := (s.cursor.consume expected).2 } = _
  rw [Cursor.consume]
  by_cases h : s.cursor.skipSpaces.current? = some expected
  · rw [if_pos h]
    exact (if_pos h).symm
  · rw [if_neg h]
    exact (if_neg h).symm

@[simp] theorem atOperator_apply (s : Reader) :
    atOperator s = .ok (s.skipSpaces.cursor.current?.any isOperatorChar) s.skipSpaces := rfl

@[simp] theorem failHere_apply {α : Type} (kind : ParseError.Kind) (s : Reader) :
    (failHere kind : Step α) s = .error ⟨kind, s.cursor.column⟩ s := rfl

end Step

end Calculator
