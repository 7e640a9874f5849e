/-!
# Cursors

A place in a text, from which characters are read one by one. Only the plain
space is skipped between tokens.
-/

namespace Calculator

/-- The characters still to be read, and the number of those before them. -/
structure Cursor where
  rest : List Char
  position : Nat
deriving DecidableEq, Repr

/-- The characters that may not follow an operator. -/
def isOperatorChar (c : Char) : Bool :=
  c == '+' || c == '-' || c == '*' || c == '/' || c == '^' || c == ')'

/-- The characters of number literals. -/
def isNumberChar (c : Char) : Bool :=
  c.isDigit || c == '.'

namespace Cursor

def ofText (s : String) : Cursor :=
  ⟨s.toList, 0⟩

def current? (c : Cursor) : Option Char :=
  c.rest.head?

def atEnd (c : Cursor) : Bool :=
  c.rest.isEmpty

/-- Columns count from one. -/
def column (c : Cursor) : Nat :=
  c.position + 1

/-- One character further; at the end the cursor stays. -/
def advance (c : Cursor) : Cursor :=
  match c.rest with
  | [] => c
  | _ :: rest => ⟨rest, c.position + 1⟩

def skipWhile (p : Char → Bool) (c : Cursor) : Cursor :=
  ⟨c.rest.dropWhile p, c.position + (c.rest.takeWhile p).length⟩

/-- The run of characters in the class `p` at the cursor, and the cursor after it. -/
def takeWhile (p : Char → Bool) (c : Cursor) : List Char × Cursor :=
  (c.rest.takeWhile p, c.skipWhile p)

def skipSpaces (c : Cursor) : Cursor :=
  c.skipWhile (· == ' ')

/-- Skips spaces and then the character `expected`, if it comes next. -/
def consume (expected : Char) (c : Cursor) : Bool × Cursor :=
  if c.skipSpaces.current? = some expected then (true, c.skipSpaces.advance)
  else (false, c.skipSpaces)

/-- Skips spaces and looks for a character that may not follow an operator. -/
def atOperator (c : Cursor) : Bool × Cursor :=
  (c.skipSpaces.current?.any isOperatorChar, c.skipSpaces)

theorem atEnd_eq (c : Cursor) : c.atEnd = c.current?.isNone := by
  obtain ⟨rest, position⟩ := c
  cases rest <;> rfl

theorem rest_eq_cons {c : Cursor} {ch : Char} (h : c.current? = some ch) :
    c.rest = ch :: c.advance.rest := by
  obtain ⟨rest, position⟩ := c
  cases rest with
  | nil => cases h
  | cons a rest =>
    cases h
    rfl

theorem length_advance_lt {c : Cursor} {ch : Char} (h : c.current? = some ch) :
    c.advance.rest.length < c.rest.length := by
  rw [rest_eq_cons h]
  exact Nat.lt_succ_self _

theorem length_skipWhile_lt {p : Char → Bool} {c : Cursor} {ch : Char}
    (h : c.current? = some ch) (hp : p ch = true) :
    (c.skipWhile p).rest.length < c.rest.length := by
  have : (c.skipWhile p).rest = c.advance.rest.dropWhile p := by
    simp [skipWhile, rest_eq_cons h, hp]
  rw [this]
  exact Nat.lt_of_le_of_lt (List.dropWhile_suffix p).length_le (length_advance_lt h)

/-- Reading on from `c` leads to `c'`. -/
def Reaches (c c' : Cursor) : Prop :=
  ∃ text, c.rest = text ++ c'.rest ∧ c'.position = c.position + text.length

namespace Reaches

variable {a b c : Cursor}

theorem refl (c : Cursor) : c.Reaches c :=
  ⟨[], rfl, rfl⟩

theorem trans (h : a.Reaches b) (k : b.Reaches c) : a.Reaches c := by
  obtain ⟨text, hrest, hposition⟩ := h
  obtain ⟨text', hrest', hposition'⟩ := k
  refine ⟨text ++ text', ?_, ?_⟩
  · rw [hrest, hrest', List.append_assoc]
  · rw [hposition', hposition, List.length_append, Nat.add_assoc]

theorem length_le (h : a.Reaches b) : b.rest.length ≤ a.rest.length := by
  obtain ⟨text, hrest, -⟩ := h
  rw [hrest, List.length_append]
  exact Nat.le_add_left _ _

theorem position_le (h : a.Reaches b) : a.position ≤ b.position := by
  obtain ⟨text, -, hposition⟩ := h
  rw [hposition]
  exact Nat.le_add_right _ _

end Reaches

theorem reaches_advance (c : Cursor) : c.Reaches c.advance := by
  unfold advance
  split
  · exact .refl c
  · next ch rest h => exact ⟨[ch], h, rfl⟩

theorem reaches_skipWhile (p : Char → Bool) (c : Cursor) : c.Reaches (c.skipWhile p) :=
  ⟨c.rest.takeWhile p, List.takeWhile_append_dropWhile.symm, rfl⟩

theorem reaches_skipSpaces (c : Cursor) : c.Reaches c.skipSpaces :=
  reaches_skipWhile _ c

theorem reaches_consume (expected : Char) (c : Cursor) : c.Reaches (c.consume expected).2 := by
  unfold consume
  split
  · exact c.reaches_skipSpaces.trans c.skipSpaces.reaches_advance
  · exact c.reaches_skipSpaces

end Cursor

end Calculator
