import Calculator.Grammar.Node

/-!
# The grammar

    expression = term (('+' | '-') term)*
    term       = factor (('*' | '/') factor)*
    factor     = sign factor | primary ('^' factor)?
    primary    = number | variable | function factor | '(' expression ')'

Spaces may stand before every token, and no operator follows an operator. The
functions call one another on fewer characters or further down the grammar.
-/

namespace Calculator

/-- The operators of a sum and those of a product. Both kinds group to the left. -/
inductive Rank where
  | sum
  | product
deriving DecidableEq, Repr

namespace Rank

def operator? : Rank → Char → Option BinaryOp
  | sum, '+' => some .add
  | sum, '-' => some .sub
  | product, '*' => some .mul
  | product, '/' => some .div
  | _, _ => none

/-- How far up the grammar the operands of the rank stand. -/
def level : Rank → Nat
  | product => 3
  | sum => 6

end Rank

namespace Descent

theorem current?_of_bind {α : Type} {s : Reader} {f : Char → Option α} {a : α}
    (h : s.cursor.current?.bind f = some a) : ∃ c, s.cursor.current? = some c :=
  (Option.bind_eq_some_iff.1 h).imp fun _ hc => hc.1

theorem left_lt_of_bind {α : Type} {s : Reader} {f : Char → Option α} {a : α}
    (h : s.skipSpaces.cursor.current?.bind f = some a) : s.skipSpaces.advance.left < s.left :=
  let ⟨_, hc⟩ := current?_of_bind h
  Nat.lt_of_lt_of_le (Reader.left_advance_lt hc) s.continues_skipSpaces.left_le

theorem continues_token (s : Reader) : s.Continues s.skipSpaces.advance :=
  s.continues_skipSpaces.trans s.skipSpaces.continues_advance

/-- The measure of a call: the characters left, and then how far up the grammar it stands. -/
def measure (left level : Nat) : Nat :=
  9 * left + level

/-- A call descends on fewer characters, or on no more of them further down the grammar. -/
theorem measure_lt {m n k l : Nat} (hk : k ≤ 8) (h : m < n ∨ m ≤ n ∧ k < l) :
    measure m k < measure n l := by
  unfold measure
  omega

theorem level_le (rank : Rank) : rank.level ≤ 6 := by
  cases rank <;> decide

mutual

/-- Operands of one rank with its operators between them. -/
def chain (rules : Rules) (rank : Rank) (s : Reader) : Outcome Measured s :=
  (operand rules rank s).andThen (.refl s) fun left s₁ h₁ =>
  have := h₁.left_le
  tail rules rank left s₁
termination_by measure s.left (rank.level + 2)
decreasing_by all_goals exact measure_lt (by have := level_le rank; omega) (by omega)

/-- The operators and operands that follow `left`. -/
def tail (rules : Rules) (rank : Rank) (left : Measured) (s : Reader) : Outcome Measured s :=
  match h : s.skipSpaces.cursor.current?.bind rank.operator? with
  | none => ⟨.ok left s.skipSpaces, s.continues_skipSpaces⟩
  | some op =>
    have := left_lt_of_bind h
    (Onward.rejectOperator.outcome s.skipSpaces.advance).andThen (continues_token s)
      fun _ s₁ h₁ =>
    have := h₁.left_le
    (operand rules rank s₁).andThen (.refl s₁) fun right s₂ h₂ =>
    have := h₂.left_le
    ((Onward.binary rules op s.skipSpaces.cursor.column left right).outcome s₂).andThen (.refl s₂)
      fun node s₃ h₃ =>
    have := h₃.left_le
    tail rules rank node s₃
termination_by measure s.left (rank.level + 1)
decreasing_by all_goals exact measure_lt (by have := level_le rank; omega) (by omega)

def operand (rules : Rules) (rank : Rank) (s : Reader) : Outcome Measured s :=
  match rank with
  | .sum => chain rules .product s
  | .product => factor rules s
termination_by measure s.left rank.level
decreasing_by all_goals exact measure_lt (by simp [Rank.level]) (by simp [Rank.level])

/-- A factor, which counts as open until it ends. -/
def factor (rules : Rules) (s : Reader) : Outcome Measured s :=
  if withinLimit rules.limits.nesting (s.openFactors + 1) then (signed rules s.enter).leave
  else (Onward.failHere .tooDeeplyNested).outcome s
termination_by measure s.left 2
decreasing_by exact measure_lt (by decide) (by simp)

/-- A sign binds looser than a power, and powers group to the right. -/
def signed (rules : Rules) (s : Reader) : Outcome Measured s :=
  let column := s.skipSpaces.cursor.column
  match h : s.skipSpaces.cursor.current?.bind Sign.ofChar? with
  | some sign =>
    have := left_lt_of_bind h
    (factor rules (s.skipSpaces.advance.note (.signed sign column))).andThen
      ((continues_token s).trans (Reader.continues_note _ _)) fun operand s₁ _ =>
    (Onward.unary rules sign column operand).outcome s₁
  | none =>
    have := s.continues_skipSpaces.left_le
    (primary rules s.skipSpaces).andThen s.continues_skipSpaces fun base s₁ h₁ =>
    have := h₁.left_le
    let column := s₁.skipSpaces.cursor.column
    if hp : s₁.skipSpaces.cursor.current? = some '^' then
      have := s₁.continues_skipSpaces.left_le
      have := Reader.left_advance_lt hp
      (Onward.rejectOperator.outcome s₁.skipSpaces.advance).andThen (continues_token s₁)
        fun _ s₂ h₄ =>
      have := h₄.left_le
      (factor rules s₂).andThen (.refl s₂) fun exponent s₃ _ =>
      (Onward.binary rules .pow column base exponent).outcome s₃
    else ⟨.ok base s₁.skipSpaces, s₁.continues_skipSpaces⟩
termination_by measure s.left 1
decreasing_by all_goals exact measure_lt (by decide) (by simp; omega)

def primary (rules : Rules) (s : Reader) : Outcome Measured s :=
  have := s.continues_skipSpaces.left_le
  let column := s.skipSpaces.cursor.column
  match h : s.skipSpaces.cursor.current? with
  | none => ((Onward.missingOperand rules).outcome s.skipSpaces).after s.continues_skipSpaces
  | some c =>
    if c = '(' then
      have := Reader.left_advance_lt h
      (chain rules .sum s.skipSpaces.advance).andThen (continues_token s) fun inner s₁ _ =>
      (Onward.close rules inner).outcome s₁
    else if isNumberChar c then
      (Onward.number.outcome s.skipSpaces).after s.continues_skipSpaces
    else if hc : c.isLower then
      have := Reader.left_skipWhile_lt h hc
      let word := String.ofList (s.skipSpaces.cursor.rest.takeWhile Char.isLower)
      let s₁ := s.skipSpaces.skipWhile Char.isLower
      have h₂ := s.continues_skipSpaces.trans (s.skipSpaces.continues_skipWhile Char.isLower)
      match Function.ofName? word with
      | some function =>
        (factor rules (s₁.note (.called function column))).andThen
          (h₂.trans (Reader.continues_note _ _)) fun argument s₂ _ =>
        (Onward.call rules function column argument).outcome s₂
      | none => ⟨.ok ⟨.var word column, 1⟩ s₁, h₂⟩
    else ((Onward.missingOperand rules).outcome s.skipSpaces).after s.continues_skipSpaces
termination_by measure s.left 0
decreasing_by all_goals exact measure_lt (by decide) (by simp [Rank.level]; omega)

end

end Descent

end Calculator
