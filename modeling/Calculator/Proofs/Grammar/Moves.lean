import Calculator.Proofs.Grammar.Lookahead

/-!
# The moves of a reading

For each grammar function, and each step it is made of, what it does at the next
token. Operations are read in one way behind the operators of every rank and
behind the sign of a power.
-/

namespace Calculator

theorem isOperatorChar_eq_false {c : Char} (h : isMarkChar c = false) :
    isOperatorChar c = false := by
  rw [Bool.eq_false_iff]
  intro hc
  simp only [isOperatorChar, Bool.or_eq_true, beq_iff_eq] at hc
  rcases hc with ((((rfl | rfl) | rfl) | rfl) | rfl) | rfl <;> exact absurd h (by decide)

theorem Reader.look_operator (s : Reader) :
    s.skipSpaces.cursor.current?.any isOperatorChar =
      (Token.mark? s.tokens).any isOperatorChar := by
  cases s.ahead with
  | nothing htokens hlook => rw [htokens, hlook]; rfl
  | mark c hc htokens hlook => rw [htokens, hlook]; rfl
  | number c hc htokens hlook =>
    rw [htokens, hlook]
    exact isOperatorChar_eq_false (by simp [isMarkChar, hc])
  | word c hc htokens hlook =>
    rw [htokens, hlook]
    exact isOperatorChar_eq_false (by simp [isMarkChar, hc])

namespace Step

theorem bind_eq_ok_iff {α β : Type} {a : Step α} {f : α → Step β} {s s' : Reader} {y : β} :
    (a >>= f) s = .ok y s' ↔ ∃ x s₁, a s = .ok x s₁ ∧ f x s₁ = .ok y s' := by
  rw [bind_apply]
  constructor
  · intro h
    split at h
    · next x s₁ hs => exact ⟨x, s₁, hs, h⟩
    · cases h
  · rintro ⟨x, s₁, hs, h⟩
    rw [hs]
    exact h

theorem rejectOperator_apply (s : Reader) :
    rejectOperator s =
      if (Token.mark? s.tokens).any isOperatorChar then
        .error ⟨.unexpectedOperator, s.nextColumn⟩ s.skipSpaces
      else .ok () s.skipSpaces := by
  simp only [rejectOperator, bind_apply, atOperator_apply, s.look_operator]
  split <;> rfl

theorem grow_apply (rules : Rules) (height : Nat) (s : Reader) :
    grow rules height s =
      if withinLimit rules.limits.height (height + 1) then .ok (height + 1) s
      else .error ⟨.tooDeeplyNested, s.cursor.column⟩ s := by
  unfold grow
  split <;> rfl

theorem binary_apply (rules : Rules) (op : BinaryOp) (column : Nat) (left right : Measured)
    (s : Reader) :
    binary rules op column left right s =
      if withinLimit rules.limits.height (max left.height right.height + 1) then
        .ok ⟨.binary op left.expr right.expr column, max left.height right.height + 1⟩ s
      else .error ⟨.tooDeeplyNested, s.cursor.column⟩ s := by
  rw [binary, bind_apply, grow_apply]
  by_cases h : withinLimit rules.limits.height (max left.height right.height + 1) = true
  · rw [if_pos h, if_pos h]
    rfl
  · rw [if_neg h, if_neg h]

theorem unary_apply (rules : Rules) (sign : Sign) (column : Nat) (operand : Measured)
    (s : Reader) :
    unary rules sign column operand s =
      if withinLimit rules.limits.height (operand.height + 1) then
        .ok ⟨.unary sign operand.expr column, operand.height + 1⟩ s
      else .error ⟨.tooDeeplyNested, s.cursor.column⟩ s := by
  rw [unary, bind_apply, grow_apply]
  by_cases h : withinLimit rules.limits.height (operand.height + 1) = true
  · rw [if_pos h, if_pos h]
    rfl
  · rw [if_neg h, if_neg h]

theorem call_apply (rules : Rules) (function : Function) (column : Nat) (argument : Measured)
    (s : Reader) :
    call rules function column argument s =
      if withinLimit rules.limits.height (argument.height + 1) then
        .ok ⟨.call function argument.expr column, argument.height + 1⟩ s
      else .error ⟨.tooDeeplyNested, s.cursor.column⟩ s := by
  rw [call, bind_apply, grow_apply]
  by_cases h : withinLimit rules.limits.height (argument.height + 1) = true
  · rw [if_pos h, if_pos h]
    rfl
  · rw [if_neg h, if_neg h]

theorem missingOperand_apply (rules : Rules) (s : Reader) :
    missingOperand rules s =
      if rules.strict then .error ⟨.expectedOperand s.cursor.current?, s.cursor.column⟩ s
      else .ok ⟨.number 0.0 s.cursor.column, 1⟩ s := by
  simp only [missingOperand, bind_apply, current?_apply, column_apply]
  split <;> rfl

theorem close_apply (rules : Rules) (inner : Measured) (s : Reader) :
    close rules inner s =
      if Token.mark? s.tokens = some ')' then .ok inner s.pass
      else if rules.strict then .error ⟨.unclosedParenthesis, s.nextColumn⟩ s.skipSpaces
      else .ok inner s.skipSpaces := by
  simp only [close, bind_apply, consume_apply,
    s.look_eq_iff (show isMarkChar ')' = true by decide)]
  by_cases hmark : Token.mark? s.tokens = some ')'
  · simp only [if_pos hmark]
    rfl
  · simp only [if_neg hmark]
    cases rules.strict <;> rfl

end Step

namespace Rank

/-- The rank of an operator; powers are of none. -/
def ofOp? : BinaryOp → Option Rank
  | .add => some sum
  | .sub => some sum
  | .mul => some product
  | .div => some product
  | .pow => none

theorem operator?_eq_some_iff {rank : Rank} {c : Char} {op : BinaryOp} :
    rank.operator? c = some op ↔ c = op.symbol ∧ ofOp? op = some rank := by
  constructor
  · intro h
    unfold operator? at h
    split at h <;> cases h <;> exact ⟨rfl, rfl⟩
  · rintro ⟨rfl, h⟩
    cases op <;> cases h <;> rfl

theorem operator?_eq_none {rank : Rank} {c : Char} (h : isMarkChar c = false) :
    rank.operator? c = none := by
  cases hop : rank.operator? c with
  | none => rfl
  | some op =>
    obtain ⟨rfl, -⟩ := operator?_eq_some_iff.1 hop
    cases op <;> exact absurd h (by decide)

end Rank

theorem Sign.ofChar?_eq_none {c : Char} (h : isMarkChar c = false) : Sign.ofChar? c = none := by
  cases hsign : Sign.ofChar? c with
  | none => rfl
  | some sign =>
    obtain rfl := Sign.ofChar?_eq_some_iff.1 hsign
    cases sign <;> exact absurd h (by decide)

namespace Grammar

open Step

/-- What follows the operator of an operation. -/
def operation (rules : Rules) (operand : Step Measured) (op : BinaryOp) (column : Nat)
    (left : Measured) : Step Measured := do
  rejectOperator
  let right ← operand
  binary rules op column left right

/-- What follows the base of a power, if it is one. -/
def power (rules : Rules) (base : Measured) : Step Measured := do
  skipSpaces
  let column ← column
  if (← current?) = some '^' then
    advance
    operation rules (factor rules) .pow column base
  else return base

theorem tail_apply (rules : Rules) (rank : Rank) (left : Measured) (s : Reader) :
    tail rules rank left s =
      match (Token.mark? s.tokens).bind rank.operator? with
      | none => .ok left s.skipSpaces
      | some op =>
        (operation rules (operand rules rank) op s.nextColumn left >>= tail rules rank) s.pass := by
  rw [← s.look_bind fun _ => Rank.operator?_eq_none, tail_eq]
  simp only [bind_apply, skipSpaces_apply, column_apply, current?_apply]
  cases s.skipSpaces.cursor.current?.bind rank.operator? with
  | none => rfl
  | some op =>
    simp only [operation, ← bind_apply, bind_assoc]
    rfl

theorem power_apply (rules : Rules) (base : Measured) (s : Reader) :
    power rules base s =
      if Token.mark? s.tokens = some '^' then
        operation rules (factor rules) .pow s.nextColumn base s.pass
      else .ok base s.skipSpaces := by
  simp only [power, bind_apply, skipSpaces_apply, column_apply, current?_apply,
    s.look_eq_iff (show isMarkChar '^' = true by decide)]
  split <;> rfl

theorem primary_skipSpaces (rules : Rules) (s : Reader) :
    primary rules s.skipSpaces = primary rules s := by
  simp only [primary_eq, bind_apply, skipSpaces_apply, Reader.skipSpaces_skipSpaces]

theorem signed_apply (rules : Rules) (s : Reader) :
    signed rules s =
      match (Token.mark? s.tokens).bind Sign.ofChar? with
      | some sign =>
        (factor rules >>= unary rules sign s.nextColumn) (s.pass.note (.signed sign s.nextColumn))
      | none => (primary rules >>= power rules) s := by
  rw [← s.look_bind fun _ => Sign.ofChar?_eq_none, signed_eq]
  simp only [bind_apply, skipSpaces_apply, column_apply, current?_apply]
  cases s.skipSpaces.cursor.current?.bind Sign.ofChar? with
  | none =>
    simp only [bind_apply, primary_skipSpaces]
    rfl
  | some sign =>
    simp only [bind_apply, advance_apply, note_apply]
    rfl

theorem primary_apply (rules : Rules) (s : Reader) :
    primary rules s =
      match s.tokens with
      | .mark c :: _ =>
        if c = '(' then (expression rules >>= close rules) s.pass
        else missingOperand rules s.skipSpaces
      | .number run :: _ =>
        match Numeral.read? run with
        | some value => .ok ⟨.number value s.nextColumn, 1⟩ (s.passRun isNumberChar)
        | none =>
          .error ⟨.invalidNumber (String.ofList run), s.nextColumn⟩ (s.passRun isNumberChar)
      | .word run :: _ =>
        match Function.ofName? (String.ofList run) with
        | some function =>
          (factor rules >>= call rules function s.nextColumn)
            ((s.passRun Char.isLower).note (.called function s.nextColumn))
        | none => .ok ⟨.var (String.ofList run) s.nextColumn, 1⟩ (s.passRun Char.isLower)
      | [] => missingOperand rules s.skipSpaces := by
  rw [primary_eq]
  simp only [bind_apply, skipSpaces_apply, column_apply, current?_apply]
  cases s.ahead with
  | nothing htokens hlook => simp only [htokens, hlook]
  | mark c hc htokens hlook =>
    simp only [isMarkChar, Bool.and_eq_true, Bool.not_eq_true'] at hc
    simp only [htokens, hlook, hc.1, hc.2]
    by_cases hgroup : c = '('
    · simp only [if_pos hgroup, bind_apply, advance_apply]
      rfl
    · simp only [if_neg hgroup]
      rfl
  | number c hc htokens hlook =>
    have hgroup : c ≠ '(' := by rintro rfl; cases hc
    simp only [htokens, hlook, if_neg hgroup, if_pos hc, number, bind_apply, column_apply,
      takeWhile_apply]
    cases Numeral.read? (s.skipSpaces.cursor.rest.takeWhile isNumberChar) <;> rfl
  | word c hc htokens hlook =>
    have hgroup : c ≠ '(' := by rintro rfl; cases hc
    have hn : ¬ isNumberChar c = true := fun h => by
      rw [Token.isLower_eq_false_of_isNumberChar h] at hc
      cases hc
    simp only [htokens, hlook, if_neg hgroup, if_neg hn, if_pos hc, bind_apply, takeWhile_apply]
    cases Function.ofName? (String.ofList (s.skipSpaces.cursor.rest.takeWhile Char.isLower)) with
    | none => rfl
    | some function =>
      simp only [bind_apply, note_apply]
      rfl

/-- What the next mark tells about the operator it is. -/
theorem mark?_of_operator? {rank : Rank} {ts : List Token} {op : BinaryOp}
    (h : (Token.mark? ts).bind rank.operator? = some op) :
    Token.mark? ts = some op.symbol ∧ Rank.ofOp? op = some rank := by
  obtain ⟨c, hc, hop⟩ := Option.bind_eq_some_iff.1 h
  obtain ⟨rfl, hrank⟩ := Rank.operator?_eq_some_iff.1 hop
  exact ⟨hc, hrank⟩

theorem mark?_of_sign? {ts : List Token} {sign : Sign}
    (h : (Token.mark? ts).bind Sign.ofChar? = some sign) :
    Token.mark? ts = some sign.symbol := by
  obtain ⟨c, hc, hsign⟩ := Option.bind_eq_some_iff.1 h
  rwa [Sign.ofChar?_eq_some_iff.1 hsign] at hc

end Grammar

end Calculator
