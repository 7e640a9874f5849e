import Calculator.Grammar.Descent

/-!
# Parsing

The grammar functions as steps of a reading, and for each of them the equation
that says what it does. Nothing else about them needs their definitions. A text
is an expression if the grammar reads all of it. A reader that has stopped, at an
error or at the end, can be asked to parse on from there.
-/

namespace Calculator

namespace Grammar

open Step

def chain (rules : Rules) (rank : Rank) : Step Measured :=
  fun s => (Descent.chain rules rank s).1

def tail (rules : Rules) (rank : Rank) (left : Measured) : Step Measured :=
  fun s => (Descent.tail rules rank left s).1

def operand (rules : Rules) (rank : Rank) : Step Measured :=
  fun s => (Descent.operand rules rank s).1

def factor (rules : Rules) : Step Measured :=
  fun s => (Descent.factor rules s).1

def signed (rules : Rules) : Step Measured :=
  fun s => (Descent.signed rules s).1

def primary (rules : Rules) : Step Measured :=
  fun s => (Descent.primary rules s).1

def expression (rules : Rules) : Step Measured :=
  chain rules .sum

def term (rules : Rules) : Step Measured :=
  chain rules .product

theorem chain_eq (rules : Rules) (rank : Rank) :
    chain rules rank = operand rules rank >>= tail rules rank := by
  funext s
  rw [bind_apply]
  simp only [chain]
  rw [Descent.chain]
  exact Outcome.andThen_val _ _ _ _ fun _ _ _ => rfl

@[simp] theorem operand_sum (rules : Rules) : operand rules .sum = term rules := by
  funext s
  simp [operand, Descent.operand, term, chain]

@[simp] theorem operand_product (rules : Rules) : operand rules .product = factor rules := by
  funext s
  simp [operand, Descent.operand, factor]

theorem tail_eq (rules : Rules) (rank : Rank) (left : Measured) :
    tail rules rank left = (do
      skipSpaces
      let column ← column
      match (← current?).bind rank.operator? with
      | none => return left
      | some op =>
        advance
        rejectOperator
        let right ← operand rules rank
        let node ← binary rules op column left right
        tail rules rank node) := by
  funext s
  simp only [tail, bind_apply, skipSpaces_apply, column_apply, current?_apply]
  rw [Descent.tail]
  split
  · next h => simp only [h, pure_apply]
  · next op h =>
    simp only [h, bind_apply, advance_apply]
    refine Outcome.andThen_val _ _ _ _ fun _ s₁ h₁ => ?_
    refine Outcome.andThen_val _ _ _ _ fun right s₂ h₂ => ?_
    exact Outcome.andThen_val _ _ _ _ fun node s₃ h₃ => rfl

theorem factor_eq (rules : Rules) (s : Reader) :
    factor rules s =
      if withinLimit rules.limits.nesting (s.openFactors + 1) then
        match signed rules s.enter with
        | .ok tree s => .ok tree s.leave
        | .error e s => .error e s.leave
      else .error ⟨.tooDeeplyNested, s.cursor.column⟩ s := by
  simp only [factor, signed]
  rw [Descent.factor]
  by_cases h : withinLimit rules.limits.nesting (s.openFactors + 1) = true
  · simp only [h, if_true]
    rcases Descent.signed rules s.enter with ⟨_ | _, _⟩ <;> rfl
  · simp only [h]
    rfl

theorem signed_eq (rules : Rules) :
    signed rules = (do
      skipSpaces
      let column ← column
      match (← current?).bind Sign.ofChar? with
      | some sign =>
        advance
        note (.signed sign column)
        let operand ← factor rules
        unary rules sign column operand
      | none =>
        let base ← primary rules
        skipSpaces
        let column ← Step.column
        if (← current?) = some '^' then
          advance
          rejectOperator
          let exponent ← factor rules
          binary rules .pow column base exponent
        else return base) := by
  funext s
  simp only [signed, bind_apply, skipSpaces_apply, column_apply, current?_apply]
  rw [Descent.signed]
  split
  · next sign h =>
    simp only [h, bind_apply, advance_apply, note_apply]
    exact Outcome.andThen_val _ _ _ _ fun operand s₁ h₁ => rfl
  · next h =>
    simp only [h, bind_apply]
    refine Outcome.andThen_val _ _ _ _ fun base s₁ h₁ => ?_
    simp only [skipSpaces_apply, column_apply, current?_apply]
    split
    · simp only [bind_apply, advance_apply]
      refine Outcome.andThen_val _ _ _ _ fun _ s₄ h₄ => ?_
      exact Outcome.andThen_val _ _ _ _ fun exponent s₅ h₅ => rfl
    · rfl

theorem primary_eq (rules : Rules) :
    primary rules = (do
      skipSpaces
      let column ← column
      match ← current? with
      | none => missingOperand rules
      | some c =>
        if c = '(' then
          advance
          let inner ← expression rules
          close rules inner
        else if isNumberChar c then number
        else if c.isLower then
          let word := String.ofList (← takeWhile Char.isLower)
          match Function.ofName? word with
          | some function =>
            note (.called function column)
            let argument ← factor rules
            call rules function column argument
          | none => return ⟨.var word column, 1⟩
        else missingOperand rules) := by
  funext s
  simp only [primary, bind_apply, skipSpaces_apply, column_apply, current?_apply]
  rw [Descent.primary]
  split
  · next h => simp only [h]; rfl
  · next c h =>
    simp only [h]
    split
    · simp only [bind_apply, advance_apply]
      exact Outcome.andThen_val _ _ _ _ fun inner s₁ h₁ => rfl
    · split
      · rfl
      · split
        · simp only [bind_apply, takeWhile_apply]
          split
          · next function hf =>
            simp only [hf, bind_apply, note_apply]
            exact Outcome.andThen_val _ _ _ _ fun argument s₂ h₃ => rfl
          · next hf => simp only [hf, pure_apply]
        · rfl

/-! ## Whole texts -/

/-- An expression and then the end of the text. -/
def complete (rules : Rules) : Step Expr := do
  let tree ← expression rules
  if ← atEnd then
    let position := (← get).cursor.position
    note (.completed tree.expr position tree.height)
    return tree.expr
  else failHere (.unexpectedCharacter ((← current?).getD '\x00'))

end Grammar

/-- Parses on from where the reader stands. -/
def Reader.parse (rules : Rules) (s : Reader) : Except ParseError Expr × Reader :=
  match Grammar.complete rules s with
  | .ok expr s => (.ok expr, s)
  | .error e s => (.error e, s)

def Expr.parse (rules : Rules) (source : String) : Except ParseError Expr :=
  ((Reader.ofText source).parse rules).1

end Calculator
