import Calculator.Proofs.Grammar.Induction

/-!
# Successful readings

If a call succeeds, then so did the calls that it made, and what they returned
is in its tree. There is one statement for each grammar function, with a case
for each way in which it can succeed.
-/

namespace Calculator.Grammar

open Step

variable {rules : Rules} {s s' : Reader} {t : Measured}

theorem ite_eq_ok_iff {p : Prop} [Decidable p] {u : Measured} {q : Reader} {e : ParseError} :
    (if p then .ok u s else .error e q : EStateM.Result ParseError Reader Measured) = .ok t s' ↔
      p ∧ t = u ∧ s' = s := by
  constructor
  · intro h
    split at h
    · next hp =>
      cases h
      exact ⟨hp, rfl, rfl⟩
    · cases h
  · rintro ⟨hp, rfl, rfl⟩
    rw [if_pos hp]

theorem binary_ok {op : BinaryOp} {column : Nat} {left right : Measured} :
    binary rules op column left right s = .ok t s' ↔
      withinLimit rules.limits.height (max left.height right.height + 1) = true ∧
        t = ⟨.binary op left.expr right.expr column, max left.height right.height + 1⟩ ∧
        s' = s := by
  rw [binary_apply]
  exact ite_eq_ok_iff

theorem unary_ok {sign : Sign} {column : Nat} {operand : Measured} :
    unary rules sign column operand s = .ok t s' ↔
      withinLimit rules.limits.height (operand.height + 1) = true ∧
        t = ⟨.unary sign operand.expr column, operand.height + 1⟩ ∧ s' = s := by
  rw [unary_apply]
  exact ite_eq_ok_iff

theorem call_ok {function : Function} {column : Nat} {argument : Measured} :
    call rules function column argument s = .ok t s' ↔
      withinLimit rules.limits.height (argument.height + 1) = true ∧
        t = ⟨.call function argument.expr column, argument.height + 1⟩ ∧ s' = s := by
  rw [call_apply]
  exact ite_eq_ok_iff

/-- An operation succeeds if no operator follows its operator, and its right side and its
node succeed. -/
theorem operation_ok {operand : Step Measured} {op : BinaryOp} {column : Nat}
    {left : Measured} :
    operation rules operand op column left s = .ok t s' ↔
      (∀ c, Token.mark? s.tokens = some c → isOperatorChar c = false) ∧
        ∃ right, operand s.skipSpaces = .ok right s' ∧
          binary rules op column left right s' = .ok t s' := by
  have hany : (Token.mark? s.tokens).any isOperatorChar = true ↔
      ¬ ∀ c, Token.mark? s.tokens = some c → isOperatorChar c = false := by
    cases Token.mark? s.tokens <;> simp
  rw [operation, bind_apply, rejectOperator_apply]
  by_cases hreject : (Token.mark? s.tokens).any isOperatorChar = true
  · rw [if_pos hreject]
    constructor
    · intro h
      cases h
    · rintro ⟨h, -⟩
      exact absurd h (hany.1 hreject)
  · rw [if_neg hreject]
    have hfollow := Classical.not_not.1 fun h => hreject (hany.2 h)
    constructor
    · intro h
      obtain ⟨right, s₁, hright, hnode⟩ := bind_eq_ok_iff.1 h
      obtain rfl := (binary_ok.1 hnode).2.2
      exact ⟨hfollow, right, hright, hnode⟩
    · rintro ⟨-, right, hright, hnode⟩
      exact bind_eq_ok_iff.2 ⟨right, s', hright, hnode⟩

theorem any_isOperatorChar_eq_false {o : Option Char}
    (h : ∀ c, o = some c → isOperatorChar c = false) : o.any isOperatorChar = false := by
  cases o with
  | none => rfl
  | some c => exact h c rfl

inductive TailOk (rules : Rules) (rank : Rank) (left : Measured) (s : Reader) :
    Measured → Reader → Prop where
  | stop (hop : (Token.mark? s.tokens).bind rank.operator? = none) :
      TailOk rules rank left s left s.skipSpaces
  | step (op : BinaryOp) (node : Measured) (s₁ : Reader) {t : Measured} {s' : Reader}
      (hop : (Token.mark? s.tokens).bind rank.operator? = some op)
      (hnode : operation rules (operand rules rank) op s.nextColumn left s.pass = .ok node s₁)
      (htail : tail rules rank node s₁ = .ok t s') :
      TailOk rules rank left s t s'

theorem tail_stop {rank : Rank} {left : Measured}
    (hop : (Token.mark? s.tokens).bind rank.operator? = none) :
    tail rules rank left s = .ok left s.skipSpaces := by
  rw [tail_apply, hop]

theorem tail_step {rank : Rank} {left node : Measured} {op : BinaryOp} {s₁ : Reader}
    (hop : (Token.mark? s.tokens).bind rank.operator? = some op)
    (hnode : operation rules (operand rules rank) op s.nextColumn left s.pass = .ok node s₁) :
    tail rules rank left s = tail rules rank node s₁ := by
  rw [tail_apply, hop]
  simp only [bind_apply, hnode]

theorem tail_ok {rank : Rank} {left : Measured} :
    tail rules rank left s = .ok t s' ↔ TailOk rules rank left s t s' := by
  constructor
  · intro h
    cases hop : (Token.mark? s.tokens).bind rank.operator? with
    | none =>
      rw [tail_stop hop] at h
      cases h
      exact .stop hop
    | some op =>
      rw [tail_apply, hop] at h
      obtain ⟨node, s₁, hnode, htail⟩ := bind_eq_ok_iff.1 h
      exact .step op node s₁ hop hnode htail
  · intro h
    cases h with
    | stop hop => exact tail_stop hop
    | step op node s₁ hop hnode htail => rw [tail_step hop hnode, htail]

theorem tail_ok_of_operator {rank : Rank} {left : Measured} {op : BinaryOp}
    (hop : (Token.mark? s.tokens).bind rank.operator? = some op) :
    tail rules rank left s = .ok t s' ↔
      ∃ node s₁, operation rules (operand rules rank) op s.nextColumn left s.pass = .ok node s₁ ∧
        tail rules rank node s₁ = .ok t s' := by
  rw [tail_apply, hop]
  exact bind_eq_ok_iff

theorem chain_ok {rank : Rank} :
    chain rules rank s = .ok t s' ↔
      ∃ left s₁, operand rules rank s = .ok left s₁ ∧ tail rules rank left s₁ = .ok t s' := by
  rw [chain_eq]
  exact bind_eq_ok_iff

theorem factor_ok :
    factor rules s = .ok t s' ↔
      withinLimit rules.limits.nesting (s.openFactors + 1) = true ∧
        ∃ s₁, signed rules s.enter = .ok t s₁ ∧ s' = s₁.leave := by
  rw [factor_eq]
  constructor
  · intro h
    split at h
    · next hlimit =>
      split at h
      · next tree s₁ hsigned =>
        cases h
        exact ⟨hlimit, s₁, hsigned, rfl⟩
      · cases h
    · cases h
  · rintro ⟨hlimit, s₁, hsigned, rfl⟩
    rw [if_pos hlimit, hsigned]

theorem power_ok {base : Measured} :
    power rules base s = .ok t s' ↔
      (Token.mark? s.tokens = some '^' ∧
          operation rules (factor rules) .pow s.nextColumn base s.pass = .ok t s') ∨
        (Token.mark? s.tokens ≠ some '^' ∧ t = base ∧ s' = s.skipSpaces) := by
  rw [power_apply]
  constructor
  · intro h
    split at h
    · next hpower => exact .inl ⟨hpower, h⟩
    · next hpower =>
      cases h
      exact .inr ⟨hpower, rfl, rfl⟩
  · rintro (⟨hpower, h⟩ | ⟨hpower, rfl, rfl⟩)
    · rw [if_pos hpower, h]
    · rw [if_neg hpower]

theorem power_ok_of_mark {base : Measured} (hmark : Token.mark? s.tokens = some '^') :
    power rules base s = .ok t s' ↔
      operation rules (factor rules) .pow s.nextColumn base s.pass = .ok t s' := by
  rw [power_apply, if_pos hmark]

inductive SignedOk (rules : Rules) (s : Reader) : Measured → Reader → Prop where
  | signed (sign : Sign) (operand : Measured) {t : Measured} {s' : Reader}
      (hsign : (Token.mark? s.tokens).bind Sign.ofChar? = some sign)
      (hoperand : factor rules (s.pass.note (.signed sign s.nextColumn)) = .ok operand s')
      (hnode : unary rules sign s.nextColumn operand s' = .ok t s') :
      SignedOk rules s t s'
  | unsigned (base : Measured) (s₁ : Reader) {t : Measured} {s' : Reader}
      (hsign : (Token.mark? s.tokens).bind Sign.ofChar? = none)
      (hbase : primary rules s = .ok base s₁) (hpower : power rules base s₁ = .ok t s') :
      SignedOk rules s t s'

theorem signed_ok : signed rules s = .ok t s' ↔ SignedOk rules s t s' := by
  rw [signed_apply]
  constructor
  · intro h
    split at h
    · next sign hsign =>
      obtain ⟨operand, s₁, hoperand, hnode⟩ := bind_eq_ok_iff.1 h
      obtain rfl := (unary_ok.1 hnode).2.2
      exact .signed sign operand hsign hoperand hnode
    · next hsign =>
      obtain ⟨base, s₁, hbase, hpower⟩ := bind_eq_ok_iff.1 h
      exact .unsigned base s₁ hsign hbase hpower
  · intro h
    cases h with
    | signed sign operand hsign hoperand hnode =>
      rw [hsign]
      exact bind_eq_ok_iff.2 ⟨operand, s', hoperand, hnode⟩
    | unsigned base s₁ hsign hbase hpower =>
      rw [hsign]
      exact bind_eq_ok_iff.2 ⟨base, s₁, hbase, hpower⟩

theorem signed_ok_of_sign {sign : Sign}
    (hsign : (Token.mark? s.tokens).bind Sign.ofChar? = some sign) :
    signed rules s = .ok t s' ↔
      ∃ operand s₁, factor rules (s.pass.note (.signed sign s.nextColumn)) = .ok operand s₁ ∧
        unary rules sign s.nextColumn operand s₁ = .ok t s' := by
  rw [signed_apply, hsign]
  exact bind_eq_ok_iff

theorem signed_ok_of_unsigned (hsign : (Token.mark? s.tokens).bind Sign.ofChar? = none) :
    signed rules s = .ok t s' ↔
      ∃ base s₁, primary rules s = .ok base s₁ ∧ power rules base s₁ = .ok t s' := by
  rw [signed_apply, hsign]
  exact bind_eq_ok_iff

theorem close_ok {inner : Measured} :
    close rules inner s = .ok t s' ↔
      t = inner ∧ ((Token.mark? s.tokens = some ')' ∧ s' = s.pass) ∨
        (Token.mark? s.tokens ≠ some ')' ∧ rules.strict = false ∧ s' = s.skipSpaces)) := by
  rw [close_apply]
  constructor
  · intro h
    split at h
    · next hclose =>
      cases h
      exact ⟨rfl, .inl ⟨hclose, rfl⟩⟩
    · next hclose =>
      split at h
      · cases h
      · next hstrict =>
        cases h
        exact ⟨rfl, .inr ⟨hclose, by simpa using hstrict, rfl⟩⟩
  · rintro ⟨rfl, ⟨hclose, rfl⟩ | ⟨hclose, hstrict, rfl⟩⟩
    · rw [if_pos hclose]
    · rw [if_neg hclose, if_neg (by simp [hstrict])]

/-- No operand begins with these tokens. -/
def LacksOperand (ts : List Token) : Prop :=
  ∀ t ∈ ts.head?, ∃ c, c ≠ '(' ∧ t = .mark c

theorem lacksOperand_tokens_iff (s : Reader) :
    LacksOperand s.tokens ↔
      ∀ c ∈ s.skipSpaces.cursor.current?, isMarkChar c = true ∧ c ≠ '(' := by
  unfold LacksOperand
  cases s.ahead with
  | nothing htokens hlook => simp [htokens, hlook]
  | mark c hc htokens hlook => simp [htokens, hlook, hc]
  | number c hc htokens hlook => simp [htokens, hlook, isMarkChar, hc]
  | word c hc htokens hlook => simp [htokens, hlook, isMarkChar, hc]

inductive PrimaryOk (rules : Rules) (s : Reader) : Measured → Reader → Prop where
  | group (inner : Measured) (s₁ : Reader) {t : Measured} {s' : Reader}
      (hmark : Token.mark? s.tokens = some '(')
      (hinner : expression rules s.pass = .ok inner s₁) (hclose : close rules inner s₁ = .ok t s') :
      PrimaryOk rules s t s'
  | number (run : List Char) (ts : List Token) (value : Float)
      (htokens : s.tokens = .number run :: ts) (hvalue : Numeral.read? run = some value) :
      PrimaryOk rules s ⟨.number value s.nextColumn, 1⟩ (s.passRun isNumberChar)
  | call (run : List Char) (ts : List Token) (function : Function) (argument : Measured)
      {t : Measured} {s' : Reader} (htokens : s.tokens = .word run :: ts)
      (hname : Function.ofName? (String.ofList run) = some function)
      (hargument : factor rules ((s.passRun Char.isLower).note (.called function s.nextColumn)) =
        .ok argument s')
      (hnode : Step.call rules function s.nextColumn argument s' = .ok t s') :
      PrimaryOk rules s t s'
  | var (run : List Char) (ts : List Token) (htokens : s.tokens = .word run :: ts)
      (hname : Function.ofName? (String.ofList run) = none) :
      PrimaryOk rules s ⟨.var (String.ofList run) s.nextColumn, 1⟩ (s.passRun Char.isLower)
  | missing (hstrict : rules.strict = false) (htokens : LacksOperand s.tokens) :
      PrimaryOk rules s ⟨.number 0.0 s.nextColumn, 1⟩ s.skipSpaces

theorem primaryOk_of_primary (h : primary rules s = .ok t s') : PrimaryOk rules s t s' := by
  have hmissing : missingOperand rules s.skipSpaces = .ok t s' → LacksOperand s.tokens →
      PrimaryOk rules s t s' := by
    intro h hlacks
    rw [missingOperand_apply] at h
    split at h
    · cases h
    · next hstrict =>
      cases h
      exact .missing (by simpa using hstrict) hlacks
  rw [primary_apply] at h
  split at h
  · next c ts htokens =>
    split at h
    · next hgroup =>
      subst hgroup
      obtain ⟨inner, s₁, hinner, hclose⟩ := bind_eq_ok_iff.1 h
      exact .group inner s₁ (by rw [htokens]; rfl) hinner hclose
    · next hgroup =>
      refine hmissing h fun tok htok => ⟨c, hgroup, ?_⟩
      rw [htokens] at htok
      exact (Option.some.inj htok).symm
  · next run ts htokens =>
    split at h
    · next value hvalue =>
      cases h
      exact .number run ts value htokens hvalue
    · cases h
  · next run ts htokens =>
    split at h
    · next function hname =>
      obtain ⟨argument, s₁, hargument, hnode⟩ := bind_eq_ok_iff.1 h
      obtain rfl := (call_ok.1 hnode).2.2
      exact .call run ts function argument htokens hname hargument hnode
    · next hname =>
      cases h
      exact .var run ts htokens hname
  · next htokens =>
    refine hmissing h fun tok htok => ?_
    rw [htokens] at htok
    cases htok

theorem primary_of_lacksOperand (h : LacksOperand s.tokens) :
    primary rules s = missingOperand rules s.skipSpaces := by
  rw [primary_apply]
  cases htokens : s.tokens with
  | nil => rfl
  | cons tok ts =>
    obtain ⟨c, hc, rfl⟩ := h tok (by rw [htokens]; rfl)
    simp only [if_neg hc]

theorem primary_of_group (hmark : Token.mark? s.tokens = some '(') :
    primary rules s = (expression rules >>= close rules) s.pass := by
  have hprimary := primary_apply rules s
  rw [Reader.tokens_eq_cons hmark] at hprimary
  exact hprimary

theorem primary_of_number {run : List Char} {ts : List Token}
    (htokens : s.tokens = .number run :: ts) :
    primary rules s =
      match Numeral.read? run with
      | some value => .ok ⟨.number value s.nextColumn, 1⟩ (s.passRun isNumberChar)
      | none =>
        .error ⟨.invalidNumber (String.ofList run), s.nextColumn⟩ (s.passRun isNumberChar) := by
  have hprimary := primary_apply rules s
  rw [htokens] at hprimary
  exact hprimary

theorem primary_of_call {run : List Char} {ts : List Token} {function : Function}
    (htokens : s.tokens = .word run :: ts)
    (hname : Function.ofName? (String.ofList run) = some function) :
    primary rules s = (factor rules >>= Step.call rules function s.nextColumn)
      ((s.passRun Char.isLower).note (.called function s.nextColumn)) := by
  simp only [primary_apply, htokens, hname]

theorem primary_of_var {run : List Char} {ts : List Token} (htokens : s.tokens = .word run :: ts)
    (hname : Function.ofName? (String.ofList run) = none) :
    primary rules s =
      .ok ⟨.var (String.ofList run) s.nextColumn, 1⟩ (s.passRun Char.isLower) := by
  simp only [primary_apply, htokens, hname]

/-- The ways in which an operand can begin, or not. -/
theorem operand_cases (ts : List Token) :
    LacksOperand ts ∨ Token.mark? ts = some '(' ∨ (∃ run us, ts = .number run :: us) ∨
      ∃ run us, ts = .word run :: us := by
  cases ts with
  | nil => exact .inl fun _ h => by cases h
  | cons t ts =>
    cases t with
    | number run => exact .inr (.inr (.inl ⟨run, ts, rfl⟩))
    | word run => exact .inr (.inr (.inr ⟨run, ts, rfl⟩))
    | mark c =>
      by_cases hc : c = '('
      · exact .inr (.inl (congrArg some hc))
      · refine .inl ?_
        rintro _ ⟨⟩
        exact ⟨c, hc, rfl⟩

theorem primary_ok : primary rules s = .ok t s' ↔ PrimaryOk rules s t s' := by
  refine ⟨primaryOk_of_primary, fun h => ?_⟩
  cases h with
  | group inner s₁ hmark hinner hclose =>
    rw [primary_of_group hmark]
    exact bind_eq_ok_iff.2 ⟨inner, s₁, hinner, hclose⟩
  | number run ts value htokens hvalue => rw [primary_of_number htokens, hvalue]
  | call run ts function argument htokens hname hargument hnode =>
    rw [primary_of_call htokens hname]
    exact bind_eq_ok_iff.2 ⟨argument, s', hargument, hnode⟩
  | var run ts htokens hname => exact primary_of_var htokens hname
  | missing hstrict htokens =>
    rw [primary_of_lacksOperand htokens, missingOperand_apply, if_neg (by simp [hstrict])]
    rfl

theorem primary_ok_of_group (hmark : Token.mark? s.tokens = some '(') :
    primary rules s = .ok t s' ↔
      ∃ inner s₁, expression rules s.pass = .ok inner s₁ ∧ close rules inner s₁ = .ok t s' := by
  rw [primary_of_group hmark]
  exact bind_eq_ok_iff

theorem primary_ok_of_call {run : List Char} {ts : List Token} {function : Function}
    (htokens : s.tokens = .word run :: ts)
    (hname : Function.ofName? (String.ofList run) = some function) :
    primary rules s = .ok t s' ↔
      ∃ argument s₁,
        factor rules ((s.passRun Char.isLower).note (.called function s.nextColumn)) =
          .ok argument s₁ ∧
        Step.call rules function s.nextColumn argument s₁ = .ok t s' := by
  rw [primary_of_call htokens hname]
  exact bind_eq_ok_iff

end Calculator.Grammar
