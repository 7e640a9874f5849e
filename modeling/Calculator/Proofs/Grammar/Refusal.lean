import Calculator.Proofs.Grammar.Calls
import Calculator.Proofs.Grammar.Settled

/-!
# Refusals

Every error is raised by one call, at a place that the reading has reached. So
errors are reported no earlier than where the reading began, something left out
is refused under strict rules alone, and too deep a nesting only under bounds.
-/

namespace Calculator

/-- Errors about what is left out of the text: an operand or a closing parenthesis. -/
def ParseError.Kind.isOmission : ParseError.Kind → Bool
  | unclosedParenthesis => true
  | expectedOperand _ => true
  | _ => false

namespace Step

theorem bind_eq_error_iff {α β : Type} {a : Step α} {f : α → Step β} {s s' : Reader}
    {e : ParseError} :
    (a >>= f) s = .error e s' ↔
      a s = .error e s' ∨ ∃ x s₁, a s = .ok x s₁ ∧ f x s₁ = .error e s' := by
  rw [bind_apply]
  cases h : a s with
  | ok x s₁ =>
    constructor
    · intro hf
      exact .inr ⟨x, s₁, rfl, hf⟩
    · rintro (ha | ⟨y, s₂, ⟨⟩, hf⟩)
      · cases ha
      · exact hf
  | error e₁ s₁ => simp

end Step

namespace Grammar

open Step

/-- The call joins trees that it has read, up to the last state, to a node of the height `m`. -/
inductive Joins (rules : Rules) : Call → Reader → Nat → Reader → Prop where
  | operation {rank : Rank} {op : BinaryOp} {left right : Measured} {s s' : Reader}
      (hop : (Token.mark? s.tokens).bind rank.operator? = some op)
      (hright : operand rules rank s.pass.skipSpaces = .ok right s') :
      Joins rules (.tail rank left) s (max left.height right.height + 1) s'
  | sign {sign : Sign} {operand : Measured} {s s' : Reader}
      (hsign : (Token.mark? s.tokens).bind Sign.ofChar? = some sign)
      (hoperand : factor rules (s.pass.note (.signed sign s.nextColumn)) = .ok operand s') :
      Joins rules .signed s (operand.height + 1) s'
  | power {base exponent : Measured} {s s' s'' : Reader}
      (hsign : (Token.mark? s.tokens).bind Sign.ofChar? = none)
      (hbase : primary rules s = .ok base s') (hmark : Token.mark? s'.tokens = some '^')
      (hexponent : factor rules s'.pass.skipSpaces = .ok exponent s'') :
      Joins rules .signed s (max base.height exponent.height + 1) s''
  | call {run : List Char} {ts : List Token} {function : Function} {argument : Measured}
      {s s' : Reader} (htokens : s.tokens = .word run :: ts)
      (hname : Function.ofName? (String.ofList run) = some function)
      (hargument : factor rules ((s.passRun Char.isLower).note (.called function s.nextColumn)) =
        .ok argument s') :
      Joins rules .primary s (argument.height + 1) s'

/-- The call itself raises the error, where it stands, and not a call that it makes. -/
inductive Refuses (rules : Rules) : Call → Reader → ParseError → Prop where
  | nesting {s : Reader}
      (hlimit : withinLimit rules.limits.nesting (s.openFactors + 1) = false) :
      Refuses rules .factor s ⟨.tooDeeplyNested, s.cursor.column⟩
  | height {c : Call} {s s' : Reader} {m : Nat} (hjoins : Joins rules c s m s')
      (hheight : withinLimit rules.limits.height m = false) :
      Refuses rules c s ⟨.tooDeeplyNested, s'.cursor.column⟩
  | operator {rank : Rank} {op : BinaryOp} {s : Reader} (left : Measured)
      (hop : (Token.mark? s.tokens).bind rank.operator? = some op)
      (hreject : (Token.mark? s.pass.tokens).any isOperatorChar = true) :
      Refuses rules (.tail rank left) s ⟨.unexpectedOperator, s.pass.nextColumn⟩
  | powerOperator {base : Measured} {s s' : Reader}
      (hsign : (Token.mark? s.tokens).bind Sign.ofChar? = none)
      (hbase : primary rules s = .ok base s')
      (hmark : Token.mark? s'.tokens = some '^')
      (hreject : (Token.mark? s'.pass.tokens).any isOperatorChar = true) :
      Refuses rules .signed s ⟨.unexpectedOperator, s'.pass.nextColumn⟩
  | number {run : List Char} {ts : List Token} {s : Reader} (htokens : s.tokens = .number run :: ts)
      (hread : Numeral.read? run = none) :
      Refuses rules .primary s ⟨.invalidNumber (String.ofList run), s.nextColumn⟩
  | missing {s : Reader} (hstrict : rules.strict = true) (hlacks : LacksOperand s.tokens) :
      Refuses rules .primary s ⟨.expectedOperand s.skipSpaces.cursor.current?, s.nextColumn⟩
  | unclosed {inner : Measured} {s s' : Reader} (hstrict : rules.strict = true)
      (hmark : Token.mark? s.tokens = some '(') (hinner : expression rules s.pass = .ok inner s')
      (hclose : Token.mark? s'.tokens ≠ some ')') :
      Refuses rules .primary s ⟨.unclosedParenthesis, s'.nextColumn⟩

variable {rules : Rules} {c c' : Call} {s s' q : Reader} {e : ParseError}

/-! ## Errors of steps -/

theorem ite_eq_error_iff {p : Prop} [Decidable p] {t : Measured} {e₁ : ParseError} :
    (if p then .ok t s else .error e₁ s : EStateM.Result ParseError Reader Measured) =
      .error e s' ↔ ¬ p ∧ e = e₁ ∧ s' = s := by
  by_cases hp : p
  · simp [hp]
  · simp [hp, eq_comm]

theorem binary_error {op : BinaryOp} {column : Nat} {left right : Measured}
    (h : binary rules op column left right s = .error e q) :
    withinLimit rules.limits.height (max left.height right.height + 1) = false ∧
      e = ⟨.tooDeeplyNested, s.cursor.column⟩ := by
  rw [binary_apply, ite_eq_error_iff] at h
  exact ⟨by simpa using h.1, h.2.1⟩

theorem unary_error {sign : Sign} {column : Nat} {operand : Measured}
    (h : unary rules sign column operand s = .error e q) :
    withinLimit rules.limits.height (operand.height + 1) = false ∧
      e = ⟨.tooDeeplyNested, s.cursor.column⟩ := by
  rw [unary_apply, ite_eq_error_iff] at h
  exact ⟨by simpa using h.1, h.2.1⟩

theorem call_error {function : Function} {column : Nat} {argument : Measured}
    (h : call rules function column argument s = .error e q) :
    withinLimit rules.limits.height (argument.height + 1) = false ∧
      e = ⟨.tooDeeplyNested, s.cursor.column⟩ := by
  rw [call_apply, ite_eq_error_iff] at h
  exact ⟨by simpa using h.1, h.2.1⟩

/-- An operation fails at an operator behind its own, in its right side, or at its node. -/
theorem operation_error {operand : Step Measured} {op : BinaryOp} {column : Nat}
    {left : Measured} (h : operation rules operand op column left s = .error e q) :
    ((Token.mark? s.tokens).any isOperatorChar = true ∧ e = ⟨.unexpectedOperator, s.nextColumn⟩) ∨
      (Token.mark? s.tokens).any isOperatorChar = false ∧
        (operand s.skipSpaces = .error e q ∨ ∃ right s', operand s.skipSpaces = .ok right s' ∧
          withinLimit rules.limits.height (max left.height right.height + 1) = false ∧
          e = ⟨.tooDeeplyNested, s'.cursor.column⟩) := by
  rw [operation, bind_apply, rejectOperator_apply] at h
  cases hreject : (Token.mark? s.tokens).any isOperatorChar with
  | true =>
    rw [if_pos hreject] at h
    cases h
    exact .inl ⟨rfl, rfl⟩
  | false =>
    rw [if_neg (by simp [hreject])] at h
    refine .inr ⟨rfl, ?_⟩
    rcases bind_eq_error_iff.1 h with h | ⟨right, s', hright, h⟩
    · exact .inl h
    · exact .inr ⟨right, s', hright, binary_error h⟩

theorem missingOperand_error (h : missingOperand rules s = .error e q) :
    rules.strict = true ∧ e = ⟨.expectedOperand s.cursor.current?, s.cursor.column⟩ := by
  rw [missingOperand_apply] at h
  split at h
  · next hstrict =>
    cases h
    exact ⟨hstrict, rfl⟩
  · cases h

theorem close_error {inner : Measured} (h : close rules inner s = .error e q) :
    Token.mark? s.tokens ≠ some ')' ∧ rules.strict = true ∧
      e = ⟨.unclosedParenthesis, s.nextColumn⟩ := by
  rw [close_apply] at h
  split at h
  · cases h
  · next hclose =>
    split at h
    · next hstrict =>
      cases h
      exact ⟨hclose, hstrict, rfl⟩
    · cases h

/-! ## Errors of calls -/

/-- The error is the call's own, or that of a call that it makes. -/
def Raised (rules : Rules) (c : Call) (s : Reader) (e : ParseError) : Prop :=
  Refuses rules c s e ∨
    ∃ c' s' q', Calls rules c s c' s' ∧ c'.run rules s' = .error e q'

theorem raised_of_chain {rank : Rank} (h : chain rules rank s = .error e q) :
    Raised rules (.chain rank) s e := by
  rw [chain_eq] at h
  rcases bind_eq_error_iff.1 h with h | ⟨left, s₁, hleft, h⟩
  · exact .inr ⟨_, _, q, .operand rank s, by rwa [Call.run_operand]⟩
  · exact .inr ⟨_, _, q, .tail hleft, h⟩

theorem raised_of_tail {rank : Rank} {left : Measured} (h : tail rules rank left s = .error e q) :
    Raised rules (.tail rank left) s e := by
  rw [tail_apply] at h
  cases hop : (Token.mark? s.tokens).bind rank.operator? with
  | none =>
    rw [hop] at h
    cases h
  | some op =>
    rw [hop] at h
    rcases bind_eq_error_iff.1 h with h | ⟨node, s₁, hnode, h⟩
    · rcases operation_error h with
        ⟨hreject, rfl⟩ | ⟨hfollow, h | ⟨right, s₁, hright, hheight, rfl⟩⟩
      · exact .inl (.operator left hop hreject)
      · exact .inr ⟨_, _, q, .right left hop hfollow, by rwa [Call.run_operand]⟩
      · exact .inl (.height (.operation hop hright) hheight)
    · exact .inr ⟨_, _, q, .next hop hnode, h⟩

theorem raised_of_factor (h : factor rules s = .error e q) : Raised rules .factor s e := by
  rw [factor_eq] at h
  split at h
  · next hlimit =>
    split at h
    · cases h
    · next e₁ s₁ hsigned =>
      cases h
      exact .inr ⟨_, _, _, .enter hlimit, hsigned⟩
  · next hlimit =>
    cases h
    exact .inl (.nesting (by simpa using hlimit))

theorem raised_of_signed (h : signed rules s = .error e q) : Raised rules .signed s e := by
  rw [signed_apply] at h
  cases hsign : (Token.mark? s.tokens).bind Sign.ofChar? with
  | some sign =>
    rw [hsign] at h
    rcases bind_eq_error_iff.1 h with h | ⟨operand, s₁, hoperand, h⟩
    · exact .inr ⟨_, _, q, .sign hsign, h⟩
    · obtain ⟨hheight, rfl⟩ := unary_error h
      exact .inl (.height (.sign hsign hoperand) hheight)
  | none =>
    rw [hsign] at h
    rcases bind_eq_error_iff.1 h with h | ⟨base, s₁, hbase, h⟩
    · exact .inr ⟨_, _, q, .base hsign, h⟩
    · rw [power_apply] at h
      split at h
      · next hmark =>
        rcases operation_error h with
          ⟨hreject, rfl⟩ | ⟨hfollow, h | ⟨exponent, s₂, hexponent, hheight, rfl⟩⟩
        · exact .inl (.powerOperator hsign hbase hmark hreject)
        · exact .inr ⟨_, _, q, .exponent hsign hbase hmark hfollow, h⟩
        · exact .inl (.height (.power hsign hbase hmark hexponent) hheight)
      · cases h

theorem raised_of_primary (h : primary rules s = .error e q) : Raised rules .primary s e := by
  have hmissing : missingOperand rules s.skipSpaces = .error e q → LacksOperand s.tokens →
      Raised rules .primary s e := by
    intro h hlacks
    obtain ⟨hstrict, rfl⟩ := missingOperand_error h
    exact .inl (.missing hstrict hlacks)
  rw [primary_apply] at h
  split at h
  · next d ts htokens =>
    split at h
    · next hgroup =>
      subst hgroup
      have hmark : Token.mark? s.tokens = some '(' := by rw [htokens]; rfl
      rcases bind_eq_error_iff.1 h with h | ⟨inner, s₁, hinner, h⟩
      · exact .inr ⟨_, _, q, .group hmark, h⟩
      · obtain ⟨hclose, hstrict, rfl⟩ := close_error h
        exact .inl (.unclosed hstrict hmark hinner hclose)
    · next hgroup =>
      refine hmissing h fun tok htok => ⟨d, hgroup, ?_⟩
      rw [htokens] at htok
      exact (Option.some.inj htok).symm
  · next run ts htokens =>
    split at h
    · cases h
    · next hread =>
      cases h
      exact .inl (.number htokens hread)
  · next run ts htokens =>
    split at h
    · next function hname =>
      rcases bind_eq_error_iff.1 h with h | ⟨argument, s₁, hargument, h⟩
      · exact .inr ⟨_, _, q, .argument htokens hname, h⟩
      · obtain ⟨hheight, rfl⟩ := call_error h
        exact .inl (.height (.call htokens hname hargument) hheight)
    · cases h
  · next htokens =>
    refine hmissing h fun tok htok => ?_
    rw [htokens] at htok
    cases htok

theorem raised_of_run (h : c.run rules s = .error e q) : Raised rules c s e := by
  cases c with
  | chain rank => exact raised_of_chain h
  | tail rank left => exact raised_of_tail h
  | factor => exact raised_of_factor h
  | signed => exact raised_of_signed h
  | primary => exact raised_of_primary h

/-- Some call in the course of a failing call raises its error. -/
theorem exists_refuses (h : c.run rules s = .error e q) :
    ∃ n c' s', Reached rules c s n c' s' ∧ Refuses rules c' s' e := by
  induction c, s using Calls.induction rules generalizing q with
  | h c s ih =>
    rcases raised_of_run h with hrefuses | ⟨c₁, s₁, q₁, hcalls, h₁⟩
    · exact ⟨0, c, s, .here c s, hrefuses⟩
    · obtain ⟨n, c', s', hreached, hrefuses⟩ := ih c₁ s₁ hcalls h₁
      exact ⟨c.opens + n, c', s', .through hcalls hreached, hrefuses⟩

/-! ## What errors have in common -/

theorem Joins.continues {m : Nat} (h : Joins rules c s m q) : s.Continues q := by
  cases h with
  | @operation rank op left right _ _ hop hright =>
    have hrun : (Call.operand rank).run rules s.pass.skipSpaces = .ok right q := by
      rwa [Call.run_operand]
    exact s.continues_pass_skipSpaces.trans (Call.continues_of_run hrun)
  | sign hsign hoperand =>
    exact (s.continues_pass.trans (Reader.continues_note _ _)).trans
      (Call.continues_of_run (c := .factor) hoperand)
  | power hsign hbase hmark hexponent =>
    exact ((Call.continues_of_run (c := .primary) hbase).trans
      (Reader.continues_pass_skipSpaces _)).trans (Call.continues_of_run (c := .factor) hexponent)
  | call htokens hname hargument =>
    exact ((s.continues_passRun Char.isLower).trans (Reader.continues_note _ _)).trans
      (Call.continues_of_run (c := .factor) hargument)

namespace Refuses

/-- The error is raised at a place that the call reaches. -/
theorem exists_reaches (h : Refuses rules c s e) :
    ∃ q : Reader, s.cursor.Reaches q.cursor ∧ e.column = q.cursor.column := by
  cases h with
  | nesting hlimit => exact ⟨s, .refl _, rfl⟩
  | height hjoins hheight => exact ⟨_, hjoins.continues.reaches, rfl⟩
  | operator left hop hreject => exact ⟨_, s.continues_pass_skipSpaces.reaches, rfl⟩
  | powerOperator hsign hbase hmark hreject =>
    exact ⟨_, ((Call.continues_of_run (c := .primary) hbase).trans
      (Reader.continues_pass_skipSpaces _)).reaches, rfl⟩
  | number htokens hread => exact ⟨_, s.continues_skipSpaces.reaches, rfl⟩
  | missing hstrict hlacks => exact ⟨_, s.continues_skipSpaces.reaches, rfl⟩
  | unclosed hstrict hmark hinner hclose =>
    exact ⟨_, ((s.continues_pass.trans (Call.continues_of_run (c := .chain .sum) hinner)).trans
      (Reader.continues_skipSpaces _)).reaches, rfl⟩

theorem strict_of_isOmission (h : Refuses rules c s e) (he : e.kind.isOmission = true) :
    rules.strict = true := by
  cases h with
  | missing hstrict hlacks => exact hstrict
  | unclosed hstrict hmark hinner hclose => exact hstrict
  | nesting | height | operator | powerOperator | number => cases he

/-- A call that is refused as too deep opens one factor too many or joins too high a node. -/
theorem beyond_of_tooDeeplyNested (h : Refuses rules c s e) (hkind : e.kind = .tooDeeplyNested) :
    c = .factor ∧ withinLimit rules.limits.nesting (s.openFactors + 1) = false ∨
      ∃ m q, Joins rules c s m q ∧ withinLimit rules.limits.height m = false := by
  cases h with
  | nesting hlimit => exact .inl ⟨rfl, hlimit⟩
  | height hjoins hheight => exact .inr ⟨_, _, hjoins, hheight⟩
  | operator | powerOperator | number | missing | unclosed => cases hkind

theorem kind_ne_of_unlimited (h : Refuses rules c s e) (hlimits : rules.limits = .unlimited) :
    e.kind ≠ .tooDeeplyNested := by
  intro hkind
  rcases h.beyond_of_tooDeeplyNested hkind with ⟨-, hlimit⟩ | ⟨m, q, -, hlimit⟩
  · rw [hlimits] at hlimit
    cases hlimit
  · rw [hlimits] at hlimit
    cases hlimit

end Refuses

theorem exists_reaches_of_run (h : c.run rules s = .error e q) :
    ∃ q : Reader, s.cursor.Reaches q.cursor ∧ e.column = q.cursor.column := by
  obtain ⟨n, c', s', hreached, hrefuses⟩ := exists_refuses h
  obtain ⟨q', hreaches, hcolumn⟩ := hrefuses.exists_reaches
  exact ⟨q', hreached.reaches.trans hreaches, hcolumn⟩

/-- No error is reported before the place where the reading began. -/
theorem column_le_of_run (h : c.run rules s = .error e q) : s.cursor.column ≤ e.column := by
  obtain ⟨q', hreaches, hcolumn⟩ := exists_reaches_of_run h
  rw [hcolumn]
  exact Nat.succ_le_succ hreaches.position_le

end Grammar

namespace Expr

variable {rules : Rules} {source : String} {e : ParseError}

/-- A text fails to parse at an error of its expression, or at a character behind it. -/
theorem parse_eq_error_iff :
    Expr.parse rules source = .error e ↔
      (∃ q, Grammar.expression rules (.ofText source) = .error e q) ∨
        ∃ t s c, Grammar.expression rules (.ofText source) = .ok t s ∧
          s.cursor.current? = some c ∧ e = ⟨.unexpectedCharacter c, s.cursor.column⟩ := by
  cases h : Grammar.expression rules (.ofText source) with
  | error e' q =>
    have hcomplete : Grammar.complete rules (.ofText source) = .error e' q := by
      simp only [Grammar.complete, Step.bind_apply, h]
    simp [Expr.parse, Reader.parse, hcomplete]
  | ok t s =>
    simp only [Expr.parse, Reader.parse, Grammar.complete_apply h]
    cases hc : s.cursor.current? with
    | none =>
      constructor
      · intro he
        cases he
      · rintro (⟨q, ⟨⟩⟩ | ⟨t', s', c, ⟨⟩, hc', -⟩)
        rw [hc] at hc'
        cases hc'
    | some c =>
      constructor
      · intro he
        cases he
        exact .inr ⟨t, s, c, rfl, hc, rfl⟩
      · rintro (⟨q, ⟨⟩⟩ | ⟨t', s', c', ⟨⟩, hc', rfl⟩)
        rw [hc] at hc'
        cases hc'
        rfl

/-- An error that is not about what stands behind the expression is raised by some call. -/
theorem exists_refuses_of_parse (h : Expr.parse rules source = .error e)
    (hkind : ∀ c, e.kind ≠ .unexpectedCharacter c) :
    ∃ n c s, Grammar.Reached rules (.chain .sum) (.ofText source) n c s ∧
      Grammar.Refuses rules c s e := by
  rcases parse_eq_error_iff.1 h with ⟨q, hq⟩ | ⟨t, s, c, -, -, rfl⟩
  · exact Grammar.exists_refuses (c := .chain .sum) hq
  · exact absurd rfl (hkind c)

theorem strict_of_parse_error (h : Expr.parse rules source = .error e)
    (he : e.kind.isOmission = true) : rules.strict = true := by
  have hkind : ∀ c, e.kind ≠ .unexpectedCharacter c := by
    intro c hc
    rw [hc] at he
    cases he
  obtain ⟨n, c, s, -, hrefuses⟩ := exists_refuses_of_parse h hkind
  exact hrefuses.strict_of_isOmission he

theorem kind_ne_of_parse_unlimited (h : Expr.parse rules source = .error e)
    (hlimits : rules.limits = .unlimited) : e.kind ≠ .tooDeeplyNested := by
  intro hkind
  obtain ⟨n, c, s, -, hrefuses⟩ := exists_refuses_of_parse h (by simp [hkind])
  exact hrefuses.kind_ne_of_unlimited hlimits hkind

end Expr

end Calculator
