import Calculator.Proofs.Grammar.Calls
import Mathlib.Data.Prod.Lex
import Mathlib.Logic.Relation

/-!
# Why a reading ends

A call is answered from the answers to the calls that it makes. These are made on
fewer characters, or on no more of them further down the grammar, also where an
operand or a parenthesis is missing and nothing is read for it. So a reading ends
without any bound on its nesting, and its depth is bounded by the length of the
text.
-/

namespace Calculator

namespace Step

variable {α β : Type} {s s' : Reader}

/-- Two sequences agree if they begin alike and agree on what follows. -/
theorem bind_congr_apply {a b : Step α} {f g : α → Step β} (hab : a s = b s)
    (hfg : ∀ x s', b s = .ok x s' → f x s' = g x s') : (a >>= f) s = (b >>= g) s := by
  rw [bind_apply, bind_apply, hab]
  cases h : b s with
  | ok x s' => exact hfg x s' h
  | error e s' => rfl

theorem bind_congr_ok {a : Step α} {f g : α → Step β} {x : α} (ha : a s = .ok x s')
    (hfg : f x s' = g x s') : (a >>= f) s = (a >>= g) s := by
  rw [bind_apply, bind_apply, ha]
  exact hfg

/-- Two steps agree that look at what comes behind the spaces, if they agree on that. -/
theorem look_congr {f g : Nat → Option Char → Step β}
    (h : f s.nextColumn s.skipSpaces.cursor.current? s.skipSpaces =
      g s.nextColumn s.skipSpaces.cursor.current? s.skipSpaces) :
    (do skipSpaces; let column ← column; let next ← current?; f column next) s =
      (do skipSpaces; let column ← column; let next ← current?; g column next) s :=
  bind_congr_ok (skipSpaces_apply s)
    (bind_congr_ok (column_apply _) (bind_congr_ok (current?_apply _) h))

/-- Closes a factor, however it ended. -/
def leaving {α : Type} : EStateM.Result ParseError Reader α → EStateM.Result ParseError Reader α
  | .ok x s => .ok x s.leave
  | .error e s => .error e s.leave

theorem rejectOperator_ok {u : Unit} (h : rejectOperator s = .ok u s') :
    (Token.mark? s.tokens).any isOperatorChar = false ∧ s' = s.skipSpaces := by
  rw [rejectOperator_apply] at h
  split at h
  · cases h
  · next hfollow =>
    cases h
    exact ⟨by simpa using hfollow, rfl⟩

end Step

namespace Grammar

open Step

namespace Call

/-- What becomes less along the calls: the characters left, and on the same characters how far up
the grammar the call stands. The tail of a chain stands below the chain and above its operands,
and what is behind the opening of a factor below the factor and above primaries. -/
def potential (c : Call) (s : Reader) : Nat ×ₗ Nat :=
  toLex (s.left, c.level)

theorem potential_lt {c c' : Call} {s s' : Reader}
    (h : s'.left < s.left ∨ s'.left ≤ s.left ∧ c'.level < c.level) :
    c'.potential s' < c.potential s := by
  rcases h with hleft | ⟨hleft, hlevel⟩
  · exact Prod.Lex.left _ _ hleft
  · rcases Nat.lt_or_eq_of_le hleft with hlt | heq
    · exact Prod.Lex.left _ _ hlt
    · rw [potential, potential, heq]
      exact Prod.Lex.right _ hlevel

/-- What the grammar function does if its calls are answered by `answer`. -/
def body (rules : Rules) (answer : Call → Step Measured) : Call → Step Measured
  | chain rank => do
      let left ← answer (operand rank)
      answer (tail rank left)
  | tail rank left => do
      skipSpaces
      let column ← column
      match (← current?).bind rank.operator? with
      | none => return left
      | some op =>
        advance
        rejectOperator
        let right ← answer (operand rank)
        let node ← binary rules op column left right
        answer (tail rank node)
  | factor => fun s =>
      if withinLimit rules.limits.nesting (s.openFactors + 1) then
        leaving (answer signed s.enter)
      else .error ⟨.tooDeeplyNested, s.cursor.column⟩ s
  | signed => do
      skipSpaces
      let column ← column
      match (← current?).bind Sign.ofChar? with
      | some sign =>
        advance
        note (.signed sign column)
        let operand ← answer factor
        unary rules sign column operand
      | none =>
        let base ← answer primary
        skipSpaces
        let column ← Step.column
        if (← current?) = some '^' then
          advance
          rejectOperator
          let exponent ← answer factor
          binary rules .pow column base exponent
        else return base
  | primary => do
      skipSpaces
      let column ← column
      match ← current? with
      | none => missingOperand rules
      | some c =>
        if c = '(' then
          advance
          let inner ← answer (chain .sum)
          close rules inner
        else if isNumberChar c then number
        else if c.isLower then
          let word := String.ofList (← takeWhile Char.isLower)
          match Function.ofName? word with
          | some function =>
            note (.called function column)
            let argument ← answer factor
            call rules function column argument
          | none => return ⟨.var word column, 1⟩
        else missingOperand rules

/-- The grammar functions down to the depth `n` of their calls. The calls below are answered by
`answer`. -/
def unrolled (rules : Rules) (answer : Call → Step Measured) : Nat → Call → Step Measured
  | 0 => answer
  | n + 1 => body rules (unrolled rules answer n)

end Call

variable {rules : Rules} {answer : Call → Step Measured} {c c' : Call} {s s' : Reader}

/-- The first call makes the second one itself. -/
def Calling (rules : Rules) (x y : Call × Reader) : Prop :=
  Calls rules x.1 x.2 y.1 y.2

theorem Calls.potential_lt (h : Calls rules c s c' s') : c'.potential s' < c.potential s := by
  apply Call.potential_lt
  rcases Nat.lt_or_ge c'.level c.level with hlt | hge
  · exact .inr ⟨h.left_le, hlt⟩
  · exact .inl (h.left_lt_of_level_le hge)

/-- A call that is made through others is smaller as well, such as the operands that a chain reads
in its tail. -/
theorem potential_lt_of_transGen {x y : Call × Reader}
    (h : Relation.TransGen (Calling rules) x y) :
    y.1.potential y.2 < x.1.potential x.2 := by
  induction h with
  | single h => exact Calls.potential_lt h
  | tail _ h ih => exact lt_trans (Calls.potential_lt h) ih

theorem wellFounded_calling (rules : Rules) : WellFounded (flip (Calling rules)) :=
  Subrelation.wf (fun h => Calls.potential_lt h)
    (InvImage.wf (fun x : Call × Reader => x.1.potential x.2) wellFounded_lt)

/-! ## Answers from smaller calls -/

/-- The answers to all calls that are smaller than this one are right. -/
def Answered (rules : Rules) (answer : Call → Step Measured) (c : Call) (s : Reader) : Prop :=
  ∀ c' s', c'.potential s' < c.potential s → answer c' s' = c'.run rules s'

theorem Answered.of_calls (h : Answered rules answer c s) (hcalls : Calls rules c s c' s') :
    answer c' s' = c'.run rules s' :=
  h c' s' hcalls.potential_lt

theorem Answered.operand {rank : Rank} (h : Answered rules answer c s)
    (hcalls : Calls rules c s (.operand rank) s') :
    answer (.operand rank) s' = Grammar.operand rules rank s' := by
  rw [h.of_calls hcalls, Call.run_operand]

theorem body_chain {rank : Rank} (h : Answered rules answer (.chain rank) s) :
    Call.body rules answer (.chain rank) s = chain rules rank s := by
  rw [chain_eq]
  refine bind_congr_apply (h.operand (.operand rank s)) fun left s₁ hleft => ?_
  exact h.of_calls (.tail hleft)

theorem body_tail {rank : Rank} {left : Measured} (h : Answered rules answer (.tail rank left) s) :
    Call.body rules answer (.tail rank left) s = tail rules rank left s := by
  rw [tail_eq]
  refine look_congr ?_
  cases hop : s.skipSpaces.cursor.current?.bind rank.operator? with
  | none => rfl
  | some op =>
    rw [s.look_bind fun _ => Rank.operator?_eq_none] at hop
    refine bind_congr_ok (advance_apply _) (bind_congr_apply rfl fun _ s₁ hreject => ?_)
    obtain ⟨hfollow, rfl⟩ := rejectOperator_ok hreject
    refine bind_congr_apply (h.operand (.right left hop hfollow)) fun right s₂ hright => ?_
    refine bind_congr_apply rfl fun node s₃ hnode => ?_
    refine h.of_calls (.next hop (bind_eq_ok_iff.2 ⟨_, _, hreject, ?_⟩))
    exact bind_eq_ok_iff.2 ⟨right, s₂, hright, hnode⟩

theorem body_factor (h : Answered rules answer .factor s) :
    Call.body rules answer .factor s = factor rules s := by
  rw [factor_eq]
  by_cases hlimit : withinLimit rules.limits.nesting (s.openFactors + 1) = true
  · have hsigned : answer .signed s.enter = signed rules s.enter := h.of_calls (.enter hlimit)
    simp only [Call.body, if_pos hlimit, hsigned]
    cases signed rules s.enter <;> rfl
  · simp only [Call.body, if_neg hlimit]

theorem body_signed (h : Answered rules answer .signed s) :
    Call.body rules answer .signed s = signed rules s := by
  rw [signed_eq]
  refine look_congr ?_
  cases hsign : s.skipSpaces.cursor.current?.bind Sign.ofChar? with
  | some sign =>
    rw [s.look_bind fun _ => Sign.ofChar?_eq_none] at hsign
    refine bind_congr_ok (advance_apply _) (bind_congr_ok (note_apply _ _) ?_)
    exact bind_congr_apply (h.of_calls (.sign hsign)) fun _ _ _ => rfl
  | none =>
    rw [s.look_bind fun _ => Sign.ofChar?_eq_none] at hsign
    have hprimary : answer .primary s.skipSpaces = primary rules s.skipSpaces :=
      h .primary _ (Call.potential_lt (.inr ⟨s.continues_skipSpaces.left_le, by decide⟩))
    refine bind_congr_apply hprimary fun base s₁ hbase => ?_
    rw [primary_skipSpaces] at hbase
    refine look_congr ?_
    by_cases hpower : s₁.skipSpaces.cursor.current? = some '^'
    · have hmark := (s₁.look_eq_iff (by decide)).1 hpower
      rw [if_pos hpower, if_pos hpower]
      refine bind_congr_ok (advance_apply _) (bind_congr_apply rfl fun _ s₂ hreject => ?_)
      obtain ⟨hfollow, rfl⟩ := rejectOperator_ok hreject
      exact bind_congr_apply (h.of_calls (.exponent hsign hbase hmark hfollow)) fun _ _ _ => rfl
    · rw [if_neg hpower, if_neg hpower]

theorem body_primary (h : Answered rules answer .primary s) :
    Call.body rules answer .primary s = primary rules s := by
  rw [primary_eq]
  refine look_congr ?_
  cases hlook : s.skipSpaces.cursor.current? with
  | none => rfl
  | some d =>
    dsimp only
    split
    · next hgroup =>
      subst hgroup
      have hmark := (s.look_eq_iff (by decide)).1 hlook
      refine bind_congr_ok (advance_apply _) ?_
      exact bind_congr_apply (h.of_calls (.group hmark)) fun _ _ _ => rfl
    · split
      · rfl
      · split
        · next hlower =>
          refine bind_congr_ok (takeWhile_apply _ _) ?_
          have htokens := Reader.tokens_of_word hlook hlower
          cases hname : Function.ofName? (String.ofList
              (s.skipSpaces.cursor.rest.takeWhile Char.isLower)) with
          | none => rfl
          | some function =>
            refine bind_congr_ok (note_apply _ _) ?_
            exact bind_congr_apply (h.of_calls (.argument htokens hname)) fun _ _ _ => rfl
        · rfl

/-- A call is answered rightly if the calls that are smaller are. -/
theorem body_eq_run (h : Answered rules answer c s) : c.body rules answer s = c.run rules s := by
  cases c with
  | chain rank => exact body_chain h
  | tail rank left => exact body_tail h
  | factor => exact body_factor h
  | signed => exact body_signed h
  | primary => exact body_primary h

theorem measure_lt_of_potential_lt (h : c'.potential s' < c.potential s) :
    Descent.measure s'.left c'.level < Descent.measure s.left c.level := by
  refine Descent.measure_lt c'.level_le ?_
  rcases Prod.Lex.toLex_lt_toLex.1 h with hleft | ⟨hleft, hlevel⟩
  · exact .inl hleft
  · exact .inr ⟨Nat.le_of_eq hleft, hlevel⟩

/-- Below the depth that the measure gives, no call is left to answer. -/
theorem unrolled_eq_run (answer : Call → Step Measured) {n : Nat}
    (h : Descent.measure s.left c.level < n) :
    Call.unrolled rules answer n c s = c.run rules s := by
  induction n generalizing c s with
  | zero => exact absurd h (Nat.not_lt_zero _)
  | succ n ih =>
    refine body_eq_run fun c' s' hlt => ih ?_
    exact Nat.lt_of_lt_of_le (measure_lt_of_potential_lt hlt) (Nat.le_of_lt_succ h)

/-! ## Rounds of a chain -/

theorem position_lt_pass {rank : Rank} {op : BinaryOp}
    (hop : (Token.mark? s.tokens).bind rank.operator? = some op) :
    s.cursor.position < s.pass.cursor.position := by
  rw [Reader.position_pass (mark?_of_operator? hop).1]
  exact Nat.lt_succ_of_le s.continues_skipSpaces.reaches.position_le

/-- A round has moved the reader when it reads its operand, and when the next round begins. -/
theorem Calls.position_lt {rank : Rank} {left : Measured}
    (h : Calls rules (.tail rank left) s c' s') : s.cursor.position < s'.cursor.position := by
  cases h with
  | right left hop hfollow =>
    have hspaces := s.pass.continues_skipSpaces.reaches.position_le
    exact Nat.lt_of_lt_of_le (position_lt_pass hop) hspaces
  | next hop hnode =>
    have hcontinues := continues_of_operation (continues_operand rules rank) hnode
    exact Nat.lt_of_lt_of_le (position_lt_pass hop) hcontinues.reaches.position_le

/-- So has a round that fails. -/
theorem position_lt_tail {rank : Rank} {op : BinaryOp} (left : Measured)
    (hop : (Token.mark? s.tokens).bind rank.operator? = some op) :
    s.cursor.position < (final (tail rules rank left s)).cursor.position := by
  have honward : Onward (operation rules (operand rules rank) op s.nextColumn left >>=
      tail rules rank) :=
    .bind (.bind .rejectOperator fun _ => .bind (continues_operand rules rank) fun _ =>
      .binary _ _ _ _ _) fun node => (Call.tail rank node).continues_run rules
  have htail := tail_apply rules rank left s
  simp only [hop] at htail
  rw [htail]
  exact Nat.lt_of_lt_of_le (position_lt_pass hop) (honward s.pass).reaches.position_le

end Grammar

open Grammar Step in
/-- Without bounds on the nesting, every call that is made in the course of another one is made on
fewer characters, or on no more of them further down the grammar, and what a call does is decided
by smaller calls alone. Every round of a chain moves the reader. So no reading calls on for ever,
and what is deeper than the characters allow is never asked for. -/
theorem grammar_terminates (strict : Bool) :
    let rules : Rules := ⟨strict, .unlimited⟩
    (Call.primary.level < Call.factor.level ∧
        Call.factor.level < (Call.chain .product).level ∧
        (Call.chain .product).level < (Call.chain .sum).level) ∧
      (∀ c s c' s', Relation.TransGen (Calling rules) (c, s) (c', s') →
        c'.potential s' < c.potential s) ∧
      (∀ answer c s, Answered rules answer c s → c.body rules answer s = c.run rules s) ∧
      (∀ rank left s c' s', Calls rules (.tail rank left) s c' s' →
        s.cursor.position < s'.cursor.position) ∧
      (∀ rank op left s, s.skipSpaces.cursor.current?.bind rank.operator? = some op →
        s.cursor.position < (final (tail rules rank left s)).cursor.position) ∧
      WellFounded (flip (Calling rules)) ∧
      ∀ answer n c s, 9 * s.left + c.level < n →
        Call.unrolled rules answer n c s = c.run rules s := by
  intro rules
  refine ⟨by decide, fun c s c' s' h => potential_lt_of_transGen h,
    fun answer c s h => body_eq_run h, fun rank left s c' s' h => h.position_lt,
    fun rank op left s hop => ?_, wellFounded_calling rules, fun answer n c s h =>
      unrolled_eq_run answer h⟩
  rw [s.look_bind fun _ => Rank.operator?_eq_none] at hop
  exact position_lt_tail left hop

end Calculator
