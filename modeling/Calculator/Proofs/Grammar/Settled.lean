import Calculator.Grammar.Parse
import Calculator.Proofs.Grammar.Success

/-!
# Where a reading stops

A factor that was read is not followed by the sign of a power, and operands with
operators between them are not followed by an operator of their rank. The cursor
stands on the token that does follow.
-/

namespace Calculator

/-- The reader stands on its next token, which is none of the marks `stops`. -/
structure Reader.Settled (stops : List Char) (s : Reader) : Prop where
  skipSpaces_eq : s.skipSpaces = s
  mark_ne : ∀ c ∈ stops, Token.mark? s.tokens ≠ some c

namespace Rank

/-- The marks that cannot follow an operand of the rank. -/
def operandStops : Rank → List Char
  | sum => ['*', '/', '^']
  | product => ['^']

/-- The marks that cannot follow operands of the rank with operators between them. -/
def stops : Rank → List Char
  | sum => ['+', '-'] ++ sum.operandStops
  | product => ['*', '/'] ++ product.operandStops

theorem mem_stops {rank : Rank} {c : Char} (h : c ∈ rank.stops) :
    c ∈ rank.operandStops ∨ ∃ op, rank.operator? c = some op := by
  cases rank with
  | sum =>
    simp only [stops, operandStops, List.mem_append, List.mem_cons, List.not_mem_nil] at h
    rcases h with (rfl | rfl | h) | h
    · exact .inr ⟨.add, rfl⟩
    · exact .inr ⟨.sub, rfl⟩
    · exact absurd h id
    · exact .inl (by simpa [operandStops] using h)
  | product =>
    simp only [stops, operandStops, List.mem_append, List.mem_cons, List.not_mem_nil] at h
    rcases h with (rfl | rfl | h) | h
    · exact .inr ⟨.mul, rfl⟩
    · exact .inr ⟨.div, rfl⟩
    · exact absurd h id
    · exact .inl (by simpa [operandStops] using h)

theorem symbol_mem_stops {rank : Rank} {op : BinaryOp} (h : ofOp? op = some rank) :
    op.symbol ∈ rank.stops := by
  cases op <;> cases h <;> decide

theorem symbol_notMem_operandStops {rank : Rank} {op : BinaryOp} (h : ofOp? op = some rank) :
    op.symbol ∉ rank.operandStops := by
  cases op <;> cases h <;> decide

theorem operator?_eq_none_of_stops {rank : Rank} {ts : List Token}
    (h : ∀ c ∈ rank.stops, Token.mark? ts ≠ some c) :
    (Token.mark? ts).bind rank.operator? = none := by
  cases hc : (Token.mark? ts).bind rank.operator? with
  | none => rfl
  | some op =>
    obtain ⟨c, hmark, hop⟩ := Option.bind_eq_some_iff.1 hc
    obtain ⟨rfl, hrank⟩ := operator?_eq_some_iff.1 hop
    exact absurd hmark (h _ (symbol_mem_stops hrank))

end Rank

namespace Grammar

variable {rules : Rules} {s s' : Reader} {t : Measured}

theorem settled_of_stop {rank : Rank} (h : s.Settled rank.operandStops)
    (hop : (Token.mark? s.tokens).bind rank.operator? = none) :
    s.skipSpaces.Settled rank.stops := by
  refine ⟨s.skipSpaces_skipSpaces, fun c hc hmark => ?_⟩
  rw [Reader.tokens_skipSpaces] at hmark
  rcases Rank.mem_stops hc with hc | ⟨op, hc⟩
  · exact h.mark_ne c hc hmark
  · rw [hmark, Option.bind_some, hc] at hop
    cases hop

/-- Wherever the step reads a tree, it stops before none of the marks. -/
def StopsBefore (stops : List Char) (step : Step Measured) (s : Reader) : Prop :=
  ∀ t s', step s = .ok t s' → s'.Settled stops

theorem stopsBefore_operand {rank : Rank}
    (h : OfOperand (fun rank => StopsBefore rank.stops (chain rules rank))
      (StopsBefore ['^'] (factor rules)) rank s) :
    StopsBefore rank.operandStops (operand rules rank) s := by
  cases rank with
  | sum =>
    rw [operand_sum]
    exact h
  | product =>
    rw [operand_product]
    exact h

theorem stopsBefore_inductive (rules : Rules) :
    Inductive rules
      (fun rank => StopsBefore rank.stops (chain rules rank))
      (fun rank left s => s.Settled rank.operandStops →
        StopsBefore rank.stops (tail rules rank left) s)
      (StopsBefore ['^'] (factor rules))
      (StopsBefore ['^'] (signed rules))
      (fun _ => True) where
  chain := by
    intro rank s hoperand htail t s' h
    obtain ⟨left, s₁, hleft, h⟩ := chain_ok.1 h
    exact htail left s₁ hleft (stopsBefore_operand hoperand left s₁ hleft) t s' h
  tail := by
    intro rank left s ih hs t s' h
    cases tail_ok.1 h with
    | stop hop => exact settled_of_stop hs hop
    | step op node s₁ hop hnode htail =>
      obtain ⟨-, right, hright, -⟩ := operation_ok.1 hnode
      obtain ⟨hoperand, htails⟩ := ih op hop
      exact htails right s₁ hright node (stopsBefore_operand hoperand right s₁ hright) t s' htail
  factor := by
    intro s hsigned t s' h
    obtain ⟨-, s₁, hs, rfl⟩ := factor_ok.1 h
    obtain ⟨hskip, hmark⟩ := hsigned t s₁ hs
    exact ⟨congrArg Reader.leave hskip, hmark⟩
  signed := by
    intro s hfactor _ hpower t s' h
    cases signed_ok.1 h with
    | signed sign operand hsign hoperand hnode => exact hfactor sign hsign operand s' hoperand
    | unsigned base s₁ hsign hbase h =>
      rcases power_ok.1 h with ⟨hmark, h⟩ | ⟨hmark, rfl, rfl⟩
      · obtain ⟨-, exponent, hexponent, -⟩ := operation_ok.1 h
        exact hpower base s₁ hbase hmark exponent s' hexponent
      · refine ⟨s₁.skipSpaces_skipSpaces, fun c hc => ?_⟩
        obtain rfl := List.mem_singleton.1 hc
        rwa [Reader.tokens_skipSpaces]
  primary := fun _ _ _ => trivial

theorem settled_of_chain {rank : Rank} (h : chain rules rank s = .ok t s') :
    s'.Settled rank.stops :=
  ((stopsBefore_inductive rules).all s).1 rank t s' h

theorem settled_of_factor (h : factor rules s = .ok t s') : s'.Settled ['^'] :=
  ((stopsBefore_inductive rules).all s).2.2.1 t s' h

/-- An expression is the whole text if no token is left behind it. -/
theorem complete_apply (h : expression rules s = .ok t s') :
    complete rules s =
      match s'.cursor.current? with
      | some c => .error ⟨.unexpectedCharacter c, s'.cursor.column⟩ s'
      | none => .ok t.expr (s'.note (.completed t.expr s'.cursor.position t.height)) := by
  simp only [complete, Step.bind_apply, h, Step.atEnd_apply, Cursor.atEnd_eq]
  cases hlook : s'.cursor.current? with
  | none => rfl
  | some c => simp [Step.bind_apply, hlook]

end Grammar

/-- A text parses if an expression is read from it that leaves no token. -/
theorem Expr.parse_eq_ok_iff {rules : Rules} {source : String} {e : Expr} :
    Expr.parse rules source = .ok e ↔
      ∃ t s', Grammar.expression rules (.ofText source) = .ok t s' ∧ s'.tokens = [] ∧
        t.expr = e := by
  cases h : Grammar.expression rules (.ofText source) with
  | error e' s' =>
    have hcomplete : Grammar.complete rules (.ofText source) = .error e' s' := by
      simp only [Grammar.complete, Step.bind_apply, h]
    simp [Expr.parse, Reader.parse, hcomplete]
  | ok t s' =>
    have hnone : s'.cursor.current? = none ↔ s'.tokens = [] := by
      rw [← s'.current?_eq_none_iff, (Grammar.settled_of_chain h).skipSpaces_eq]
    simp only [Expr.parse, Reader.parse, Grammar.complete_apply h]
    cases hc : s'.cursor.current? with
    | none =>
      constructor
      · intro he
        exact ⟨t, s', rfl, hnone.1 hc, Except.ok.inj he⟩
      · rintro ⟨t', s'', ⟨⟩, -, rfl⟩
        rfl
    | some c =>
      constructor
      · intro he
        cases he
      · rintro ⟨t', s'', ⟨⟩, htokens, -⟩
        rw [hnone.2 htokens] at hc
        cases hc

end Calculator
