import Calculator.Proofs.Grammar.Refusal

/-!
# Tighter rules

A reading under tighter rules goes the same way as a reading under looser ones
until it raises an error that the tighter rules add. The other reading may go on
from there, but neither its place nor its errors come before that error.

Strict rules are tighter than permissive ones and add the errors about what is
left out; bounds are tighter than none and add those about deep nesting.
-/

namespace Calculator

namespace Rules

/-- The second rules refuse nothing that the first ones take. -/
structure Tighter (tight loose : Rules) : Prop where
  strict : loose.strict = true → tight.strict = true
  nesting : ∀ n, withinLimit tight.limits.nesting n = true →
    withinLimit loose.limits.nesting n = true
  height : ∀ n, withinLimit tight.limits.height n = true →
    withinLimit loose.limits.height n = true

/-- The first rules may raise errors of this kind where the second ones do not. -/
def Adds (tight loose : Rules) (kind : ParseError.Kind) : Prop :=
  kind.isOmission = true ∧ tight.strict ≠ loose.strict ∨
    kind = .tooDeeplyNested ∧ tight.limits ≠ loose.limits

theorem Tighter.refl (rules : Rules) : Tighter rules rules where
  strict := fun h => h
  nesting := fun _ h => h
  height := fun _ h => h

theorem strictly_tighter_permissive : Tighter .strictly .permissive where
  strict := fun _ => rfl
  nesting := fun _ h => h
  height := fun _ h => h

theorem bounded_tighter_unlimited (strict : Bool) (limits : Limits) :
    Tighter ⟨strict, limits⟩ ⟨strict, .unlimited⟩ where
  strict := fun h => h
  nesting := fun _ _ => rfl
  height := fun _ _ => rfl

/-- Bounds add no errors but those about deep nesting. -/
theorem eq_of_adds_bounded {strict : Bool} {limits : Limits} {kind : ParseError.Kind}
    (h : Adds ⟨strict, limits⟩ ⟨strict, .unlimited⟩ kind) : kind = .tooDeeplyNested := by
  rcases h with ⟨-, hstrict⟩ | ⟨hkind, -⟩
  · exact absurd rfl hstrict
  · exact hkind

theorem adds_omission {tight loose : Rules} {kind : ParseError.Kind}
    (hkind : kind.isOmission = true) (htight : tight.strict = true)
    (hloose : ¬ loose.strict = true) : Adds tight loose kind := by
  refine .inl ⟨hkind, ?_⟩
  rw [htight]
  exact fun h => hloose h.symm

theorem adds_of_nesting {tight loose : Rules} {n : Nat}
    (htight : ¬ withinLimit tight.limits.nesting n = true)
    (hloose : withinLimit loose.limits.nesting n = true) :
    Adds tight loose .tooDeeplyNested := by
  refine .inr ⟨rfl, fun h => htight ?_⟩
  rwa [h]

theorem adds_of_height {tight loose : Rules} {n : Nat}
    (htight : ¬ withinLimit tight.limits.height n = true)
    (hloose : withinLimit loose.limits.height n = true) :
    Adds tight loose .tooDeeplyNested := by
  refine .inr ⟨rfl, fun h => htight ?_⟩
  rwa [h]

end Rules

namespace Grammar

open Step

/-- Neither the place that was reached nor the error comes before the column. -/
def Beyond (column : Nat) : EStateM.Result ParseError Reader Measured → Prop
  | .ok _ s => column ≤ s.cursor.column
  | .error e _ => column ≤ e.column

/-- The step never goes back, and reports no error behind itself. -/
def Forward (step : Step Measured) : Prop :=
  ∀ s, Beyond s.cursor.column (step s)

variable {rules tight loose : Rules} {s q : Reader} {t : Measured}

theorem Beyond.mono {m n : Nat} {r : EStateM.Result ParseError Reader Measured}
    (h : Beyond n r) (hmn : m ≤ n) : Beyond m r := by
  cases r with
  | ok t s => exact Nat.le_trans hmn h
  | error e s => exact Nat.le_trans hmn h

namespace Forward

theorem run (rules : Rules) (c : Call) : Forward (c.run rules) := by
  intro s
  cases h : c.run rules s with
  | ok t s' => exact (Call.continues_of_run h).column_le
  | error e s' => exact column_le_of_run h

theorem bind {a : Step Measured} {f : Measured → Step Measured} (ha : Forward a)
    (hf : ∀ x, Forward (f x)) : Forward (a >>= f) := by
  intro s
  have hs := ha s
  rw [bind_apply]
  cases h : a s with
  | ok x s' =>
    rw [h] at hs
    exact (hf x s').mono hs
  | error e s' =>
    rw [h] at hs
    exact hs

theorem bounded {b : Bool} {kind : ParseError.Kind} :
    Beyond s.cursor.column (if b then .ok t s else .error ⟨kind, s.cursor.column⟩ s) := by
  cases b <;> exact Nat.le_refl _

theorem binary (op : BinaryOp) (column : Nat) (left right : Measured) :
    Forward (binary rules op column left right) := by
  intro s
  rw [binary_apply]
  exact bounded

theorem unary (sign : Sign) (column : Nat) (operand : Measured) :
    Forward (unary rules sign column operand) := by
  intro s
  rw [unary_apply]
  exact bounded

theorem call (function : Function) (column : Nat) (argument : Measured) :
    Forward (call rules function column argument) := by
  intro s
  rw [call_apply]
  exact bounded

theorem close (inner : Measured) : Forward (close rules inner) := by
  intro s
  rw [close_apply]
  split
  · exact s.continues_pass.column_le
  · split <;> exact s.continues_skipSpaces.column_le

theorem operation {operand : Step Measured} (hoperand : Forward operand) (op : BinaryOp)
    (column : Nat) (left : Measured) : Forward (operation rules operand op column left) := by
  intro s
  rw [Grammar.operation, bind_apply, rejectOperator_apply]
  by_cases hreject : (Token.mark? s.tokens).any isOperatorChar = true
  · rw [if_pos hreject]
    exact s.continues_skipSpaces.column_le
  · rw [if_neg hreject]
    exact (hoperand.bind (fun right => binary op column left right) s.skipSpaces).mono
      (s.continues_skipSpaces.column_le)

theorem power (base : Measured) : Forward (power rules base) := by
  intro s
  rw [power_apply]
  split
  · exact (operation (run rules .factor) .pow s.nextColumn base s.pass).mono
      s.continues_pass.column_le
  · exact s.continues_skipSpaces.column_le

theorem operand (rules : Rules) (rank : Rank) : Forward (operand rules rank) := by
  rw [← Call.run_operand]
  exact run rules (Call.operand rank)

/-- What is read behind an operator of the rank. -/
theorem step (rank : Rank) (op : BinaryOp) (column : Nat) (left : Measured) :
    Forward (Grammar.operation rules (Grammar.operand rules rank) op column left >>=
      tail rules rank) :=
  (operation (operand rules rank) op column left).bind fun node => run rules (.tail rank node)

end Forward

/-- The first outcome, under tighter rules, beside the second one. -/
inductive Narrows (tight loose : Rules) : EStateM.Result ParseError Reader Measured →
    EStateM.Result ParseError Reader Measured → Prop where
  | same (r : EStateM.Result ParseError Reader Measured) : Narrows tight loose r r
  | refused {e : ParseError} {q : Reader} {r : EStateM.Result ParseError Reader Measured}
      (hkind : tight.Adds loose e.kind) (hbeyond : Beyond e.column r) :
      Narrows tight loose (.error e q) r

namespace Narrows

/-- What the tighter rules take, the looser ones take in the same way. -/
theorem eq_of_ok {r : EStateM.Result ParseError Reader Measured}
    (h : Narrows tight loose (.ok t s) r) : r = .ok t s := by
  cases h
  rfl

theorem bind {a a' : Step Measured} {f f' : Measured → Step Measured}
    (h : Narrows tight loose (a s) (a' s))
    (hok : ∀ x s', a s = .ok x s' → Narrows tight loose (f x s') (f' x s'))
    (hforward : ∀ x, Forward (f' x)) :
    Narrows tight loose ((a >>= f) s) ((a' >>= f') s) := by
  rw [bind_apply, bind_apply]
  generalize hr : a s = r at h
  generalize a' s = r' at h
  cases h with
  | same =>
    cases r with
    | ok x s' => exact hok x s' hr
    | error e s' => exact .same _
  | refused hkind hbeyond =>
    refine .refused hkind ?_
    cases r' with
    | ok x s' => exact (hforward x s').mono hbeyond
    | error e s' => exact hbeyond

/-- A bound that the looser rules keep whenever the tighter ones do. -/
theorem bounded {b b' : Bool} {kind : ParseError.Kind} (hbound : b = true → b' = true)
    (hadds : ¬ b = true → b' = true → tight.Adds loose kind) :
    Narrows tight loose (if b then .ok t s else .error ⟨kind, s.cursor.column⟩ s)
      (if b' then .ok t s else .error ⟨kind, s.cursor.column⟩ s) := by
  cases b with
  | true =>
    rw [hbound rfl]
    exact .same _
  | false =>
    cases b' with
    | true => exact .refused (hadds (by decide) rfl) (Nat.le_refl _)
    | false => exact .same _

theorem leave {r r' : EStateM.Result ParseError Reader Measured} :
    Narrows tight loose r r' → Narrows tight loose
      (match r with
        | .ok t s => .ok t s.leave
        | .error e s => .error e s.leave)
      (match r' with
        | .ok t s => .ok t s.leave
        | .error e s => .error e s.leave) := by
  intro h
  cases h with
  | same => exact .same _
  | refused hkind hbeyond =>
    refine .refused hkind ?_
    cases r' with
    | ok t s => exact hbeyond
    | error e s => exact hbeyond

end Narrows

/-! ## Steps under tighter rules -/

variable (h : tight.Tighter loose)
include h

theorem narrows_binary (op : BinaryOp) (column : Nat) (left right : Measured) (s : Reader) :
    Narrows tight loose (binary tight op column left right s)
      (binary loose op column left right s) := by
  rw [binary_apply, binary_apply]
  exact .bounded (h.height _) Rules.adds_of_height

theorem narrows_unary (sign : Sign) (column : Nat) (operand : Measured) (s : Reader) :
    Narrows tight loose (unary tight sign column operand s)
      (unary loose sign column operand s) := by
  rw [unary_apply, unary_apply]
  exact .bounded (h.height _) Rules.adds_of_height

theorem narrows_call (function : Function) (column : Nat) (argument : Measured) (s : Reader) :
    Narrows tight loose (call tight function column argument s)
      (call loose function column argument s) := by
  rw [call_apply, call_apply]
  exact .bounded (h.height _) Rules.adds_of_height

theorem narrows_of_strict {e : ParseError} {r : EStateM.Result ParseError Reader Measured}
    (he : e.kind.isOmission = true) (hbeyond : Beyond e.column r) :
    Narrows tight loose (if tight.strict then .error e s else r)
      (if loose.strict then .error e s else r) := by
  by_cases htight : tight.strict = true
  · rw [if_pos htight]
    by_cases hloose : loose.strict = true
    · rw [if_pos hloose]
      exact .same _
    · rw [if_neg hloose]
      exact .refused (Rules.adds_omission he htight hloose) hbeyond
  · rw [if_neg htight, if_neg fun hloose => htight (h.strict hloose)]
    exact .same _

theorem narrows_missingOperand (s : Reader) :
    Narrows tight loose (missingOperand tight s) (missingOperand loose s) := by
  rw [missingOperand_apply, missingOperand_apply]
  exact narrows_of_strict h rfl (Nat.le_refl _)

theorem narrows_close (inner : Measured) (s : Reader) :
    Narrows tight loose (close tight inner s) (close loose inner s) := by
  rw [close_apply, close_apply]
  by_cases hclose : Token.mark? s.tokens = some ')'
  · rw [if_pos hclose, if_pos hclose]
    exact .same _
  · rw [if_neg hclose, if_neg hclose]
    exact narrows_of_strict h rfl (Nat.le_refl _)

theorem narrows_operation {operand operand' : Step Measured} (op : BinaryOp) (column : Nat)
    (left : Measured)
    (hoperand : (Token.mark? s.tokens).any isOperatorChar = false →
      Narrows tight loose (operand s.skipSpaces) (operand' s.skipSpaces)) :
    Narrows tight loose (operation tight operand op column left s)
      (operation loose operand' op column left s) := by
  rw [operation, operation, bind_apply, bind_apply, rejectOperator_apply]
  cases hreject : (Token.mark? s.tokens).any isOperatorChar with
  | true => exact .same _
  | false =>
    refine (hoperand hreject).bind ?_ ?_
    · intro right s' _
      exact narrows_binary h op column left right s'
    · intro right
      exact .binary op column left right

/-! ## Calls under tighter rules -/

/-- The outcomes of the call stand beside each other. -/
def NarrowsAt (tight loose : Rules) (c : Call) (s : Reader) : Prop :=
  Narrows tight loose (c.run tight s) (c.run loose s)

variable {rank : Rank} {left : Measured}

omit h in
theorem narrows_chain (ih : ∀ c s', Calls tight (.chain rank) s c s' → NarrowsAt tight loose c s') :
    NarrowsAt tight loose (.chain rank) s := by
  have hoperand := ih _ _ (.operand rank s)
  rw [NarrowsAt, Call.run_operand, Call.run_operand] at hoperand
  rw [NarrowsAt, Call.run, Call.run, chain_eq, chain_eq]
  refine hoperand.bind ?_ ?_
  · intro left s' hleft
    exact ih _ _ (.tail hleft)
  · intro left
    exact .run loose (.tail rank left)

theorem narrows_tail
    (ih : ∀ c s', Calls tight (.tail rank left) s c s' → NarrowsAt tight loose c s') :
    NarrowsAt tight loose (.tail rank left) s := by
  rw [NarrowsAt, Call.run, Call.run, tail_apply, tail_apply]
  cases hop : (Token.mark? s.tokens).bind rank.operator? with
  | none => exact .same _
  | some op =>
    refine (narrows_operation h op s.nextColumn left fun hfollow => ?_).bind ?_ ?_
    · have hright := ih _ _ (.right left hop hfollow)
      rwa [NarrowsAt, Call.run_operand, Call.run_operand] at hright
    · intro node s' hnode
      exact ih _ _ (.next hop hnode)
    · intro node
      exact .run loose (.tail rank node)

theorem narrows_factor (ih : ∀ c s', Calls tight .factor s c s' → NarrowsAt tight loose c s') :
    NarrowsAt tight loose .factor s := by
  rw [NarrowsAt, Call.run, Call.run, factor_eq]
  by_cases htight : withinLimit tight.limits.nesting (s.openFactors + 1) = true
  · rw [if_pos htight, factor_eq, if_pos (h.nesting _ htight)]
    exact (ih _ _ (.enter htight)).leave
  · rw [if_neg htight]
    by_cases hloose : withinLimit loose.limits.nesting (s.openFactors + 1) = true
    · -- The looser reading goes on from here, and never comes back behind this place.
      exact .refused (Rules.adds_of_nesting htight hloose) (Forward.run loose .factor s)
    · rw [factor_eq, if_neg hloose]
      exact .same _

theorem narrows_power {base : Measured}
    (hexponent : Token.mark? s.tokens = some '^' →
      (Token.mark? s.pass.tokens).any isOperatorChar = false →
      NarrowsAt tight loose .factor s.pass.skipSpaces) :
    Narrows tight loose (power tight base s) (power loose base s) := by
  rw [power_apply, power_apply]
  by_cases hmark : Token.mark? s.tokens = some '^'
  · rw [if_pos hmark, if_pos hmark]
    exact narrows_operation h .pow s.nextColumn base (hexponent hmark)
  · rw [if_neg hmark, if_neg hmark]
    exact .same _

theorem narrows_signed (ih : ∀ c s', Calls tight .signed s c s' → NarrowsAt tight loose c s') :
    NarrowsAt tight loose .signed s := by
  rw [NarrowsAt, Call.run, Call.run, signed_apply, signed_apply]
  cases hsign : (Token.mark? s.tokens).bind Sign.ofChar? with
  | some sign =>
    refine Narrows.bind (ih _ _ (.sign hsign)) ?_ ?_
    · intro operand s' _
      exact narrows_unary h sign s.nextColumn operand s'
    · intro operand
      exact .unary sign s.nextColumn operand
  | none =>
    refine Narrows.bind (ih _ _ (.base hsign)) ?_ ?_
    · intro base s' hbase
      exact narrows_power h fun hmark hfollow => ih _ _ (.exponent hsign hbase hmark hfollow)
    · intro base
      exact .power base

theorem narrows_primary (ih : ∀ c s', Calls tight .primary s c s' → NarrowsAt tight loose c s') :
    NarrowsAt tight loose .primary s := by
  rw [NarrowsAt, Call.run, Call.run, primary_apply, primary_apply]
  split
  · next c ts htokens =>
    by_cases hgroup : c = '('
    · subst hgroup
      rw [if_pos rfl, if_pos rfl]
      refine Narrows.bind (ih _ _ (.group (by rw [htokens]; rfl))) ?_ ?_
      · intro inner s' _
        exact narrows_close h inner s'
      · intro inner
        exact .close inner
    · rw [if_neg hgroup, if_neg hgroup]
      exact narrows_missingOperand h s.skipSpaces
  · exact .same _
  · next run ts htokens =>
    cases hname : Function.ofName? (String.ofList run) with
    | some function =>
      refine Narrows.bind (ih _ _ (.argument htokens hname)) ?_ ?_
      · intro argument s' _
        exact narrows_call h function s.nextColumn argument s'
      · intro argument
        exact .call function s.nextColumn argument
    | none => exact .same _
  · exact narrows_missingOperand h s.skipSpaces

/-- By induction along the calls under the tighter rules. -/
theorem narrows_run (c : Call) (s : Reader) : NarrowsAt tight loose c s := by
  induction c, s using Calls.induction tight with
  | h c s ih =>
    cases c with
    | chain rank => exact narrows_chain ih
    | tail rank left => exact narrows_tail h ih
    | factor => exact narrows_factor h ih
    | signed => exact narrows_signed h ih
    | primary => exact narrows_primary h ih

theorem run_loose_of_run {c : Call} {s' : Reader} (hrun : c.run tight s = .ok t s') :
    c.run loose s = .ok t s' := by
  have hnarrows := narrows_run h c s
  rw [NarrowsAt, hrun] at hnarrows
  exact hnarrows.eq_of_ok

end Grammar

open Grammar in
/-- A text parses alike under tighter rules, unless they add an error; no error that is found
under the looser rules stands before that one. -/
theorem Expr.parse_narrows {tight loose : Rules} (h : tight.Tighter loose) (source : String) :
    Expr.parse tight source = Expr.parse loose source ∨
      ∃ e, Expr.parse tight source = .error e ∧ tight.Adds loose e.kind ∧
        ∀ e', Expr.parse loose source = .error e' → e.column ≤ e'.column := by
  have hnarrows : Narrows tight loose (expression tight (.ofText source))
      (expression loose (.ofText source)) := narrows_run h (.chain .sum) (.ofText source)
  generalize htight : expression tight (.ofText source) = r at hnarrows
  generalize hloose : expression loose (.ofText source) = r' at hnarrows
  cases hnarrows with
  | same =>
    left
    simp only [Expr.parse, Reader.parse, complete, Step.bind_apply, htight, hloose]
  | @refused e q _ hkind hbeyond =>
    refine .inr ⟨e, Expr.parse_eq_error_iff.2 (.inl ⟨q, htight⟩), hkind, fun e' he' => ?_⟩
    rcases Expr.parse_eq_error_iff.1 he' with ⟨q', hq'⟩ | ⟨t, s, c, hok, -, rfl⟩
    · rw [hloose] at hq'
      subst hq'
      exact hbeyond
    · rw [hloose] at hok
      subst hok
      exact hbeyond

theorem Expr.parse_loose_of_parse {tight loose : Rules} (h : tight.Tighter loose)
    {source : String} {t : Expr} (hparse : Expr.parse tight source = .ok t) :
    Expr.parse loose source = .ok t := by
  rcases Expr.parse_narrows h source with hsame | ⟨e, he, -⟩
  · rw [← hsame, hparse]
  · rw [hparse] at he
    cases he

/-- Strict parsing restricts permissive parsing, in its trees and in its errors: it only adds
errors about what is left out, and no permissive error stands before such an error. -/
theorem parse_strictly_restricts (source : String) :
    (∀ t, Expr.parse .strictly source = .ok t → Expr.parse .permissive source = .ok t) ∧
      (∀ e, Expr.parse .strictly source = .error e → e.kind.isOmission = false →
        Expr.parse .permissive source = .error e) ∧
      (∀ e e', Expr.parse .strictly source = .error e → e.kind.isOmission = true →
        Expr.parse .permissive source = .error e' → e.column ≤ e'.column) ∧
      ∀ e, Expr.parse .permissive source = .error e → e.kind.isOmission = false := by
  have hadds : ∀ kind, Rules.strictly.Adds .permissive kind → kind.isOmission = true := by
    rintro kind (⟨hkind, -⟩ | ⟨-, hlimits⟩)
    · exact hkind
    · exact absurd rfl hlimits
  have hpermissive : ∀ e, Expr.parse .permissive source = .error e →
      e.kind.isOmission = false := by
    intro e he
    rw [Bool.eq_false_iff]
    intro hkind
    cases Expr.strict_of_parse_error he hkind
  refine ⟨fun t ht => ?_, fun e he hkind => ?_, fun e e' he hkind he' => ?_, hpermissive⟩
  all_goals rcases Expr.parse_narrows Rules.strictly_tighter_permissive source with
    hsame | ⟨e₁, he₁, hadded, hcolumn⟩
  · rw [← hsame, ht]
  · rw [ht] at he₁
    cases he₁
  · rw [← hsame, he]
  · rw [he] at he₁
    cases he₁
    rw [hadds _ hadded] at hkind
    cases hkind
  · rw [hsame] at he
    rw [hpermissive e he] at hkind
    cases hkind
  · rw [he] at he₁
    cases he₁
    exact hcolumn e' he'

end Calculator
