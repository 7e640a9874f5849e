import Calculator.Proofs.Grammar.Splicing
import Calculator.Proofs.Session.Fusion
import Calculator.Proofs.Session.Resolution

/-!
# Composition

The value of a text with another one in the place of a variable is the value of
the first where the variable has the value of the second. Nothing is asked for
if the other variables have values.
-/

namespace Calculator

variable {σ : Type}

namespace Inquiry

/-- A tree that has a value is computed without a question. -/
theorem arrives_value {b : Bindings} {t : Expr} {y : Float} (h : t.value? b = some y)
    (ask : Resolver (StateM σ)) (st : σ) : Arrives (value ask t) b st (.ok y) b st := by
  induction t generalizing y with
  | number value column =>
    cases h
    exact .pure value b st
  | var name column => exact .lookup_bound column h
  | unary sign operand column ih =>
    obtain ⟨x, hx, rfl⟩ := Option.map_eq_some_iff.1 h
    exact (ih hx).bind (.pure _ b st)
  | binary op left right column ihl ihr =>
    obtain ⟨x, hx, h⟩ := Option.bind_eq_some_iff.1 h
    obtain ⟨z, hz, h⟩ := Option.bind_eq_some_iff.1 h
    cases h
    exact (ihl hx).bind ((ihr hz).bind (.pure _ b st))
  | call function argument column ih =>
    obtain ⟨x, hx, rfl⟩ := Option.map_eq_some_iff.1 h
    exact (ih hx).bind (.pure _ b st)

end Inquiry

namespace Evaluation

/-- The result of evaluating a text beside a machine, the bindings after it, and the state in
which it leaves the machine. -/
def outcome (ask : Resolver (StateM σ)) (source : String) (session : Session) (st : σ) :
    (Except EvalError Float × Bindings) × σ :=
  (shown <$> (evaluate ask source).run.run session).run st

theorem outcome_eq {ask : Resolver (StateM σ)} {source : String} {session : Session} {t : Expr}
    {y : Float} (hparse : Expr.parse session.rules source = .ok t)
    (hvalue : t.value? session.bindings = some y) (st : σ) :
    outcome ask source session st = ((.ok y, session.bindings), st) := by
  rw [outcome, evaluate_of_parse_ok hparse]
  exact Inquiry.arrives_value hvalue ask st

end Evaluation

/-- A text that parses strictly has the same tree by the rules of every session. -/
theorem Expr.parse_of_parse_strictly {source : String} {t : Expr}
    (h : Expr.parse .strictly source = .ok t) (strict : Bool) :
    Expr.parse { strict } source = .ok t := by
  cases strict with
  | true => exact h
  | false => exact Expr.parse_loose_of_parse Rules.strictly_tighter_permissive h

open Evaluation in
/-- A text may be written for a variable of another, unless the whole is too deeply nested. Its
tree then stands for the variable in the tree of the whole, and the whole has the value of the
other text in a session where the variable has the value of the first. If all other variables are
bound, nothing is asked for. -/
theorem evaluate_splice {x e source : String} {t u : Expr} (hx : Function.ofName? x = none)
    (ht : Expr.parse .strictly source = .ok t) (hu : Expr.parse .strictly e = .ok u)
    (hnested : ∀ column,
      Expr.parse .strictly (splice x e source) ≠ .error ⟨.tooDeeplyNested, column⟩) :
    (∃ t', Expr.parse .strictly (splice x e source) = .ok t' ∧
      t'.bare = (Expr.substitute x u t).bare) ∧
    ∀ {σ : Type} (ask : Resolver (StateM σ)) (st : σ) (strict : Bool) (journal : Array Event)
        (bindings : Bindings) (v : Float),
      (∀ name ∈ u.occurrences.map Prod.fst, bindings.contains name = true) →
      (∀ name ∈ t.occurrences.map Prod.fst, name ≠ x → bindings.contains name = true) →
      (outcome ask e ⟨bindings, { strict }, journal⟩ st).1.1 = .ok v →
      ∃ y,
        outcome ask (splice x e source) ⟨bindings, { strict }, journal⟩ st =
          ((.ok y, bindings), st) ∧
        outcome ask source ⟨bindings.insert x v, { strict }, journal⟩ st =
          ((.ok y, bindings.insert x v), st) := by
  obtain ⟨t', ht', hbare⟩ := Expr.exists_parse_splice hx ht hu hnested
  refine ⟨⟨t', ht', hbare⟩, ?_⟩
  intro σ ask st strict journal bindings v hboundu hboundt hv
  obtain ⟨w, hw⟩ := Expr.exists_value?_of_bound hboundu
  have hvw : w = v := by
    rw [outcome_eq (Expr.parse_of_parse_strictly hu strict) hw] at hv
    exact Except.ok.inj hv
  subst hvw
  have hbound : ∀ name ∈ t.occurrences.map Prod.fst,
      (bindings.insert x w).contains name = true := by
    intro name hname
    rw [Std.ExtTreeMap.contains_insert]
    by_cases hnamex : name = x
    · simp [hnamex]
    · simp [hboundt name hname hnamex]
  obtain ⟨y, hy⟩ := Expr.exists_value?_of_bound hbound
  have hy' : t'.value? bindings = some y := by
    rw [Expr.value?_eq_of_bare_eq hbare, Expr.value?_substitute x hw, hy]
  exact ⟨y, outcome_eq (Expr.parse_of_parse_strictly ht' strict) hy' st,
    outcome_eq (Expr.parse_of_parse_strictly ht strict) hy st⟩

/-- Values for the variables of the difference `a - b`. -/
def differenceBindings : Bindings :=
  .ofPairs [("a", 5.0), ("b", 1.0)]

open Evaluation in
theorem evaluate_splice_difference :
    ∃ y,
      outcome Script.resolver (splice "x" "a - b" "x * x - sqrt x")
          ⟨differenceBindings, { strict := true }, #[]⟩ { answers := ∅ } =
        ((.ok y, differenceBindings), { answers := ∅ }) ∧
      outcome Script.resolver "x * x - sqrt x"
          ⟨differenceBindings.insert "x" (5.0 - 1.0), { strict := true }, #[]⟩ { answers := ∅ } =
        ((.ok y, differenceBindings.insert "x" (5.0 - 1.0)), { answers := ∅ }) := by
  have hsource : Expr.parse .strictly "x * x - sqrt x" =
      .ok (.binary .sub (.binary .mul (.var "x" 1) (.var "x" 5) 3)
        (.call .sqrt (.var "x" 14) 9) 7) := by decide +kernel
  have he : Expr.parse .strictly "a - b" = .ok (.binary .sub (.var "a" 1) (.var "b" 5) 3) := by
    decide +kernel
  have hok : (Expr.parse .strictly (splice "x" "a - b" "x * x - sqrt x")).isOk = true := by
    decide +kernel
  refine (evaluate_splice (by decide) hsource he ?_).2 Script.resolver _ true #[] _ _ ?_ ?_ ?_
  · intro column h
    rw [h] at hok
    cases hok
  · intro name hname
    simp [Expr.occurrences] at hname
    rcases hname with rfl | rfl <;> simp [differenceBindings, Bindings.ofPairs]
  · intro name hname hne
    simp [Expr.occurrences] at hname
    exact absurd hname hne
  · rw [outcome_eq he]
    rfl

end Calculator
