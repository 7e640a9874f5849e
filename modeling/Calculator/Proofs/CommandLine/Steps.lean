import Calculator.Proofs.CommandLine.Similarity
import Calculator.Proofs.Session.Fusion

/-!
# Steps beside a machine

Where the steps of a session lead, beside a machine with states of any kind that answers
questions and takes what is written.
-/

namespace Calculator

variable {τ ε α : Type} {s s' s'' : Session} {t t' t'' : τ}

namespace Arrives

theorem attempt {x : Evaluation (StateM τ) α} {r : Except EvalError α}
    (h : Arrives x s t r s' t') : Arrives (Turn.attempt x) s t (.ok r) s' t' := by
  rw [Arrives, Turn.attempt, ExceptT.run_lift, StateT.run_map, StateT.run_map, h]
  rfl

theorem outside {x : StateM τ (Except Fault α)} {r : Except Fault α} (h : x.run t = (r, t')) :
    Arrives (Turn.outside x) s t r s t' :=
  congrArg (fun p : Except Fault α × τ => ((p.1, s), p.2)) h

theorem parse (source : String) (s : Session) (t : τ) :
    Arrives (Evaluation.parse source) s t ((Expr.parse s.rules source).mapError .parse)
      (s.parse source).2 t := by
  rw [Arrives, Evaluation.run_parse]
  rfl

/-- Similar steps lead to the same, and to related states. -/
theorem similar {υ : Type} {R : τ → υ → Prop} {u : υ}
    {x : ExceptT ε (StateT Session (StateM τ)) α} {y : ExceptT ε (StateT Session (StateM υ)) α}
    (hsimilar : ((Similarity.machines R).steps ε).rel x y) (htu : R t u) {r : Except ε α} {u' : υ}
    (h : Arrives y s u r s' u') : ∃ t', Arrives x s t r s' t' ∧ R t' u' := by
  obtain ⟨hresult, hend⟩ := Similarity.runs hsimilar s htu
  rw [h] at hresult hend
  exact ⟨_, Prod.ext hresult rfl, hend⟩

/-! ## Evaluations -/

variable {source : String} {expr : Expr}

theorem evaluate_of_error {ask : Resolver (StateM τ)} {e : ParseError}
    (h : Expr.parse s.rules source = .error e) :
    Arrives (Evaluation.evaluate ask source) s t (.error (.parse e)) (s.parse source).2 t := by
  have hparse := Arrives.parse source s t
  rw [h] at hparse
  exact hparse.stop

theorem evaluate_iff_of_ok {ask : Resolver (StateM τ)} {r : Except EvalError Float}
    (h : Expr.parse s.rules source = .ok expr) :
    Arrives (Evaluation.evaluate ask source) s t r s' t' ↔
      Arrives (Evaluation.value ask expr) (s.parse source).2 t r s' t' := by
  have hparse := Arrives.parse source s t
  rw [h] at hparse
  exact hparse.bind_iff

/-! ## Turns -/

variable {ask : Resolver (StateM τ)} {out err : Writer (StateM τ)}

/-- A write with an answer behind it, which a fault of the write replaces. -/
theorem write {step : StateM τ (Except Fault Unit)} {written : Except Fault Unit}
    (h : step.run t = (written, t')) (answer : Bool) :
    Arrives (do Turn.outside step; return answer) s t (written.map fun _ => answer) s t' := by
  cases written with
  | error fault => exact (outside h).stop
  | ok u => exact (outside h).bind (pure answer s t')

/-- What a turn does with an error. -/
theorem fail {e : EvalError} {written : Except Fault Unit}
    (h : (err (Report.error source e)).run t = (written, t')) :
    Arrives (Turn.fail err source e) s t (written.map fun _ => false) (s.note (.failed source e))
      t' := by
  have hnote : Arrives (modify (Session.note (.failed source e)) : Faulty (StateM τ) Unit) s t
    (.ok ()) (s.note (.failed source e)) t := rfl
  exact hnote.bind (write h false)

variable {r : Except Fault Bool}

theorem turn_of_error {e : ParseError} {showTree : Bool} (h : Expr.parse s.rules source = .error e)
    (hfail : Arrives (Turn.fail err source (.parse e)) (s.parse source).2 t r s' t') :
    Arrives (Turn.run ask out err showTree source) s t r s' t' := by
  have hparse := (Arrives.parse source s t).attempt
  rw [h] at hparse
  exact hparse.bind hfail

/-- Without its tree a text is evaluated at once. -/
theorem turn_of_hidden (h : Expr.parse s.rules source = .ok expr)
    (hvalue : Arrives (Turn.attempt (Evaluation.value ask expr) >>= Turn.conclude out err source)
      (s.parse source).2 t r s' t') :
    Arrives (Turn.run ask out err false source) s t r s' t' := by
  have hparse := (Arrives.parse source s t).attempt
  rw [h] at hparse
  exact hparse.bind hvalue

/-- With its tree a text is evaluated behind the line that shows it. -/
theorem turn_of_shown (h : Expr.parse s.rules source = .ok expr)
    (hrest : Arrives (Turn.outside (out (Report.tree expr)) >>= fun _ =>
      Turn.attempt (Evaluation.value ask expr) >>= Turn.conclude out err source)
      (s.parse source).2 t r s' t') :
    Arrives (Turn.run ask out err true source) s t r s' t' := by
  have hparse := (Arrives.parse source s t).attempt
  rw [h] at hparse
  exact hparse.bind hrest

end Arrives

end Calculator
