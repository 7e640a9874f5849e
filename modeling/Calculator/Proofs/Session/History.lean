import Calculator.Proofs.Session.Watched

/-!
# Histories

What becomes of the bindings of a session under any sequence of operations:
evaluations, turns, other rules, and moves to other resolvers.
-/

namespace Calculator

variable {σ ε α : Type}

/-- A session beside a machine, with the resolver that asks the machine. -/
structure Evaluator (σ : Type) where
  ask : Resolver (StateM σ)
  session : Session
  state : σ

inductive Operation (σ : Type) where
  | evaluate (source : String)
  | parse (source : String)
  /-- Evaluates any tree. -/
  | value (t : Expr)
  /-- Takes a turn with writers that may fail. -/
  | turn (out err : Writer (StateM σ)) (showTree : Bool) (source : String)
  /-- Parses by other rules from now on. -/
  | configure (rules : Rules)
  /-- Moves the bindings to a session with another resolver and with the rules of a new one. -/
  | move (ask : Resolver (StateM σ)) (state : σ)

namespace Evaluator

/-- The evaluator after the steps. -/
def after (e : Evaluator σ) (steps : StateT Session (StateM σ) α) : Evaluator σ :=
  let ((_, session), state) := (steps.run e.session).run e.state
  { e with session, state }

/-- The evaluator after the watched steps, and their questions. -/
def watch (e : Evaluator σ) (steps : StateT Session (StateM (Watched σ)) α) :
    Evaluator σ × List Question :=
  let ((_, session), w) := (steps.run e.session).run { state := e.state }
  ({ e with session, state := w.state }, w.questions)

end Evaluator

namespace Operation

def run (e : Evaluator σ) : Operation σ → Evaluator σ
  | evaluate source => e.after (Evaluation.evaluate e.ask source).run
  | parse source => e.after (Evaluation.parse source).run
  | value t => e.after (Evaluation.value e.ask t).run
  | turn out err showTree source => e.after (Turn.run e.ask out err showTree source).run
  | configure rules => { e with session := { e.session with rules } }
  | move ask state =>
    { ask, session := { bindings := e.session.bindings, journal := e.session.journal }, state }

/-- The evaluator after the operation, and the questions in the course of it. -/
def watch (e : Evaluator σ) : Operation σ → Evaluator σ × List Question
  | evaluate source => e.watch (Watched.evaluate e.ask source).run
  | parse source => e.watch (Evaluation.parse source).run
  | value t => e.watch (Watched.value e.ask t).run
  | turn out err showTree source => e.watch (Watched.turn e.ask out err showTree source).run
  | configure rules => ((configure rules).run e, [])
  | move ask state => ((move ask state).run e, [])

def runAll (e : Evaluator σ) (ops : List (Operation σ)) : Evaluator σ :=
  ops.foldl run e

def watchAll (e : Evaluator σ) : List (Operation σ) → Evaluator σ × List Question
  | [] => (e, [])
  | op :: ops =>
    let (e', questions) := op.watch e
    let (e'', questions') := watchAll e' ops
    (e'', questions ++ questions')

end Operation

theorem Traces.watch {x' : ExceptT ε (StateT Session (StateM (Watched σ))) α}
    {x : ExceptT ε (StateT Session (StateM σ)) α} {e : Evaluator σ}
    (h : Traces x' x e.session { state := e.state }) :
    (e.watch x'.run).1 = e.after x.run ∧
      Leads e.session.bindings (e.watch x'.run).2 (e.after x.run).session.bindings := by
  obtain ⟨result, session, state, questions, hrun, hrun', hleads⟩ := h
  rw [Evaluator.watch, Evaluator.after, hrun, hrun', List.nil_append]
  exact ⟨rfl, hleads⟩

namespace Operation

theorem watch_run (e : Evaluator σ) (op : Operation σ) :
    (op.watch e).1 = op.run e ∧
      Leads e.session.bindings (op.watch e).2 (op.run e).session.bindings := by
  cases op with
  | evaluate source => exact (Traces.evaluate e.ask source _ _).watch
  | parse source => exact (Traces.parse source _ _).watch
  | value t => exact (Traces.value e.ask t _ _).watch
  | turn out err showTree source => exact (Traces.turn e.ask out err showTree source _ _).watch
  | configure rules => exact ⟨rfl, .nil _⟩
  | move ask state => exact ⟨rfl, .nil _⟩

theorem watchAll_runAll (e : Evaluator σ) (ops : List (Operation σ)) :
    (watchAll e ops).1 = runAll e ops ∧
      Leads e.session.bindings (watchAll e ops).2 (runAll e ops).session.bindings := by
  induction ops generalizing e with
  | nil => exact ⟨rfl, .nil _⟩
  | cons op ops ih =>
    obtain ⟨hop, hleads⟩ := op.watch_run e
    obtain ⟨hops, hleads'⟩ := ih (op.run e)
    have hcons : watchAll e (op :: ops) =
        ((watchAll (op.run e) ops).1, (op.watch e).2 ++ (watchAll (op.run e) ops).2) := by
      rw [← hop]
      rfl
    rw [hcons]
    exact ⟨hops, hleads.append hleads'⟩

/-- Whatever is done and whatever fails, a resolver is only asked for a name that has no value, and
a name gets a value only by the first number that comes back for it, which it keeps. -/
theorem bindings_write_once (e : Evaluator σ) (ops : List (Operation σ)) :
    let questions := (watchAll e ops).2
    let start := e.session.bindings
    let final := (runAll e ops).session.bindings
    (watchAll e ops).1 = runAll e ops ∧
      (∀ q ∈ questions, q.bindings[q.name]? = none) ∧
      (moments start questions final).Pairwise Bindings.Grows ∧
      (∀ before after, ops = before ++ after →
        Bindings.Grows (runAll e before).session.bindings final) ∧
      (∀ (name : String) (value : Float), final[name]? = some value ↔
        start[name]? = some value ∨ ∃ q ∈ questions, q.name = name ∧ q.value? = some value) ∧
      questions.Pairwise (fun q q' => q.value?.isSome → q'.name ≠ q.name) ∧
      ∀ qs q qs', questions = qs ++ q :: qs' → q.value? = none →
        (qs'.map Question.bindings ++ [final]).head? = some q.bindings := by
  obtain ⟨hrun, hleads⟩ := watchAll_runAll e ops
  refine ⟨hrun, hleads.unbound, hleads.pairwise_moments, ?_, ?_, hleads.pairwise_name_ne, ?_⟩
  · rintro before after rfl
    have happend : runAll e (before ++ after) = runAll (runAll e before) after :=
      List.foldl_append
    rw [happend]
    exact (watchAll_runAll (runAll e before) after).2.grows
  · intro name value
    exact hleads.getElem?_eq_some_iff
  · intro qs q qs' hquestions hvalue
    rw [hquestions] at hleads
    rw [hleads.head_moments_after, Question.settled_of_none hvalue]

example :
    ((watchAll ⟨Script.resolver, {}, .ofPairs [("x", "five")]⟩
      [.value (.var "x" 1), .move Script.resolver (.ofPairs [("x", "5")]), .value (.var "x" 1),
        .value (.var "x" 1)]).2.map fun q => (q.name, q.value?)) =
      [("x", none), ("x", some 5.0)] := by
  decide +kernel

end Operation

end Calculator
