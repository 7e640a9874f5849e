import Calculator.Proofs.Session.Inquiry
import Calculator.Proofs.Session.Questions
import Calculator.Session.Stage

/-!
# Watched sessions

A watched session does the same as a session and keeps the questions to the
resolver, each with the bindings at the time. In every step the questions lead
from the bindings before it to those after it, also where a resolver or a writer
fails.
-/

namespace Calculator

variable {σ : Type}

/-- A machine, and the questions to it so far. -/
structure Watched (σ : Type) where
  state : σ
  questions : List Question := []

namespace Watched

/-- A step of the machine that is no question. -/
def beside {α : Type} (step : StateM σ α) : StateM (Watched σ) α := fun w =>
  let (a, state) := step w.state
  (a, { w with state })

/-- Asks the machine and keeps the question. -/
def resolver (ask : Resolver (StateM σ)) (bindings : Bindings) :
    Resolver (StateM (Watched σ)) := fun name w =>
  let (response, state) := ask name w.state
  (response, { state, questions := w.questions ++ [⟨bindings, name, response⟩] })

variable (ask : Resolver (StateM σ))

def lookup (name : String) (column : Nat) : Evaluation (StateM (Watched σ)) Float := do
  Evaluation.lookup (resolver ask (← get).bindings) name column

/-- The value of a tree. -/
def value : Expr → Evaluation (StateM (Watched σ)) Float
  | .number value _ => return value
  | .var name column => lookup ask name column
  | .unary sign operand _ => return sign.apply (← value operand)
  | .binary op left right _ => do
      let x ← value left
      let y ← value right
      return op.apply x y
  | .call function argument _ => return function.apply (← value argument)

/-- The value of a text. -/
def evaluate (source : String) : Evaluation (StateM (Watched σ)) Float := do
  value ask (← Evaluation.parse source)

def turn (out err : Writer (StateM σ)) (showTree : Bool) (source : String) :
    Faulty (StateM (Watched σ)) Bool := do
  match ← Turn.attempt (Evaluation.parse source) with
  | .error e => Turn.fail (beside ∘ err) source e
  | .ok expr =>
    if showTree then Turn.outside (beside (out (Report.tree expr)))
    match ← Turn.attempt (value ask expr) with
    | .ok value =>
      Turn.outside (beside (out (Report.value value)))
      return true
    | .error e => Turn.fail (beside ∘ err) source e

end Watched

/-! ## Watched steps -/

namespace Evaluation

/-- What comes of a response to the question for a name. -/
def concluded (name : String) (column : Nat) (session : Session) :
    Except Fault String → Except EvalError Float × Session
  | .error fault => (.error (.unresolved name fault.message column), session)
  | .ok answer =>
    match answerValue? answer with
    | none => (.error (.invalidValue name answer column), session)
    | some value => (.ok value, session.bind name value)

theorem bindings_concluded (name : String) (column : Nat) (session : Session)
    (response : Except Fault String) :
    (concluded name column session response).2.bindings =
      Question.settled ⟨session.bindings, name, response⟩ := by
  cases response with
  | error fault => rfl
  | ok answer =>
    have hvalue : Question.value? ⟨session.bindings, name, .ok answer⟩ = answerValue? answer := rfl
    rw [concluded, Question.settled, hvalue]
    cases answerValue? answer <;> rfl

theorem run_resolve {m : Type → Type} [Monad m] [LawfulMonad m] (ask : Resolver m)
    (name : String) (column : Nat) (session : Session) :
    (resolve ask name column).run.run session =
      concluded name column (session.note (.resolving name)) <$> ask name := by
  rw [resolve, Interruptible.run_bind, note, Interruptible.run_modify, pure_bind]
  dsimp only
  rw [Interruptible.run_bind, Interruptible.run_lift, bind_map_left, map_eq_pure_bind]
  refine congrArg _ (funext fun response => ?_)
  cases response with
  | error fault => rfl
  | ok answer =>
    dsimp only [concluded]
    cases answerValue? answer with
    | none => rfl
    | some value =>
      dsimp only
      rw [Interruptible.run_bind, Interruptible.run_modify, pure_bind]
      rfl

end Evaluation

variable {ε α β : Type}

/-- The watched step does the same as the step, and its questions lead from the bindings before
it to those after it. -/
def Traces (x' : ExceptT ε (StateT Session (StateM (Watched σ))) α)
    (x : ExceptT ε (StateT Session (StateM σ)) α) (session : Session) (w : Watched σ) : Prop :=
  ∃ result session' state questions,
    (x.run.run session).run w.state = ((result, session'), state) ∧
    (x'.run.run session).run w =
      ((result, session'), { state, questions := w.questions ++ questions }) ∧
    Leads session.bindings questions session'.bindings

namespace Traces

variable {x' : ExceptT ε (StateT Session (StateM (Watched σ))) α}
  {x : ExceptT ε (StateT Session (StateM σ)) α}
  {f' : α → ExceptT ε (StateT Session (StateM (Watched σ))) β}
  {f : α → ExceptT ε (StateT Session (StateM σ)) β} {session : Session} {w : Watched σ}

/-- A step without a question that leaves the bindings as they are. -/
theorem quiet {result : Except ε α} {session' : Session} {state : σ}
    (hrun : (x.run.run session).run w.state = ((result, session'), state))
    (hrun' : (x'.run.run session).run w = ((result, session'), { w with state }))
    (hbindings : session'.bindings = session.bindings) : Traces x' x session w := by
  refine ⟨result, session', state, [], hrun, ?_, ?_⟩
  · rw [List.append_nil]
    exact hrun'
  · rw [hbindings]
    exact .nil _

theorem pure (a : α) (session : Session) (w : Watched σ) :
    Traces (Pure.pure a : ExceptT ε _ α) (Pure.pure a) session w :=
  quiet rfl rfl rfl

theorem throw (e : ε) (session : Session) (w : Watched σ) :
    Traces (MonadExcept.throw e : ExceptT ε _ α) (MonadExcept.throw e) session w :=
  quiet rfl rfl rfl

theorem note (event : Event) (session : Session) (w : Watched σ) :
    Traces (modify (Session.note event) : ExceptT ε _ Unit) (modify (Session.note event)) session
      w :=
  quiet rfl rfl rfl

theorem bind (hx : Traces x' x session w) (hf : ∀ a session w, Traces (f' a) (f a) session w) :
    Traces (x' >>= f') (x >>= f) session w := by
  obtain ⟨result, session₁, state, questions, hrun, hrun', hleads⟩ := hx
  cases result with
  | error e =>
    refine ⟨.error e, session₁, state, questions, ?_, ?_, hleads⟩
    · rw [ExceptT.run_bind, StateT.run_bind, StateT.run_bind, hrun]
      rfl
    · rw [ExceptT.run_bind, StateT.run_bind, StateT.run_bind, hrun']
      rfl
  | ok a =>
    obtain ⟨result, session₂, state₂, questions', hrun₂, hrun₂', hleads'⟩ :=
      hf a session₁ { state, questions := w.questions ++ questions }
    refine ⟨result, session₂, state₂, questions ++ questions', ?_, ?_, hleads.append hleads'⟩
    · rw [ExceptT.run_bind, StateT.run_bind, StateT.run_bind, hrun]
      exact hrun₂
    · rw [ExceptT.run_bind, StateT.run_bind, StateT.run_bind, hrun', ← List.append_assoc]
      exact hrun₂'

theorem watched_get {f' : Session → ExceptT ε (StateT Session (StateM (Watched σ))) α}
    (h : Traces (f' session) x session w) : Traces (get >>= f') x session w := h

theorem get {f : Session → ExceptT ε (StateT Session (StateM σ)) α}
    (h : Traces x' (f session) session w) : Traces x' (MonadState.get >>= f) session w := h

theorem attempt {x' : Evaluation (StateM (Watched σ)) α} {x : Evaluation (StateM σ) α}
    (h : Traces x' x session w) : Traces (Turn.attempt x') (Turn.attempt x) session w := by
  obtain ⟨result, session', state, questions, hrun, hrun', hleads⟩ := h
  refine ⟨.ok result, session', state, questions, ?_, ?_, hleads⟩
  · rw [Turn.attempt, ExceptT.run_lift, StateT.run_map, StateT.run_map, hrun]
    rfl
  · rw [Turn.attempt, ExceptT.run_lift, StateT.run_map, StateT.run_map, hrun']
    rfl

theorem outside (step : StateM σ (Except Fault α)) (session : Session) (w : Watched σ) :
    Traces (Turn.outside (Watched.beside step)) (Turn.outside step) session w :=
  quiet rfl rfl rfl

theorem fail (err : Writer (StateM σ)) (source : String) (e : EvalError) (session : Session)
    (w : Watched σ) :
    Traces (Turn.fail (Watched.beside ∘ err) source e) (Turn.fail err source e) session w :=
  (note _ _ _).bind fun _ _ _ => (outside _ _ _).bind fun _ => pure false

theorem resolve (ask : Resolver (StateM σ)) {name : String} (column : Nat) (w : Watched σ)
    (hunbound : session.bindings[name]? = none) :
    Traces (Evaluation.resolve (Watched.resolver ask session.bindings) name column)
      (Evaluation.resolve ask name column) session w := by
  have hrun : ∀ {τ : Type} (ask : Resolver (StateM τ)) (st : τ),
      ((Evaluation.resolve ask name column).run.run session).run st =
        (Evaluation.concluded name column (session.note (.resolving name)) (ask name st).1,
          (ask name st).2) := by
    intro τ ask st
    rw [Evaluation.run_resolve]
    rfl
  have hleads : Leads session.bindings [⟨session.bindings, name, (ask name w.state).1⟩]
      (Evaluation.concluded name column (session.note (.resolving name))
        (ask name w.state).1).2.bindings := by
    rw [Evaluation.bindings_concluded]
    exact .single (q := ⟨session.bindings, name, _⟩) hunbound
  exact ⟨_, _, _, _, hrun ask w.state, hrun (Watched.resolver ask session.bindings) w, hleads⟩

/-- A variable is asked for only if it has no value. -/
theorem lookup (ask : Resolver (StateM σ)) (name : String) (column : Nat) (session : Session)
    (w : Watched σ) :
    Traces (Watched.lookup ask name column) (Evaluation.lookup ask name column) session w := by
  refine watched_get (watched_get (get ?_))
  cases hname : session.bindings[name]? with
  | some value => exact (note _ _ _).bind fun _ => pure value
  | none => exact resolve ask column w hname

theorem value (ask : Resolver (StateM σ)) (t : Expr) (session : Session) (w : Watched σ) :
    Traces (Watched.value ask t) (Evaluation.value ask t) session w := by
  induction t generalizing session w with
  | number value column => exact pure value session w
  | var name column => exact lookup ask name column session w
  | unary sign operand column ih => exact (ih _ _).bind fun _ => pure _
  | binary op left right column ihl ihr =>
    exact (ihl _ _).bind fun _ _ _ => (ihr _ _).bind fun _ => pure _
  | call function argument column ih => exact (ih _ _).bind fun _ => pure _

theorem parse (source : String) (session : Session) (w : Watched σ) :
    Traces (Evaluation.parse source : Evaluation (StateM (Watched σ)) Expr)
      (Evaluation.parse source) session w := by
  have hparse : Traces
      (modifyGet (Session.parse source) : Evaluation (StateM (Watched σ)) (Except ParseError Expr))
      (modifyGet (Session.parse source)) session w := quiet rfl rfl rfl
  refine hparse.bind fun result session w => ?_
  cases result with
  | ok expr => exact pure expr session w
  | error e => exact throw (EvalError.parse e) session w

theorem evaluate (ask : Resolver (StateM σ)) (source : String) (session : Session)
    (w : Watched σ) :
    Traces (Watched.evaluate ask source) (Evaluation.evaluate ask source) session w :=
  (parse source _ _).bind fun t => value ask t

theorem result (out err : Writer (StateM σ)) (source : String) (r : Except EvalError Float)
    (session : Session) (w : Watched σ) :
    Traces
      (match r with
        | .ok value => do
          Turn.outside (Watched.beside (out (Report.value value)))
          return true
        | .error e => Turn.fail (Watched.beside ∘ err) source e)
      (match r with
        | .ok value => do
          Turn.outside (out (Report.value value))
          return true
        | .error e => Turn.fail err source e) session w := by
  cases r with
  | ok value => exact (outside _ _ _).bind fun _ => pure true
  | error e => exact fail err source e session w

theorem turn (ask : Resolver (StateM σ)) (out err : Writer (StateM σ)) (showTree : Bool)
    (source : String) (session : Session) (w : Watched σ) :
    Traces (Watched.turn ask out err showTree source) (Turn.run ask out err showTree source)
      session w := by
  refine (parse source _ _).attempt.bind fun result session w => ?_
  cases result with
  | error e => exact fail err source e session w
  | ok expr =>
    cases showTree with
    | false => exact (value ask expr _ _).attempt.bind (result out err source)
    | true =>
      exact (outside _ _ _).bind fun _ _ _ =>
        (value ask expr _ _).attempt.bind (result out err source)

end Traces

end Calculator
