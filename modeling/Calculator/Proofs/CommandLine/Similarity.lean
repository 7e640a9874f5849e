import Calculator.CommandLine.Program

/-!
# Similar runs

The program is the same for every monad and every console. A relation between the
computations of two monads that sequencing keeps holds between two runs of the program as
soon as it holds between what the two consoles do.
-/

namespace Calculator

namespace Turn

variable {m : Type → Type} [Monad m]

/-- What a turn does with the outcome of an evaluation. -/
def conclude (out err : Writer m) (source : String) : Except EvalError Float → Faulty m Bool
  | .ok value => do
    outside (out (Report.value value))
    return true
  | .error e => fail err source e

/-- What a dialogue does behind its prompt. -/
def hear (console : Console m) (err : Writer m) (showTree : Bool) : Faulty m Bool := do
  match ← outside console.readLine with
  | none => return false
  | some line =>
    let source := String.ofList (Text.trim line.toList)
    if isFarewell source then return false
    let _ ← run console.resolver console.write err showTree source
    return true

theorem dialogue_eq (console : Console m) (err : Writer m) (showTree : Bool) :
    dialogue console err showTree =
      outside (console.prompt "> ") >>= fun _ => hear console err showTree := rfl

end Turn

/-- A relation between the computations of two monads that sequencing keeps. -/
structure Similarity (m n : Type → Type) [Monad m] [Monad n] where
  rel : {α : Type} → m α → n α → Prop
  pure : ∀ {α : Type} (a : α), rel (Pure.pure a) (Pure.pure a)
  bind : ∀ {α β : Type} {x : m α} {y : n α} {f : α → m β} {g : α → n β},
    rel x y → (∀ a, rel (f a) (g a)) → rel (x >>= f) (y >>= g)

namespace Similarity

variable {m n : Type → Type} [Monad m] [Monad n]

/-- The same results from the same states. -/
def withState (R : Similarity m n) (S : Type) : Similarity (StateT S m) (StateT S n) where
  rel x y := ∀ s, R.rel (x.run s) (y.run s)
  pure a s := R.pure (a, s)
  bind hx hf s := R.bind (hx s) fun p => hf p.1 p.2

/-- The same results or the same errors. -/
def withError (R : Similarity m n) (ε : Type) : Similarity (ExceptT ε m) (ExceptT ε n) where
  rel x y := R.rel x.run y.run
  pure a := R.pure (Except.ok a)
  bind hx hf := R.bind hx fun
    | .ok a => hf a
    | .error e => R.pure (Except.error e)

/-- Beside related states the two machines give the same and come to related states. -/
def machines {σ τ : Type} (R : σ → τ → Prop) : Similarity (StateM σ) (StateM τ) where
  rel x y := ∀ ⦃s t⦄, R s t → (x.run s).1 = (y.run t).1 ∧ R (x.run s).2 (y.run t).2
  pure _ _ _ h := ⟨rfl, h⟩
  bind {_ _ x y f g} hx hf s t h := by
    obtain ⟨ha, hs⟩ := hx h
    show ((f (x.run s).1).run (x.run s).2).1 = ((g (y.run t).1).run (y.run t).2).1 ∧
      R ((f (x.run s).1).run (x.run s).2).2 ((g (y.run t).1).run (y.run t).2).2
    rw [← ha]
    exact hf _ hs

/-- Similar steps of a session. -/
abbrev steps (R : Similarity m n) (ε : Type) :
    Similarity (ExceptT ε (StateT Session m)) (ExceptT ε (StateT Session n)) :=
  (R.withState Session).withError ε

variable {R : Similarity m n} {α β ε : Type}

theorem of_runs {x : ExceptT ε (StateT Session m) α} {y : ExceptT ε (StateT Session n) α}
    (h : ∀ s, R.rel (x.run.run s) (y.run.run s)) : (R.steps ε).rel x y := h

theorem runs {x : ExceptT ε (StateT Session m) α} {y : ExceptT ε (StateT Session n) α}
    (h : (R.steps ε).rel x y) (s : Session) : R.rel (x.run.run s) (y.run.run s) := h s

theorem throw (e : ε) : (R.steps ε).rel (α := α) (MonadExcept.throw e) (MonadExcept.throw e) :=
  of_runs fun s => R.pure (Except.error e, s)

theorem modifyGet (f : Session → α × Session) :
    (R.steps ε).rel (modifyGet f) (modifyGet f) :=
  of_runs fun s => R.bind (R.pure (f s)) fun p => R.pure (Except.ok p.1, p.2)

theorem modify (f : Session → Session) : (R.steps ε).rel (modify f) (modify f) :=
  modifyGet fun s => ((), f s)

theorem get : (R.steps ε).rel get get :=
  of_runs fun s => R.bind (R.pure (s, s)) fun p => R.pure (Except.ok p.1, p.2)

theorem lift {x : m α} {y : n α} (h : R.rel x y) : (R.steps ε).rel (liftM x) (liftM y) :=
  of_runs fun s => R.bind (R.bind h fun a => R.pure (a, s)) fun p => R.pure (Except.ok p.1, p.2)

/-! ## Evaluation -/

section Evaluation

variable {ask : Resolver m} {ask' : Resolver n} (hask : ∀ name, R.rel (ask name) (ask' name))

include hask

theorem resolve (name : String) (column : Nat) :
    (R.steps EvalError).rel (Evaluation.resolve ask name column)
      (Evaluation.resolve ask' name column) := by
  refine (R.steps _).bind (modify _) fun _ => (R.steps _).bind (lift (hask name)) fun answer => ?_
  cases answer with
  | error fault => exact throw _
  | ok answer =>
    dsimp only
    cases answerValue? answer with
    | none => exact throw _
    | some value => exact (R.steps _).bind (modify _) fun _ => (R.steps _).pure value

theorem lookup (name : String) (column : Nat) :
    (R.steps EvalError).rel (Evaluation.lookup ask name column)
      (Evaluation.lookup ask' name column) := by
  refine (R.steps _).bind get fun s => ?_
  cases s.bindings[name]? with
  | none => exact resolve hask name column
  | some value => exact (R.steps _).bind (modify _) fun _ => (R.steps _).pure value

theorem value (t : Expr) :
    (R.steps EvalError).rel (Evaluation.value ask t) (Evaluation.value ask' t) := by
  induction t with
  | number value column => exact (R.steps _).pure value
  | var name column => exact lookup hask name column
  | unary sign operand column ih => exact (R.steps _).bind ih fun _ => (R.steps _).pure _
  | binary op left right column ihl ihr =>
    exact (R.steps _).bind ihl fun _ => (R.steps _).bind ihr fun _ => (R.steps _).pure _
  | call function argument column ih => exact (R.steps _).bind ih fun _ => (R.steps _).pure _

end Evaluation

theorem parse (source : String) :
    (R.steps EvalError).rel (Evaluation.parse source) (Evaluation.parse source) := by
  refine (R.steps _).bind (modifyGet _) fun r => ?_
  cases r with
  | ok expr => exact (R.steps _).pure expr
  | error e => exact throw _

/-! ## Turns -/

theorem outside {x : m (Except Fault α)} {y : n (Except Fault α)} (h : R.rel x y) :
    (R.steps Fault).rel (Turn.outside x) (Turn.outside y) :=
  of_runs fun s => R.bind h fun r => R.pure (r, s)

theorem attempt {x : Evaluation m α} {y : Evaluation n α} (h : (R.steps EvalError).rel x y) :
    (R.steps Fault).rel (Turn.attempt x) (Turn.attempt y) :=
  of_runs fun s => R.bind (runs h s) fun p => R.pure (Except.ok p.1, p.2)

/-- The two consoles do similar things. -/
structure Consoles (R : Similarity m n) (console : Console m) (console' : Console n) : Prop where
  write : ∀ text, R.rel (console.write text) (console'.write text)
  readLine : R.rel console.readLine console'.readLine

variable {console : Console m} {console' : Console n} {err : Writer m} {err' : Writer n}

theorem Consoles.resolver (h : R.Consoles console console') (name : String) :
    R.rel (console.resolver name) (console'.resolver name) := by
  have hwrite : (R.withError Fault).rel (ExceptT.mk (console.write (Console.question name)))
      (ExceptT.mk (console'.write (Console.question name))) := h.write _
  have hread : (R.withError Fault).rel (ExceptT.mk console.readLine)
      (ExceptT.mk console'.readLine) := h.readLine
  refine (R.withError Fault).bind hwrite fun _ => (R.withError Fault).bind hread fun line => ?_
  cases line with
  | none => exact R.pure (Except.error Fault.inputClosed)
  | some answer => exact R.pure (Except.ok answer)

section Turns

variable (h : R.Consoles console console') (herr : ∀ text, R.rel (err text) (err' text))

include herr

theorem fail (source : String) (e : EvalError) :
    (R.steps Fault).rel (Turn.fail err source e) (Turn.fail err' source e) :=
  (R.steps _).bind (modify _) fun _ =>
    (R.steps _).bind (outside (herr _)) fun _ => (R.steps _).pure false

include h

theorem conclude (source : String) (r : Except EvalError Float) :
    (R.steps Fault).rel (Turn.conclude console.write err source r)
      (Turn.conclude console'.write err' source r) := by
  cases r with
  | error e => exact fail herr source e
  | ok x => exact (R.steps _).bind (outside (h.write _)) fun _ => (R.steps _).pure true

theorem turn (showTree : Bool) (source : String) :
    (R.steps Fault).rel (Turn.run console.resolver console.write err showTree source)
      (Turn.run console'.resolver console'.write err' showTree source) := by
  refine (R.steps _).bind (attempt (parse source)) fun r => ?_
  cases r with
  | error e => exact fail herr source e
  | ok expr =>
    have hvalue := (R.steps _).bind (attempt (value h.resolver expr)) (conclude h herr source)
    cases showTree with
    | false => exact hvalue
    | true => exact (R.steps _).bind (outside (h.write _)) fun _ => hvalue

theorem hear (showTree : Bool) :
    (R.steps Fault).rel (Turn.hear console err showTree) (Turn.hear console' err' showTree) := by
  refine (R.steps _).bind (outside h.readLine) fun line => ?_
  cases line with
  | none => exact (R.steps _).pure false
  | some line =>
    dsimp only
    split
    · exact (R.steps _).pure false
    · exact (R.steps _).bind (turn h herr showTree _) fun _ => (R.steps _).pure true

theorem dialogue (showTree : Bool) :
    (R.steps Fault).rel (Turn.dialogue console err showTree)
      (Turn.dialogue console' err' showTree) :=
  (R.steps _).bind (outside (h.write _)) fun _ => hear h herr showTree

/-! ## The program -/

theorem converse (showTree : Bool) (count : Nat) :
    (R.steps Fault).rel (Program.converse console err showTree count)
      (Program.converse console' err' showTree count) := by
  induction count with
  | zero => exact (R.steps _).pure ()
  | succ count ih =>
    refine (R.steps _).bind (dialogue h herr showTree) fun goesOn => ?_
    cases goesOn with
    | false => exact (R.steps _).pure ()
    | true => exact ih

variable {turns : Bool → Faulty m Unit} {turns' : Bool → Faulty n Unit}
  (hturns : ∀ showTree, (R.steps Fault).rel (turns showTree) (turns' showTree))

include hturns

theorem calculate (o : Options) :
    (R.steps Fault).rel (Program.calculate console err turns o)
      (Program.calculate console' err' turns' o) := by
  rw [Program.calculate, Program.calculate]
  cases o.expression? with
  | some source => exact (R.steps _).bind (turn h herr _ source) fun _ => (R.steps _).pure _
  | none =>
    refine (R.steps _).bind (outside (h.write _)) fun _ => ?_
    exact (R.steps _).bind (hturns _) fun _ => (R.steps _).pure 0

/-- Runs of the program on similar consoles are similar. -/
theorem run [LawfulMonad m] [LawfulMonad n] (program : String) (args : List String) :
    R.rel (Program.run program console err turns args)
      (Program.run program console' err' turns' args) := by
  rw [Program.run, Program.run]
  cases Request.ofArguments args with
  | error e => exact R.bind (herr _) fun _ => R.pure 2
  | ok request =>
    cases request with
    | help => exact R.bind (herr _) fun _ => R.pure 0
    | calculate o =>
      have hcalculate := runs (calculate h herr hturns o) (Program.session o)
      have houtcome := R.bind hcalculate fun p => R.pure p.1
      rw [← map_eq_pure_bind, ← map_eq_pure_bind] at houtcome
      refine R.bind houtcome fun outcome => ?_
      cases outcome with
      | ok status => exact R.pure status
      | error fault => exact R.bind (herr _) fun _ => R.pure 1

end Turns

end Similarity

end Calculator
