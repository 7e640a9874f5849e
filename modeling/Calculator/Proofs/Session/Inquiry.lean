import Calculator.Session.Evaluation

/-!
# Inquiries

An evaluation reads and writes the bindings of its session. It only writes the
journal. An inquiry is an evaluation without the journal.
-/

namespace Calculator

/-- Steps with a state of any kind that an error ends. -/
abbrev Interruptible (S : Type) (m : Type → Type) := ExceptT EvalError (StateT S m)

namespace Interruptible

variable {S : Type} {m : Type → Type} [Monad m] {α β : Type}

theorem run_bind (x : Interruptible S m α) (f : α → Interruptible S m β) (s : S) :
    (x >>= f).run.run s = x.run.run s >>= fun p => match p with
      | (.ok a, s') => (f a).run.run s'
      | (.error e, s') => pure (.error e, s') := by
  rw [ExceptT.run_bind, StateT.run_bind]
  refine congrArg _ (funext fun p => ?_)
  obtain ⟨e | a, s'⟩ := p <;> rfl

variable [LawfulMonad m]

theorem run_get (s : S) : (get : Interruptible S m S).run.run s = pure (.ok s, s) := by
  show (Except.ok <$> (get : StateT S m S)).run s = _
  rw [StateT.run_map, StateT.run_get, map_pure]

theorem run_modifyGet (f : S → α × S) (s : S) :
    (modifyGet f : Interruptible S m α).run.run s = pure (.ok (f s).1, (f s).2) := by
  show (Except.ok <$> (modifyGet f : StateT S m α)).run s = _
  rw [StateT.run_map, StateT.run_modifyGet, map_pure]

theorem run_modify (f : S → S) (s : S) :
    (modify f : Interruptible S m Unit).run.run s = pure (.ok (), f s) :=
  run_modifyGet (fun s => ((), f s)) s

theorem run_lift (x : m α) (s : S) :
    (liftM x : Interruptible S m α).run.run s = (fun a => (.ok a, s)) <$> x := by
  show (Except.ok <$> (StateT.lift x : StateT S m α)).run s = _
  rw [StateT.run_map]
  show _ <$> (x >>= fun a => pure (a, s)) = _
  rw [map_bind, map_eq_pure_bind]
  exact congrArg _ (funext fun a => map_pure _ _)

end Interruptible

/-! ## Steps beside a machine -/

section

variable {S τ ε α β : Type} {s s' s'' : S} {t t' t'' : τ}

/-- Beside a machine with states of any kind, the steps lead from a state of their own and one of
the machine to others, with their outcome. -/
def Arrives (x : ExceptT ε (StateT S (StateM τ)) α) (s : S) (t : τ) (r : Except ε α) (s' : S)
    (t' : τ) : Prop :=
  (x.run.run s).run t = ((r, s'), t')

namespace Arrives

theorem pure (a : α) (s : S) (t : τ) :
    Arrives (Pure.pure a : ExceptT ε (StateT S (StateM τ)) α) s t (.ok a) s t := rfl

theorem unique {x : ExceptT ε (StateT S (StateM τ)) α} {r r' : Except ε α}
    (h : Arrives x s t r s' t') (h' : Arrives x s t r' s'' t'') : r = r' ∧ s' = s'' ∧ t' = t'' := by
  obtain ⟨hfst, ht⟩ := Prod.mk.inj (h.symm.trans h')
  obtain ⟨hr, hs⟩ := Prod.mk.inj hfst
  exact ⟨hr, hs, ht⟩

/-- What the rest does is all that is left to do. -/
theorem bind_iff {x : ExceptT ε (StateT S (StateM τ)) α}
    {f : α → ExceptT ε (StateT S (StateM τ)) β} {a : α} {r : Except ε β}
    (hx : Arrives x s t (.ok a) s' t') :
    Arrives (x >>= f) s t r s'' t'' ↔ Arrives (f a) s' t' r s'' t'' := by
  rw [Arrives, ExceptT.run_bind, StateT.run_bind, StateT.run_bind, hx]
  exact Iff.rfl

theorem bind {x : ExceptT ε (StateT S (StateM τ)) α}
    {f : α → ExceptT ε (StateT S (StateM τ)) β} {a : α} {r : Except ε β}
    (hx : Arrives x s t (.ok a) s' t') (hf : Arrives (f a) s' t' r s'' t'') :
    Arrives (x >>= f) s t r s'' t'' :=
  hx.bind_iff.2 hf

/-- Behind an error nothing is done. -/
theorem stop {x : ExceptT ε (StateT S (StateM τ)) α}
    {f : α → ExceptT ε (StateT S (StateM τ)) β} {e : ε}
    (hx : Arrives x s t (.error e) s' t') : Arrives (x >>= f) s t (.error e) s' t' := by
  rw [Arrives, ExceptT.run_bind, StateT.run_bind, StateT.run_bind, hx]
  rfl

end Arrives

end

/-! ## Inquiries -/

abbrev Inquiry (m : Type → Type) := Interruptible Bindings m

namespace Inquiry

variable {m : Type → Type} [Monad m]

/-- Asks for the value of a variable and binds it. -/
def resolve (ask : Resolver m) (name : String) (column : Nat) : Inquiry m Float := do
  match ← (ask name : m _) with
  | .error fault => throw (.unresolved name fault.message column)
  | .ok answer =>
    match answerValue? answer with
    | none => throw (.invalidValue name answer column)
    | some value =>
      modify fun bindings => bindings.insert name value
      return value

def lookup (ask : Resolver m) (name : String) (column : Nat) : Inquiry m Float := do
  match (← get)[name]? with
  | some value => return value
  | none => resolve ask name column

/-- The value of a tree. -/
def value (ask : Resolver m) : Expr → Inquiry m Float
  | .number value _ => return value
  | .var name column => lookup ask name column
  | .unary sign operand _ => return sign.apply (← value ask operand)
  | .binary op left right _ => do
      let x ← value ask left
      let y ← value ask right
      return op.apply x y
  | .call function argument _ => return function.apply (← value ask argument)

theorem map_throw [LawfulMonad m] {α β : Type} (f : α → β) (e : EvalError) :
    f <$> (throw e : Inquiry m α) = throw e := by
  apply ExceptT.ext
  rw [ExceptT.run_map]
  exact map_pure _ _

end Inquiry

namespace Evaluation

variable {m : Type → Type} [Monad m] {α β : Type}

/-- What is left of an outcome without the journal. -/
def shown (p : Except EvalError α × Session) : Except EvalError α × Bindings :=
  (p.1, p.2.bindings)

/-- The evaluation does what the inquiry does, and writes the journal besides. -/
def Notes (x : Evaluation m α) (y : Inquiry m α) : Prop :=
  ∀ s, shown <$> x.run.run s = y.run.run s.bindings

namespace Notes

variable [LawfulMonad m]

theorem pure (a : α) : Notes (Pure.pure a : Evaluation m α) (Pure.pure a) := fun _ =>
  map_pure _ _

theorem throw (e : EvalError) :
    Notes (MonadExcept.throw e : Evaluation m α) (MonadExcept.throw e) := fun _ =>
  map_pure _ _

theorem bind {x : Evaluation m α} {y : Inquiry m α} {f : α → Evaluation m β}
    {g : α → Inquiry m β} (hx : Notes x y) (hf : ∀ a, Notes (f a) (g a)) :
    Notes (x >>= f) (y >>= g) := by
  intro s
  rw [Interruptible.run_bind, Interruptible.run_bind, ← hx s, map_bind, bind_map_left]
  refine congrArg _ (funext fun p => ?_)
  obtain ⟨e | a, s'⟩ := p
  · exact map_pure _ _
  · exact hf a s'

theorem note {x : Evaluation m α} {y : Inquiry m α} (event : Event) (h : Notes x y) :
    Notes (do Evaluation.note event; x) y := by
  intro s
  rw [Interruptible.run_bind, Evaluation.note, Interruptible.run_modify, pure_bind]
  exact h (s.note event)

theorem lift (x : m α) : Notes (liftM x : Evaluation m α) (liftM x) := by
  intro s
  rw [Interruptible.run_lift, Interruptible.run_lift, Functor.map_map]
  rfl

theorem resolve (ask : Resolver m) (name : String) (column : Nat) :
    Notes (Evaluation.resolve ask name column) (Inquiry.resolve ask name column) := by
  refine note _ (bind (lift _) fun response => ?_)
  cases response with
  | error fault => exact throw _
  | ok answer =>
    dsimp only
    cases answerValue? answer with
    | none => exact throw _
    | some value =>
      refine bind (fun s => ?_) fun _ => pure value
      rw [Interruptible.run_modify, Interruptible.run_modify, map_pure]
      rfl

theorem lookup (ask : Resolver m) (name : String) (column : Nat) :
    Notes (Evaluation.lookup ask name column) (Inquiry.lookup ask name column) := by
  intro s
  rw [Evaluation.lookup, Inquiry.lookup, Interruptible.run_bind, Interruptible.run_bind,
    Interruptible.run_get, Interruptible.run_get, pure_bind, pure_bind]
  dsimp only
  cases s.bindings[name]? with
  | none => exact resolve ask name column s
  | some value => exact note _ (pure value) s

end Notes

/-- Without the journal, an evaluation is an inquiry. -/
theorem notes_value [LawfulMonad m] (ask : Resolver m) (t : Expr) :
    Notes (value ask t) (Inquiry.value ask t) := by
  induction t with
  | number value column => exact .pure value
  | var name column => exact .lookup ask name column
  | unary sign operand column ih => exact ih.bind fun _ => .pure _
  | binary op left right column ihl ihr => exact ihl.bind fun _ => ihr.bind fun _ => .pure _
  | call function argument column ih => exact ih.bind fun _ => .pure _

/-! ## The rules of a session -/

section Rules

variable {σ : Type}

/-- The steps leave the rules of the session as they are. -/
def KeepsRules (x : Evaluation (StateM σ) α) : Prop :=
  ∀ (s : Session) (st : σ), ((x.run.run s).run st).1.2.rules = s.rules

namespace KeepsRules

theorem bind {x : Evaluation (StateM σ) α} {f : α → Evaluation (StateM σ) β}
    (hx : KeepsRules x) (hf : ∀ a, KeepsRules (f a)) : KeepsRules (x >>= f) := by
  intro s st
  have hx := hx s st
  rw [Interruptible.run_bind, StateT.run_bind]
  generalize hrun : (x.run.run s).run st = p at hx
  obtain ⟨⟨e | a, s'⟩, st'⟩ := p
  · exact hx
  · exact (hf a s' st').trans hx

theorem resolve (ask : Resolver (StateM σ)) (name : String) (column : Nat) :
    KeepsRules (Evaluation.resolve ask name column) := by
  have hnote : KeepsRules (Evaluation.note (.resolving name) : Evaluation (StateM σ) Unit) :=
    fun _ _ => rfl
  have hask : KeepsRules (liftM (ask name) : Evaluation (StateM σ) _) := fun _ _ => rfl
  refine hnote.bind fun _ => hask.bind fun response => ?_
  cases response with
  | error fault => exact fun _ _ => rfl
  | ok answer =>
    dsimp only
    cases answerValue? answer <;> exact fun _ _ => rfl

theorem lookup (ask : Resolver (StateM σ)) (name : String) (column : Nat) :
    KeepsRules (Evaluation.lookup ask name column) := by
  intro s st
  have hget : ((Evaluation.lookup ask name column).run.run s).run st =
      (((match s.bindings[name]? with
        | some value => do
          Evaluation.note (.recalled name value)
          return value
        | none => Evaluation.resolve ask name column : Evaluation (StateM σ) Float).run.run
          s).run st) := rfl
  rw [hget]
  cases s.bindings[name]? with
  | some value => rfl
  | none => exact resolve ask name column s st

end KeepsRules

theorem keepsRules_value (ask : Resolver (StateM σ)) (t : Expr) : KeepsRules (value ask t) := by
  induction t with
  | number value column => exact fun _ _ => rfl
  | var name column => exact .lookup ask name column
  | unary sign operand column ih => exact ih.bind fun _ _ _ => rfl
  | binary op left right column ihl ihr => exact ihl.bind fun _ => ihr.bind fun _ _ _ => rfl
  | call function argument column ih => exact ih.bind fun _ _ _ => rfl

end Rules

end Evaluation

end Calculator
