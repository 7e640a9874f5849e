import Calculator.Proofs.Expr.Variables
import Calculator.Proofs.Session.Inquiry

/-!
# The order of resolution

An evaluation comes to the same as asking first for the missing variables, in the
order in which they occur, and computing then. The resolver is a machine with
states of any kind, so that its state tells what it was asked and in which order.
-/

namespace Calculator

variable {σ : Type}

/-- Asked for the names one after the other, the resolver gives the values. -/
inductive Answers (ask : Resolver (StateM σ)) : σ → List (String × Float) → σ → Prop where
  | nil (st : σ) : Answers ask st [] st
  | cons {st st₁ st₂ : σ} {name answer : String} {value : Float}
      {answers : List (String × Float)} (hask : (ask name).run st = (.ok answer, st₁))
      (hvalue : answerValue? answer = some value) (h : Answers ask st₁ answers st₂) :
      Answers ask st ((name, value) :: answers) st₂

/-- Asked for the variable, the resolver gives no value. -/
inductive Refuses (ask : Resolver (StateM σ)) (st : σ) :
    String × Nat → EvalError → σ → Prop where
  | unresolved {name : String} {column : Nat} {fault : Fault} {st' : σ}
      (hask : (ask name).run st = (.error fault, st')) :
      Refuses ask st (name, column) (.unresolved name fault.message column) st'
  | invalidValue {name answer : String} {column : Nat} {st' : σ}
      (hask : (ask name).run st = (.ok answer, st')) (hvalue : answerValue? answer = none) :
      Refuses ask st (name, column) (.invalidValue name answer column) st'

/-- The outcomes of asking for the missing variables of `t` in turn, up to the first that gets no
value, and of computing if there is none. -/
inductive Resolved (ask : Resolver (StateM σ)) (t : Expr) (b : Bindings) (st : σ) :
    Except EvalError Float → Bindings → σ → Prop where
  | computed {answers : List (String × Float)} {st' : σ} {x : Float}
      (hnames : answers.map Prod.fst = (t.missing b).map Prod.fst)
      (hanswers : Answers ask st answers st')
      (hvalue : t.value? (b.insertMany answers) = some x) :
      Resolved ask t b st (.ok x) (b.insertMany answers) st'
  | stopped {asked rest : List (String × Nat)} {leaf : String × Nat}
      {answers : List (String × Float)} {st₁ st' : σ} {e : EvalError}
      (hmissing : t.missing b = asked ++ leaf :: rest)
      (hnames : answers.map Prod.fst = asked.map Prod.fst)
      (hanswers : Answers ask st answers st₁) (hrefuses : Refuses ask st₁ leaf e st') :
      Resolved ask t b st (.error e) (b.insertMany answers) st'

theorem Answers.append {ask : Resolver (StateM σ)} {st st₁ st₂ : σ}
    {xs ys : List (String × Float)} (hx : Answers ask st xs st₁) (hy : Answers ask st₁ ys st₂) :
    Answers ask st (xs ++ ys) st₂ := by
  induction hx with
  | nil => exact hy
  | cons hask hvalue _ ih => exact .cons hask hvalue (ih hy)

/-! ## Inquiries of a machine -/

namespace Arrives

open Inquiry

variable {ask : Resolver (StateM σ)} {b b' : Bindings} {st st' : σ} {name answer : String}
  (column : Nat)

theorem lift {response : Except Fault String} (hask : (ask name).run st = (response, st')) :
    Arrives (liftM (ask name) : Inquiry (StateM σ) _) b st (.ok response) b st' := by
  rw [Arrives, Interruptible.run_lift, StateT.run_map, hask]
  rfl

theorem lookup_bound {value : Float} (h : b[name]? = some value) :
    Arrives (lookup ask name column) b st (.ok value) b st := by
  refine bind (x := get) rfl ?_
  rw [h]
  exact pure value b st

theorem lookup_unbound {r : Except EvalError Float} (h : b[name]? = none)
    (hresolve : Arrives (resolve ask name column) b st r b' st') :
    Arrives (lookup ask name column) b st r b' st' := by
  refine bind (x := get) rfl ?_
  rw [h]
  exact hresolve

theorem resolve_value {value : Float} (hask : (ask name).run st = (.ok answer, st'))
    (hvalue : answerValue? answer = some value) :
    Arrives (resolve ask name column) b st (.ok value) (b.insert name value) st' := by
  refine bind (lift hask) ?_
  dsimp only
  rw [hvalue]
  rfl

theorem resolve_refused {e : EvalError} (h : Refuses ask st (name, column) e st') :
    Arrives (resolve ask name column) b st (.error e) b st' := by
  cases h with
  | unresolved hask => exact bind (lift hask) rfl
  | invalidValue hask hvalue =>
    refine bind (lift hask) ?_
    dsimp only
    rw [hvalue]
    rfl

end Arrives

/-! ## Resolution -/

/-- What asking for a variable comes to. -/
theorem answers_or_refuses (ask : Resolver (StateM σ)) (st : σ) (name : String)
    (column : Nat) :
    (∃ answer value st', (ask name).run st = (.ok answer, st') ∧
      answerValue? answer = some value) ∨ ∃ e st', Refuses ask st (name, column) e st' := by
  obtain ⟨response, st', hask⟩ : ∃ response st', (ask name).run st = (response, st') :=
    ⟨_, _, rfl⟩
  cases response with
  | error fault => exact .inr ⟨_, st', .unresolved hask⟩
  | ok answer =>
    cases hvalue : answerValue? answer with
    | none => exact .inr ⟨_, st', .invalidValue hask hvalue⟩
    | some value => exact .inl ⟨answer, value, st', hask, hvalue⟩

/-- The inquiry for the tree has a resolved outcome. -/
def Resolves (ask : Resolver (StateM σ)) (t : Expr) (b : Bindings) (st : σ) : Prop :=
  ∃ r b' st', Arrives (Inquiry.value ask t) b st r b' st' ∧ Resolved ask t b st r b' st'

namespace Resolves

open Inquiry

variable {ask : Resolver (StateM σ)} {t l r : Expr} {b : Bindings} {st : σ}

theorem var (name : String) (column : Nat) : Resolves ask (.var name column) b st := by
  cases hb : b[name]? with
  | some x =>
    have hmissing := Expr.missing_var_of_bound column hb
    have hanswers : Answers ask st [] st := .nil st
    exact ⟨.ok x, b, st, .lookup_bound column hb, .computed (by rw [hmissing]; rfl) hanswers hb⟩
  | none =>
    have hmissing := Expr.missing_var_of_unbound column hb
    rcases answers_or_refuses ask st name column with
      ⟨answer, x, st', hask, hvalue⟩ | ⟨e, st', hrefuses⟩
    · refine ⟨.ok x, b.insertMany [(name, x)], st',
        .lookup_unbound column hb (.resolve_value column hask hvalue),
        .computed (by rw [hmissing]; rfl) (.cons hask hvalue (.nil st')) ?_⟩
      exact Std.ExtTreeMap.getElem?_insert_self
    · have hanswers : Answers ask st [] st := .nil st
      have hasked : (Expr.var name column).missing b = [] ++ (name, column) :: [] := hmissing
      exact ⟨.error e, b, st', .lookup_unbound column hb (.resolve_refused column hrefuses),
        .stopped hasked rfl hanswers hrefuses⟩

theorem map {u : Expr} {f : Float → Float} (h : Resolves ask t b st)
    (hvalue : Inquiry.value ask u = do return f (← Inquiry.value ask t))
    (hmissing : u.missing b = t.missing b)
    (hvalue? : ∀ b' : Bindings, u.value? b' = (t.value? b').map f) : Resolves ask u b st := by
  obtain ⟨r, b', st', harrives, hresolved⟩ := h
  cases hresolved with
  | @computed answers st' x hnames hanswers hx =>
    refine ⟨.ok (f x), _, _, ?_, .computed (hnames.trans (by rw [hmissing])) hanswers ?_⟩
    · rw [hvalue]
      exact harrives.bind rfl
    · rw [hvalue?, hx]
      rfl
  | stopped hasked hnames hanswers hrefuses =>
    refine ⟨_, _, _, ?_, .stopped (hmissing.trans hasked) hnames hanswers hrefuses⟩
    rw [hvalue]
    exact harrives.stop

theorem binary {op : BinaryOp} {column : Nat} (hl : Resolves ask l b st)
    (hr : ∀ b st, Resolves ask r b st) : Resolves ask (.binary op l r column) b st := by
  obtain ⟨result, b₁, st₁, harrives, hresolved⟩ := hl
  cases hresolved with
  | @stopped asked rest leaf _ _ _ _ hasked hnames hanswers hrefuses =>
    obtain ⟨more, hmore⟩ := Expr.prefix_missing_binary (b := b) (l := l) (r := r) op column
    have hasked' : (Expr.binary op l r column).missing b = asked ++ leaf :: (rest ++ more) := by
      rw [← hmore, hasked, List.append_assoc, List.cons_append]
    exact ⟨_, _, _, harrives.stop, .stopped hasked' hnames hanswers hrefuses⟩
  | @computed xs st₁ x hnames hanswers hx =>
    have hmissing := Expr.missing_binary (r := r) op column hnames
    obtain ⟨result, b₂, st₂, harrives', hresolved'⟩ := hr (b.insertMany xs) st₁
    cases hresolved' with
    | @stopped asked rest leaf ys st₂ _ e hasked' hnames' hanswers' hrefuses' =>
      refine ⟨_, _, _, harrives.bind harrives'.stop, ?_⟩
      have hasked : (Expr.binary op l r column).missing b =
          l.missing b ++ asked ++ leaf :: rest := by
        rw [hmissing, hasked', List.append_assoc]
      rw [← Std.ExtTreeMap.insertMany_append]
      refine .stopped hasked ?_ (hanswers.append hanswers') hrefuses'
      rw [List.map_append, List.map_append, hnames, hnames']
    | @computed ys _ y hnames' hanswers' hy =>
      have hx' := Expr.value?_insertMany hx fun name hname => by
        rw [hnames'] at hname
        exact Expr.missing_names_notMem hname
      refine ⟨.ok (op.apply x y), _, _, harrives.bind (harrives'.bind rfl), ?_⟩
      rw [← Std.ExtTreeMap.insertMany_append]
      refine .computed ?_ (hanswers.append hanswers') ?_
      · rw [hmissing, List.map_append, List.map_append, hnames, hnames']
      · rw [Std.ExtTreeMap.insertMany_append]
        simp only [Expr.value?, hx', hy]
        rfl

theorem of_expr (ask : Resolver (StateM σ)) (t : Expr) (b : Bindings) (st : σ) :
    Resolves ask t b st := by
  induction t generalizing b st with
  | number value column =>
    have hanswers : Answers ask st [] st := .nil st
    exact ⟨.ok value, b, st, .pure value b st, .computed rfl hanswers rfl⟩
  | var name column => exact var name column
  | unary sign operand column ih => exact (ih b st).map rfl rfl fun _ => rfl
  | binary op left right column ihl ihr => exact binary (ihl b st) ihr
  | call function argument column ih => exact (ih b st).map rfl rfl fun _ => rfl

end Resolves

/-- Whatever an evaluation comes to, its variables were resolved in turn. -/
theorem Arrives.resolved {ask : Resolver (StateM σ)} {t : Expr} {session session' : Session}
    {st st' : σ} {r : Except EvalError Float}
    (h : Arrives (Evaluation.value ask t) session st r session' st') :
    Resolved ask t session.bindings st r session'.bindings st' := by
  obtain ⟨r', b', st'', harrives, hresolved⟩ := Resolves.of_expr ask t session.bindings st
  have hnotes := congrArg (fun x => StateT.run x st) (Evaluation.notes_value ask t session)
  rw [harrives, StateT.run_map, h] at hnotes
  cases hnotes
  exact hresolved

/-- An evaluation asks for the variables without a value, each of them once, in the order in which
they first occur. The first that gets no value stops it with an error at its column, and those
before it have the values they got. If there is none, the tree has its value. -/
theorem value_resolved (ask : Resolver (StateM σ)) (t : Expr) (session : Session) (st : σ) :
    ∃ result session' st',
      ((Evaluation.value ask t).run.run session).run st = ((result, session'), st') ∧
        Resolved ask t session.bindings st result session'.bindings st' :=
  ⟨_, _, _, rfl, Arrives.resolved rfl⟩

end Calculator
