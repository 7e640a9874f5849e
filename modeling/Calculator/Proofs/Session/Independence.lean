import Calculator.Proofs.Session.Fusion
import Calculator.Proofs.Session.Scripted

/-!
# Independence

Expressions that are evaluated one after the other beside a script do not disturb
each other: each comes to what it would come to alone, and in any other order the
same names get their values and the same requests are made.
-/

namespace Calculator

/-- An expression as a text or as a tree. -/
inductive Entry where
  | text (source : String)
  | tree (t : Expr)

namespace Entry

def read (rules : Rules) : Entry → Except ParseError Expr
  | text source => Expr.parse rules source
  | tree t => .ok t

def evaluate {m : Type → Type} [Monad m] (ask : Resolver m) : Entry → Evaluation m Float
  | text source => Evaluation.evaluate ask source
  | tree t => Evaluation.value ask t

end Entry

/-- Evaluates the expressions one after the other, whatever becomes of each. -/
def Evaluation.evaluateAll {m : Type → Type} [Monad m] (ask : Resolver m) (entries : List Entry) :
    StateT Session m (List (Except EvalError Float)) :=
  entries.mapM fun entry => (entry.evaluate ask).run

/-- What comes of a list of expressions. -/
structure Series where
  results : List (Except EvalError Float)
  bindings : Bindings
  requests : List String

namespace Table

variable (table : Table) (rules : Rules)

/-- What a new session beside a new script with the table makes of the expressions in turn. -/
def series (bindings : Bindings) (entries : List Entry) : Series :=
  let ((results, session), script) :=
    ((Evaluation.evaluateAll Script.resolver entries).run { bindings, rules }).run
      { answers := table }
  ⟨results, session.bindings, script.requests⟩

/-- What a new session beside a new script with the table makes of the expression alone. -/
def result (bindings : Bindings) (entry : Entry) : Except EvalError Float :=
  (((entry.evaluate Script.resolver).run.run { bindings, rules }).run { answers := table }).1.1

/-- The names that the expression asks for; one that does not parse asks for none. -/
def askedBy (b : Bindings) (entry : Entry) : List String :=
  match entry.read rules with
  | .ok t => table.asked b t
  | .error _ => []

/-- The bindings after the expression. -/
def settledBy (b : Bindings) (entry : Entry) : Bindings :=
  match entry.read rules with
  | .ok t => table.settled b t
  | .error _ => b

/-- What the expression comes to. -/
def GivesBy (b : Bindings) (entry : Entry) (r : Except EvalError Float) : Prop :=
  match entry.read rules with
  | .ok t => table.Gives b t r
  | .error e => r = .error (.parse e)

def askedAll (b : Bindings) : List Entry → List String
  | [] => []
  | entry :: entries =>
    table.askedBy rules b entry ++ askedAll (table.settledBy rules b entry) entries

def settledAll (b : Bindings) (entries : List Entry) : Bindings :=
  entries.foldl (table.settledBy rules) b

variable {table} {rules} {b b' : Bindings} {entry : Entry}

theorem settledAll_cons (b : Bindings) (entry : Entry) (entries : List Entry) :
    table.settledAll rules b (entry :: entries) =
      table.settledAll rules (table.settledBy rules b entry) entries := rfl

/-! ## One expression -/

theorem fills_settledBy (b : Bindings) (entry : Entry) :
    table.Fills b (table.settledBy rules b entry) := by
  rw [settledBy]
  cases entry.read rules with
  | ok t => exact .settled b t
  | error e => exact .refl b

theorem GivesBy.unique {r r' : Except EvalError Float} (h : table.GivesBy rules b entry r)
    (h' : table.GivesBy rules b entry r') : r = r' := by
  rw [GivesBy] at h h'
  cases hread : entry.read rules with
  | ok t =>
    rw [hread] at h h'
    exact Gives.unique h h'
  | error e =>
    rw [hread] at h h'
    exact h.trans h'.symm

theorem Fills.givesBy {r : Except EvalError Float} (h : table.Fills b b')
    (hr : table.GivesBy rules b entry r) : table.GivesBy rules b' entry r := by
  rw [GivesBy] at hr ⊢
  cases hread : entry.read rules with
  | ok t =>
    rw [hread] at hr
    exact h.gives hr
  | error e =>
    rw [hread] at hr
    exact hr

theorem run_entry (table : Table) (entry : Entry) (session : Session) (requests : List String) :
    ∃ r session',
      ((entry.evaluate Script.resolver).run.run session).run ⟨table, requests⟩ =
        ((r, session'), ⟨table, requests ++ table.askedBy session.rules session.bindings entry⟩) ∧
      session'.bindings = table.settledBy session.rules session.bindings entry ∧
      session'.rules = session.rules ∧
      table.GivesBy session.rules session.bindings entry r := by
  cases entry with
  | tree t => exact run_value table t session requests
  | text source =>
    simp only [askedBy, settledBy, GivesBy, Entry.read, Entry.evaluate, Evaluation.evaluate]
    rw [Interruptible.run_bind, Evaluation.run_parse, pure_bind]
    cases Expr.parse session.rules source with
    | ok t => exact run_value table t (session.parse source).2 requests
    | error e =>
      refine ⟨.error (.parse e), (session.parse source).2, ?_, rfl, rfl, rfl⟩
      rw [List.append_nil]
      rfl

theorem givesBy_result (b : Bindings) (entry : Entry) :
    table.GivesBy rules b entry (table.result rules b entry) := by
  obtain ⟨r, session', hrun, -, -, hr⟩ := run_entry table entry { bindings := b, rules } []
  rw [result, hrun]
  exact hr

/-- An expression comes to the same where some names have got their values from the table. -/
theorem Fills.eq_result {r : Except EvalError Float} (h : table.Fills b b')
    (hr : table.GivesBy rules b' entry r) : r = table.result rules b entry :=
  hr.unique (h.givesBy (givesBy_result b entry))

/-! ## Expressions in turn -/

theorem run_all (entries : List Entry) {session : Session} (requests : List String)
    (h : table.Fills b session.bindings) :
    ∃ session',
      ((Evaluation.evaluateAll Script.resolver entries).run session).run ⟨table, requests⟩ =
        ((entries.map (table.result session.rules b), session'),
          ⟨table, requests ++ table.askedAll session.rules session.bindings entries⟩) ∧
      session'.bindings = table.settledAll session.rules session.bindings entries := by
  induction entries generalizing session requests with
  | nil =>
    refine ⟨session, ?_, rfl⟩
    rw [askedAll, List.append_nil]
    rfl
  | cons entry entries ih =>
    obtain ⟨r, session₁, hrun, hbindings, hrules, hr⟩ := run_entry table entry session requests
    have hfills : table.Fills b session₁.bindings :=
      h.trans (hbindings ▸ fills_settledBy session.bindings entry)
    obtain ⟨session₂, hall, hsettled⟩ :=
      ih (requests ++ table.askedBy session.rules session.bindings entry) hfills
    rw [hbindings, hrules] at hall hsettled
    refine ⟨session₂, ?_, hsettled⟩
    rw [Evaluation.evaluateAll, List.mapM_cons, StateT.run_bind, StateT.run_bind, hrun,
      List.map_cons, ← h.eq_result hr, askedAll, ← List.append_assoc]
    exact congrArg
      (fun p : (List (Except EvalError Float) × Session) × Script => ((r :: p.1.1, p.1.2), p.2))
      hall

theorem series_eq (table : Table) (rules : Rules) (b : Bindings) (entries : List Entry) :
    table.series rules b entries =
      ⟨entries.map (table.result rules b), table.settledAll rules b entries,
        table.askedAll rules b entries⟩ := by
  let session : Session := { bindings := b, rules }
  have hfills : table.Fills b session.bindings := .refl b
  obtain ⟨session', hrun, hbindings⟩ := run_all entries [] hfills
  rw [series, hrun]
  dsimp only
  rw [hbindings]
  rfl

/-! ## Other orders -/

theorem settledBy_comm (b : Bindings) (e₁ e₂ : Entry) :
    table.settledBy rules (table.settledBy rules b e₁) e₂ =
      table.settledBy rules (table.settledBy rules b e₂) e₁ := by
  simp only [settledBy]
  cases e₁.read rules with
  | error e => rfl
  | ok t =>
    cases e₂.read rules with
    | error e => rfl
    | ok u => exact settled_comm b t u

theorem askedBy_append_perm (b : Bindings) (e₁ e₂ : Entry) :
    (table.askedBy rules b e₁ ++ table.askedBy rules (table.settledBy rules b e₁) e₂).Perm
      (table.askedBy rules b e₂ ++ table.askedBy rules (table.settledBy rules b e₂) e₁) := by
  simp only [askedBy, settledBy]
  cases e₁.read rules with
  | error e => simp
  | ok t =>
    cases e₂.read rules with
    | error e => simp
    | ok u => exact asked_append_perm b t u

variable {entries entries' : List Entry}

theorem settledAll_perm (h : entries.Perm entries') (b : Bindings) :
    table.settledAll rules b entries = table.settledAll rules b entries' := by
  induction h generalizing b with
  | nil => rfl
  | cons entry _ ih => exact ih _
  | swap e₁ e₂ entries =>
    exact congrArg (table.settledAll rules · entries) (settledBy_comm b e₂ e₁)
  | trans _ _ ih₁ ih₂ => exact (ih₁ b).trans (ih₂ b)

theorem askedAll_perm (h : entries.Perm entries') (b : Bindings) :
    (table.askedAll rules b entries).Perm (table.askedAll rules b entries') := by
  induction h generalizing b with
  | nil => exact .nil
  | cons entry _ ih => exact (ih _).append_left _
  | swap e₁ e₂ entries =>
    simp only [askedAll, settledBy_comm b e₂ e₁]
    rw [← List.append_assoc, ← List.append_assoc]
    exact (askedBy_append_perm b e₂ e₁).append_right _
  | trans _ _ ih₁ ih₂ => exact (ih₁ b).trans (ih₂ b)

/-- Each expression of a list comes to what it would come to alone, and the order of the list
matters neither for the bindings in the end nor for how often each name is asked for. -/
theorem series_independent (table : Table) (rules : Rules) (bindings : Bindings)
    (entries : List Entry) :
    (table.series rules bindings entries).results = entries.map (table.result rules bindings) ∧
      ∀ entries', entries.Perm entries' →
        (table.series rules bindings entries').bindings =
          (table.series rules bindings entries).bindings ∧
        (table.series rules bindings entries').requests.Perm
          (table.series rules bindings entries).requests := by
  simp only [series_eq]
  refine ⟨trivial, fun entries' h => ⟨?_, ?_⟩⟩
  · exact (settledAll_perm h bindings).symm
  · exact (askedAll_perm h bindings).symm

/-- A number for `a`, a text that is none for `b`, and nothing for `c`. -/
def faultyTable : Table :=
  .ofList [("a", "5"), ("b", "five")]

example :
    (faultyTable.series .permissive ∅ [.text "a * b", .text "b + c", .text "(a"]).requests =
      ["a", "b", "b"] := by
  decide +kernel

theorem series_independent_exchange :
    (faultyTable.series .permissive ∅ [.text "b + c", .text "a * b"]).bindings =
      (faultyTable.series .permissive ∅ [.text "a * b", .text "b + c"]).bindings ∧
    (faultyTable.series .permissive ∅ [.text "b + c", .text "a * b"]).requests.Perm
      (faultyTable.series .permissive ∅ [.text "a * b", .text "b + c"]).requests :=
  (series_independent faultyTable .permissive ∅ [.text "a * b", .text "b + c"]).2 _
    (.swap _ _ _)

end Table

end Calculator
