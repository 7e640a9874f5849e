import Calculator.Proofs.CommandLine.Steps
import Calculator.Proofs.Terminal.Acceptance
import Calculator.Session.Stage

/-!
# What a turn writes

A turn writes the line of the tree, and then the line of the value or the report of an error, on
streams that may accept a limited number of bytes. What they accept is the beginning of what
they would accept without limits. Only a tree that does not fit keeps a turn from evaluating.
-/

namespace Calculator

namespace Turn

/-- The line of the tree, if it is wanted and there is one. -/
def treeLine (showTree : Bool) : Except ParseError Expr → String
  | .ok t => if showTree then Report.tree t else ""
  | .error _ => ""

/-- The line of the value, if there is one. -/
def valueLine : Except EvalError Float → String
  | .ok x => Report.value x
  | .error _ => ""

/-- The report of the error, if there is one. -/
def complaint (source : String) : Except EvalError Float → String
  | .ok _ => ""
  | .error e => Report.error source e

end Turn

namespace Stage

open Sink Turn

variable {σ : Type} {ask : Resolver (StateM σ)} {st st' : σ} {N M : Option Nat}
  {shown held : String}

/-- The stage with these limits when the texts have been written. -/
def holding (N M : Option Nat) (st : σ) (shown complained : String) : Stage σ :=
  ⟨st, ⟨N, clip N shown.toUTF8⟩, ⟨M, clip M complained.toUTF8⟩⟩

theorem holding_empty (N M : Option Nat) (st : σ) :
    holding N M st "" "" = ⟨st, { limit := N }, { limit := M }⟩ := by
  rw [holding, clip_of_within (fits_empty N), clip_of_within (fits_empty M)]
  rfl

theorem writeOut_holding (h : fits N shown = true) (text : String) :
    (writeOut text).run (holding N M st shown held) =
      (written N (shown ++ text), holding N M st (shown ++ text) held) :=
  congrArg (fun p : Except Fault Unit × Sink =>
    (p.1, Stage.mk st p.2 ⟨M, clip M held.toUTF8⟩)) (write_clipped h text)

theorem writeOut_first (text : String) :
    (writeOut text).run (holding N M st "" held) =
      (written N text, holding N M st text held) := by
  rw [writeOut_holding (fits_empty N), String.empty_append]

theorem writeErr_holding (text : String) :
    (writeErr text).run (holding N M st shown "") =
      (written M text, holding N M st shown text) := by
  have hwrite := write_clipped (fits_empty M) text
  rw [String.empty_append] at hwrite
  exact congrArg (fun p : Except Fault Unit × Sink =>
    (p.1, Stage.mk st ⟨N, clip N shown.toUTF8⟩ p.2)) hwrite

/-- An evaluation writes nothing. -/
theorem arrives_value {t : Expr} {s s' : Session} {r : Except EvalError Float}
    (h : Arrives (Evaluation.value ask t) s st r s' st') :
    Arrives (Evaluation.value (resolver ask) t) s (holding N M st shown held) r s'
      (holding N M st' shown held) := by
  have hask (name : String) :
      (Similarity.machines fun stage st => stage = holding N M st shown held).rel
        (resolver ask name) (ask name) := by
    rintro _ st rfl
    exact ⟨rfl, rfl⟩
  obtain ⟨stage, harrives, rfl⟩ := Arrives.similar (Similarity.value hask t) rfl h
  exact harrives

/-- The answer of a turn that has written its texts. -/
def answer (N M : Option Nat) (shown complained : String) (outcome : Except EvalError Float) :
    Except Fault Bool :=
  if fits N shown && fits M complained then .ok outcome.isOk else .error .pipeClosed

theorem answer_ok (x : Float) :
    answer N M shown "" (.ok x) = (written N shown).map fun _ => true := by
  rw [answer, written, fits_empty, Bool.and_true]
  cases fits N shown <;> rfl

theorem answer_error (h : fits N shown = true) (complained : String) (e : EvalError) :
    answer N M shown complained (.error e) = (written M complained).map fun _ => false := by
  rw [answer, written, h, Bool.true_and]
  cases fits M complained <;> rfl

/-- The last text of a turn, behind what it has shown before. -/
theorem arrives_conclude (hshown : fits N shown = true) (source : String)
    (outcome : Except EvalError Float) (s : Session) (st : σ) :
    ∃ s', s'.bindings = s.bindings ∧
      Arrives (conclude writeOut writeErr source outcome) s (holding N M st shown "")
        (answer N M (shown ++ valueLine outcome) (complaint source outcome) outcome) s'
        (holding N M st (shown ++ valueLine outcome) (complaint source outcome)) := by
  cases outcome with
  | ok x =>
    refine ⟨s, rfl, ?_⟩
    rw [complaint, answer_ok]
    exact Arrives.write (writeOut_holding hshown (Report.value x)) true
  | error e =>
    refine ⟨s.note (.failed source e), rfl, ?_⟩
    rw [valueLine, String.append_empty, answer_error hshown]
    exact Arrives.fail (writeErr_holding (complaint source (.error e)))

/-- A tree is evaluated, and then the turn writes its last text. -/
theorem arrives_evaluated {t : Expr} {s s₁ : Session} {outcome : Except EvalError Float}
    (hshown : fits N shown = true) (source : String)
    (h : Arrives (Evaluation.value ask t) s st outcome s₁ st') :
    ∃ s', s'.bindings = s₁.bindings ∧
      Arrives (attempt (Evaluation.value (resolver ask) t) >>= conclude writeOut writeErr source) s
        (holding N M st shown "")
        (answer N M (shown ++ valueLine outcome) (complaint source outcome) outcome) s'
        (holding N M st' (shown ++ valueLine outcome) (complaint source outcome)) := by
  obtain ⟨s', hbindings, hconclude⟩ := arrives_conclude hshown source outcome s₁ st'
  exact ⟨s', hbindings, (arrives_value h).attempt.bind hconclude⟩

/-- A turn does what the evaluation does, if the line of the tree fits. -/
theorem arrives_turn {showTree : Bool} {source : String} {s s₁ : Session}
    {outcome : Except EvalError Float} {tree : String}
    (htree : treeLine showTree (Expr.parse s.rules source) = tree) (hfits : fits N tree = true)
    (h : Arrives (Evaluation.evaluate ask source) s st outcome s₁ st') :
    ∃ s', s'.bindings = s₁.bindings ∧
      Arrives (Turn.run (resolver ask) writeOut writeErr showTree source) s (holding N M st "" "")
        (answer N M (tree ++ valueLine outcome) (complaint source outcome) outcome) s'
        (holding N M st' (tree ++ valueLine outcome) (complaint source outcome)) := by
  cases hparse : Expr.parse s.rules source with
  | error e =>
    rw [hparse] at htree
    subst htree
    obtain ⟨rfl, rfl, rfl⟩ := h.unique (.evaluate_of_error hparse)
    obtain ⟨s', hbindings, hconclude⟩ :=
      arrives_conclude (M := M) (fits_empty N) source (.error (.parse e)) (s.parse source).2 st'
    exact ⟨s', hbindings, .turn_of_error hparse hconclude⟩
  | ok t =>
    rw [hparse] at htree
    obtain ⟨s', hbindings, hrest⟩ :=
      arrives_evaluated (M := M) hfits source ((Arrives.evaluate_iff_of_ok hparse).1 h)
    cases showTree with
    | false =>
      obtain rfl : "" = tree := htree
      exact ⟨s', hbindings, .turn_of_hidden hparse hrest⟩
    | true =>
      obtain rfl : Report.tree t = tree := htree
      have hwrite : (writeOut (Report.tree t)).run (holding N M st "" "") =
          (.ok (), holding N M st (Report.tree t) "") := by
        rw [writeOut_first, written_of_fits hfits]
      exact ⟨s', hbindings, .turn_of_shown hparse ((Arrives.outside hwrite).bind hrest)⟩

/-- A tree that does not fit ends a turn before anything is asked for. -/
theorem arrives_turn_cut {showTree : Bool} {source : String} {s : Session} {tree : String}
    (htree : treeLine showTree (Expr.parse s.rules source) = tree) (hfits : fits N tree = false) :
    Arrives (Turn.run (resolver ask) writeOut writeErr showTree source) s (holding N M st "" "")
      (.error .pipeClosed) (s.parse source).2 (holding N M st tree "") := by
  have hne : tree ≠ "" := by
    rintro rfl
    rw [fits_empty] at hfits
    cases hfits
  cases hparse : Expr.parse s.rules source with
  | error e =>
    rw [hparse] at htree
    exact absurd htree.symm hne
  | ok t =>
    rw [hparse] at htree
    cases showTree with
    | false => exact absurd htree.symm hne
    | true =>
      obtain rfl : Report.tree t = tree := htree
      have hwrite : (writeOut (Report.tree t)).run (holding N M st "" "") =
          (.error .pipeClosed, holding N M st (Report.tree t) "") := by
        rw [writeOut_first, written_of_not_fits hfits]
      exact .turn_of_shown hparse (Arrives.outside hwrite).stop

/-- A turn does what the evaluation does and shows what comes of it. Streams with limits accept
the beginning of the same texts, and a tree that does not fit is not evaluated. -/
theorem run_outputs (ask : Resolver (StateM σ)) (showTree : Bool) (source : String)
    (session : Session) (st : σ) :
    let ((outcome, session₁), st₁) := ((Evaluation.evaluate ask source).run.run session).run st
    let tree := treeLine showTree (Expr.parse session.rules source)
    let shown := tree ++ valueLine outcome
    let ((status, session'), stage) := run ask showTree source session { state := st }
    session'.bindings = session₁.bindings ∧ stage.state = st₁ ∧ status = .ok outcome.isOk ∧
      stage.out.accepted = shown.toUTF8 ∧
      stage.err.accepted = (complaint source outcome).toUTF8 ∧
      ∀ N M : Nat,
        let ((status, session'), stage) :=
          run ask showTree source session ⟨st, { limit := N }, { limit := M }⟩
        stage.out.accepted = shown.toUTF8.extract 0 N ∧
          if tree.toUTF8.size ≤ N then
            session'.bindings = session₁.bindings ∧ stage.state = st₁ ∧
              stage.err.accepted = (complaint source outcome).toUTF8.extract 0 M ∧
              status =
                if shown.toUTF8.size ≤ N ∧ (complaint source outcome).toUTF8.size ≤ M then
                  .ok outcome.isOk
                else .error .pipeClosed
          else
            session'.bindings = session.bindings ∧ stage.state = st ∧
              stage.err.accepted = .empty ∧ status = .error .pipeClosed := by
  obtain ⟨outcome, session₁, st₁, h⟩ : ∃ outcome session₁ st₁,
      Arrives (Evaluation.evaluate ask source) session st outcome session₁ st₁ :=
    ⟨_, _, _, rfl⟩
  obtain ⟨session', hbindings, hturn⟩ := arrives_turn (N := none) (M := none) rfl rfl h
  rw [holding_empty] at hturn
  have hrun : run ask showTree source session { state := st } = _ := hturn
  rw [h, hrun]
  refine ⟨hbindings, rfl, rfl, rfl, rfl, fun N M => ?_⟩
  cases hfits : fits (some N) (treeLine showTree (Expr.parse session.rules source)) with
  | true =>
    have hsize : (treeLine showTree (Expr.parse session.rules source)).toUTF8.size ≤ N := by
      simpa [fits, withinLimit] using hfits
    obtain ⟨session', hbindings, hturn⟩ := arrives_turn (M := some M) rfl hfits h
    rw [holding_empty] at hturn
    have hrun : run ask showTree source session ⟨st, { limit := N }, { limit := M }⟩ = _ := hturn
    rw [hrun]
    refine ⟨rfl, ?_⟩
    rw [if_pos hsize]
    refine ⟨hbindings, rfl, rfl, ?_⟩
    simp [answer, fits, withinLimit]
  | false =>
    have hsize : ¬ (treeLine showTree (Expr.parse session.rules source)).toUTF8.size ≤ N := by
      simpa [fits, withinLimit] using hfits
    have hturn : Arrives (Turn.run (resolver ask) writeOut writeErr showTree source) session
        (holding (some N) (some M) st "" "") _ _ _ := arrives_turn_cut rfl hfits
    rw [holding_empty] at hturn
    have hrun : run ask showTree source session ⟨st, { limit := N }, { limit := M }⟩ = _ := hturn
    rw [hrun]
    refine ⟨(clip_append_of_not_fits hfits _).symm, ?_⟩
    rw [if_neg hsize]
    exact ⟨rfl, rfl, clip_of_within (fits_empty M), rfl⟩

end Stage

end Calculator
