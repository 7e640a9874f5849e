import Calculator.Proofs.CommandLine.Scene
import Calculator.Proofs.CommandLine.Steps
import Calculator.Proofs.Session.Resolution

/-!
# Exchanges

What one expression of a dialogue does with the lines behind it. The variables that have no
value are asked for in order, each question takes one line, and the first line that gives no
value is the last that is taken.
-/

namespace Calculator

/-- The questions for the names, and the lines that answer them up to the first that gives no
number. -/
inductive Answering : List (String × Nat) → Bindings → List String → List Act →
    Option EvalError → Bindings → List String → Prop where
  | done (b : Bindings) (lines : List String) : Answering [] b lines [] none b lines
  | number {name line : String} {column : Nat} {leaves : List (String × Nat)} {value : Float}
      {b b' : Bindings} {lines rest : List String} {acts : List Act} {failure : Option EvalError}
      (hvalue : answerValue? line = some value)
      (h : Answering leaves (b.insert name value) lines acts failure b' rest) :
      Answering ((name, column) :: leaves) b (line :: lines)
        (.wrote (Console.question name) :: .read (.ok (some line)) :: acts) failure b' rest
  | notNumber {name line : String} {column : Nat} {leaves : List (String × Nat)} {b : Bindings}
      {lines : List String} (hvalue : answerValue? line = none) :
      Answering ((name, column) :: leaves) b (line :: lines)
        [.wrote (Console.question name), .read (.ok (some line))]
        (some (.invalidValue name line column)) b lines
  | ended {name : String} {column : Nat} {leaves : List (String × Nat)} {b : Bindings} :
      Answering ((name, column) :: leaves) b []
        [.wrote (Console.question name), .read (.ok none)]
        (some (.unresolved name Fault.inputClosed.message column)) b []

/-- The questions for the variables of a tree, and then its value or the reason why it has
none. -/
inductive Concluded (source : String) (t : Expr) (b : Bindings) (lines : List String) :
    List Act → Bindings → List String → Prop where
  | computed {x : Float} {acts : List Act} {b' : Bindings} {rest : List String}
      (hanswering : Answering (t.missing b) b lines acts none b' rest)
      (hvalue : t.value? b' = some x) :
      Concluded source t b lines (acts ++ [.wrote (Report.value x)]) b' rest
  | failed {e : EvalError} {acts : List Act} {b' : Bindings} {rest : List String}
      (hanswering : Answering (t.missing b) b lines acts (some e) b' rest) :
      Concluded source t b lines (acts ++ [.complained (Report.error source e)]) b' rest

/-- The line that shows a tree, if trees are wanted. -/
def treeShown (showTree : Bool) (t : Expr) : List Act :=
  if showTree then [.wrote (Report.tree t)] else []

/-- What an expression does. A text that does not parse asks for nothing. -/
inductive Exchange (rules : Rules) (showTree : Bool) (source : String) (b : Bindings)
    (lines : List String) : List Act → Bindings → List String → Prop where
  | unparsed {e : ParseError} (hparse : Expr.parse rules source = .error e) :
      Exchange rules showTree source b lines
        [.complained (Report.error source (.parse e))] b lines
  | parsed {t : Expr} {acts : List Act} {b' : Bindings} {rest : List String}
      (hparse : Expr.parse rules source = .ok t)
      (hconcluded : Concluded source t b lines acts b' rest) :
      Exchange rules showTree source b lines (treeShown showTree t ++ acts) b' rest

/-! ## The lines of an exchange -/

theorem Answering.heard {leaves : List (String × Nat)} {b b' : Bindings}
    {lines rest : List String} {acts : List Act} {failure : Option EvalError}
    (h : Answering leaves b lines acts failure b' rest) : lines = Act.heard acts ++ rest := by
  induction h with
  | done b lines => rfl
  | @number name line _ _ _ _ _ _ _ _ _ _ _ ih => exact congrArg (line :: ·) ih
  | notNumber hvalue => rfl
  | ended => rfl

variable {source : String} {b b' : Bindings} {lines rest : List String} {acts : List Act}

theorem Concluded.heard {t : Expr} (h : Concluded source t b lines acts b' rest) :
    lines = Act.heard acts ++ rest := by
  cases h with
  | computed hanswering hvalue =>
    rw [Act.heard_append]
    exact hanswering.heard.trans (congrArg (· ++ rest) (List.append_nil _).symm)
  | failed hanswering =>
    rw [Act.heard_append]
    exact hanswering.heard.trans (congrArg (· ++ rest) (List.append_nil _).symm)

/-- An exchange takes the first lines, in their order. -/
theorem Exchange.heard {rules : Rules} {showTree : Bool}
    (h : Exchange rules showTree source b lines acts b' rest) :
    lines = Act.heard acts ++ rest := by
  cases h with
  | unparsed hparse => rfl
  | parsed hparse hconcluded =>
    rw [Act.heard_append]
    cases showTree <;> exact hconcluded.heard

/-! ## Asking on the console of a scene -/

namespace Scene

/-- A scene with lines of text. -/
def ofLines (lines : List String) (acts : List Act) : Scene :=
  ⟨lines.map .ok, acts⟩

theorem resolver_nil (name : String) (acts : List Act) :
    (console.resolver name).run (ofLines [] acts) =
      (.error .inputClosed,
        ofLines [] (acts ++ [.wrote (Console.question name), .read (.ok none)])) :=
  congrArg (fun acts => (Except.error Fault.inputClosed, ofLines [] acts))
    (List.append_assoc acts [.wrote (Console.question name)] [.read (.ok none)])

theorem resolver_cons (name line : String) (lines : List String) (acts : List Act) :
    (console.resolver name).run (ofLines (line :: lines) acts) =
      (.ok line,
        ofLines lines (acts ++ [.wrote (Console.question name), .read (.ok (some line))])) :=
  congrArg (fun acts => (Except.ok line, ofLines lines acts))
    (List.append_assoc acts [.wrote (Console.question name)] [.read (.ok (some line))])

/-- Behind the lines that answer the first questions, the others are asked. -/
theorem answering_of_answers {before : List Act} {answers : List (String × Float)}
    {asked : List (String × Nat)} {scene : Scene}
    (h : Answers console.resolver (ofLines lines before) answers scene)
    (hnames : answers.map Prod.fst = asked.map Prod.fst) (b : Bindings) :
    ∃ acts rest, scene = ofLines rest (before ++ acts) ∧
      ∀ {leaves acts' failure b' rest'},
        Answering leaves (b.insertMany answers) rest acts' failure b' rest' →
          Answering (asked ++ leaves) b lines (acts ++ acts') failure b' rest' := by
  generalize hstart : ofLines lines before = start at h
  -- the scene and the bindings change with every answer
  induction h generalizing lines before asked b with
  | nil start =>
    obtain rfl : asked = [] := List.map_eq_nil_iff.1 hnames.symm
    refine ⟨[], lines, ?_, fun h => ?_⟩
    · rw [List.append_nil, hstart]
    · rwa [Std.ExtTreeMap.insertMany_nil] at h
  | @cons start s₁ s₂ name answer value answers hask hvalue _ ih =>
    subst hstart
    obtain ⟨⟨other, column⟩, asked, rfl, hname, htail⟩ := List.map_eq_cons_iff.1 hnames.symm
    obtain rfl : other = name := hname
    cases lines with
    | nil =>
      rw [resolver_nil] at hask
      exact nomatch hask
    | cons line lines =>
      rw [resolver_cons] at hask
      obtain ⟨hline, rfl⟩ := Prod.mk.inj hask
      cases hline
      obtain ⟨acts, rest, rfl, hmore⟩ := ih htail.symm (b.insert other value) rfl
      refine ⟨.wrote (Console.question other) :: .read (.ok (some answer)) :: acts, rest, ?_,
        fun h => ?_⟩
      · rw [List.append_assoc]
        rfl
      · rw [Std.ExtTreeMap.insertMany_cons] at h
        exact .number hvalue (hmore h)

/-- A question without a number for an answer is the last one. -/
theorem answering_of_refuses {before : List Act} {leaf : String × Nat} {e : EvalError}
    {scene : Scene} (h : Refuses console.resolver (ofLines lines before) leaf e scene)
    (leaves : List (String × Nat)) (b : Bindings) :
    ∃ acts rest, scene = ofLines rest (before ++ acts) ∧
      Answering (leaf :: leaves) b lines acts (some e) b rest := by
  cases h with
  | @unresolved name column fault _ hask =>
    cases lines with
    | nil =>
      rw [resolver_nil] at hask
      obtain ⟨hfault, rfl⟩ := Prod.mk.inj hask
      cases hfault
      exact ⟨_, [], rfl, .ended⟩
    | cons line lines =>
      rw [resolver_cons] at hask
      exact nomatch hask
  | @invalidValue name answer column _ hask hvalue =>
    cases lines with
    | nil =>
      rw [resolver_nil] at hask
      exact nomatch hask
    | cons line lines =>
      rw [resolver_cons] at hask
      obtain ⟨hline, rfl⟩ := Prod.mk.inj hask
      cases hline
      exact ⟨_, lines, rfl, .notNumber hvalue⟩

/-- An evaluation asks for the variables that have no value, and computes if it gets them all. -/
theorem answering_of_resolved {t : Expr} {before : List Act} {r : Except EvalError Float}
    {scene : Scene} (h : Resolved console.resolver t b (ofLines lines before) r b' scene) :
    ∃ acts rest failure, scene = ofLines rest (before ++ acts) ∧
      Answering (t.missing b) b lines acts failure b' rest ∧
      match r with
      | .ok x => failure = none ∧ t.value? b' = some x
      | .error e => failure = some e := by
  cases h with
  | @computed answers _ x hnames hanswers hvalue =>
    obtain ⟨acts, rest, rfl, hmore⟩ := answering_of_answers hanswers hnames b
    have hanswering := hmore (.done (b.insertMany answers) rest)
    rw [List.append_nil, List.append_nil] at hanswering
    exact ⟨acts, rest, none, rfl, hanswering, rfl, hvalue⟩
  | @stopped asked leaves leaf answers s₁ _ e hmissing hnames hanswers hrefuses =>
    obtain ⟨acts, rest, rfl, hmore⟩ := answering_of_answers hanswers hnames b
    obtain ⟨acts', rest', rfl, hlast⟩ :=
      answering_of_refuses hrefuses leaves (b.insertMany answers)
    refine ⟨acts ++ acts', rest', some e, ?_, hmissing ▸ hmore hlast, rfl⟩
    rw [List.append_assoc]

/-! ## Turns -/

section Turns

variable {s s' : Session} {scene scene' : Scene} {showTree : Bool}

theorem arrives_fail (source : String) (e : EvalError) (s : Session) (scene : Scene) :
    Arrives (Turn.fail complain source e) s scene (.ok false) (s.note (.failed source e))
      (scene.note (.complained (Report.error source e))) := by
  have hwrite : (complain (Report.error source e)).run scene =
      (.ok (), scene.note (.complained (Report.error source e))) := rfl
  exact Arrives.fail hwrite

theorem arrives_turn_of_error {e : ParseError} (h : Expr.parse s.rules source = .error e) :
    Arrives (Turn.run console.resolver console.write complain showTree source) s scene (.ok false)
      ((s.parse source).2.note (.failed source (.parse e)))
      (scene.note (.complained (Report.error source (.parse e)))) :=
  Arrives.turn_of_error h (arrives_fail source (.parse e) _ scene)

theorem arrives_turn_of_ok {t : Expr} {r : Except Fault Bool}
    (h : Expr.parse s.rules source = .ok t)
    (hvalue : Arrives (Turn.attempt (Evaluation.value console.resolver t) >>=
        Turn.conclude console.write complain source) (s.parse source).2
      ⟨scene.lines, scene.acts ++ treeShown showTree t⟩ r s' scene') :
    Arrives (Turn.run console.resolver console.write complain showTree source) s scene r s'
      scene' := by
  cases showTree with
  | false =>
    rw [treeShown, if_neg Bool.false_ne_true, List.append_nil] at hvalue
    exact Arrives.turn_of_hidden h hvalue
  | true =>
    have htree : Arrives (Turn.outside (console.write (Report.tree t))) (s.parse source).2 scene
      (.ok ()) (s.parse source).2 ⟨scene.lines, scene.acts ++ treeShown true t⟩ := rfl
    exact Arrives.turn_of_shown h (htree.bind hvalue)

end Turns

theorem arrives_conclude (t : Expr) (s : Session) (source : String) (lines : List String)
    (before : List Act) :
    ∃ flag acts s' rest,
      Arrives (Turn.attempt (Evaluation.value console.resolver t) >>=
          Turn.conclude console.write complain source) s (ofLines lines before) (.ok flag) s'
        (ofLines rest (before ++ acts)) ∧
      s'.rules = s.rules ∧ Concluded source t s.bindings lines acts s'.bindings rest := by
  obtain ⟨r, s', scene, hrun⟩ : ∃ r s' scene,
      Arrives (Evaluation.value console.resolver t) s (ofLines lines before) r s' scene :=
    ⟨_, _, _, rfl⟩
  have hrules : s'.rules = s.rules := by
    rw [← Evaluation.keepsRules_value console.resolver t s (ofLines lines before), hrun]
  obtain ⟨acts, rest, failure, rfl, hanswering, hr⟩ := answering_of_resolved hrun.resolved
  have hvalue : Arrives (Turn.attempt (Evaluation.value console.resolver t)) s
      (ofLines lines before) (.ok r) s' (ofLines rest (before ++ acts)) := Arrives.attempt hrun
  cases r with
  | ok x =>
    obtain ⟨rfl, hx⟩ := hr
    refine ⟨true, _, s', rest, hvalue.bind ?_, hrules, .computed hanswering hx⟩
    rw [← List.append_assoc]
    rfl
  | error e =>
    obtain rfl := hr
    refine ⟨false, _, s'.note (.failed source e), rest, hvalue.bind ?_, hrules,
      .failed hanswering⟩
    rw [← List.append_assoc]
    exact arrives_fail source e s' _

/-- A turn on the console of a scene is an exchange. -/
theorem arrives_turn (showTree : Bool) (source : String) (s : Session) (lines : List String)
    (before : List Act) :
    ∃ flag acts s' rest,
      Arrives (Turn.run console.resolver console.write complain showTree source) s
        (ofLines lines before) (.ok flag) s' (ofLines rest (before ++ acts)) ∧
      s'.rules = s.rules ∧
      Exchange s.rules showTree source s.bindings lines acts s'.bindings rest := by
  cases h : Expr.parse s.rules source with
  | error e => exact ⟨false, _, _, lines, arrives_turn_of_error h, rfl, .unparsed h⟩
  | ok t =>
    obtain ⟨flag, acts, s', rest, harrives, hrules, hconcluded⟩ := arrives_conclude t
      (s.parse source).2 source lines (before ++ treeShown showTree t)
    rw [List.append_assoc] at harrives
    exact ⟨flag, _, s', rest, arrives_turn_of_ok h harrives, hrules, .parsed h hconcluded⟩

end Scene

end Calculator
