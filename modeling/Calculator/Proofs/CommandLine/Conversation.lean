import Calculator.Proofs.CommandLine.Exchange

/-!
# Conversations

A dialogue takes the lines of its input one after the other. A line behind the prompt is an
expression or the end, and the lines behind an expression answer the questions for its
variables, whatever they say. The bindings go from each expression to the next.
-/

namespace Calculator

/-- What a line behind the prompt says. -/
def Text.trimmed (line : String) : String :=
  String.ofList (trim line.toList)

/-- The acts of a dialogue, with the lines that are left at its end. -/
inductive Conversation (rules : Rules) (showTree : Bool) :
    Bindings → List String → List Act → List String → Prop where
  | ended {b : Bindings} :
      Conversation rules showTree b [] [.wrote (Color.blue.paint "> "), .read (.ok none)] []
  | farewell {b : Bindings} {line : String} {lines : List String}
      (hline : Text.trimmed line ∈ ["", "exit", "quit"]) :
      Conversation rules showTree b (line :: lines)
        [.wrote (Color.blue.paint "> "), .read (.ok (some line))] lines
  | turn {b b' : Bindings} {line : String} {lines lines' rest : List String}
      {acts acts' : List Act} (hline : Text.trimmed line ∉ ["", "exit", "quit"])
      (hexchange : Exchange rules showTree (Text.trimmed line) b lines acts b' lines')
      (hrest : Conversation rules showTree b' lines' acts' rest) :
      Conversation rules showTree b (line :: lines)
        (.wrote (Color.blue.paint "> ") :: .read (.ok (some line)) :: (acts ++ acts')) rest

/-- A conversation takes the first lines, in their order. -/
theorem Conversation.heard {rules : Rules} {showTree : Bool} {b : Bindings}
    {lines rest : List String} {acts : List Act}
    (h : Conversation rules showTree b lines acts rest) : lines = Act.heard acts ++ rest := by
  induction h with
  | ended => rfl
  | farewell hline => rfl
  | @turn b b' line lines lines' rest acts acts' hline hexchange hrest ih =>
    have hlines : lines = Act.heard (acts ++ acts') ++ rest := by
      rw [Act.heard_append, List.append_assoc, ← ih, ← hexchange.heard]
    exact congrArg (line :: ·) hlines

theorem isFarewell_iff {line : String} :
    Turn.isFarewell line = true ↔ line ∈ ["", "exit", "quit"] := by
  simp [Turn.isFarewell, or_assoc]

namespace Scene

variable {showTree : Bool} {s : Session} {before : List Act}

/-! ## Dialogues on the console of a scene -/

theorem arrives_prompt (s : Session) (scene : Scene) :
    Arrives (Turn.outside (console.prompt "> ")) s scene (.ok ()) s
      (scene.note (.wrote (Color.blue.paint "> "))) := rfl

theorem arrives_dialogue_nil :
    Arrives (Turn.dialogue console complain showTree) s (ofLines [] before) (.ok false) s
      (ofLines [] (before ++ [.wrote (Color.blue.paint "> "), .read (.ok none)])) := by
  rw [← List.singleton_append, ← List.append_assoc]
  exact (arrives_prompt s (ofLines [] before)).bind rfl

/-- What follows on a line behind the prompt. -/
theorem arrives_dialogue_cons {line : String} {lines : List (Except Fault String)}
    {r : Except Fault Bool} {s' : Session} {scene : Scene}
    (h : Arrives (if Turn.isFarewell (Text.trimmed line) then return false else do
        let _ ← Turn.run console.resolver console.write complain showTree (Text.trimmed line)
        return true : Faulty (StateM Scene) Bool) s
      ⟨lines, before ++ [.wrote (Color.blue.paint "> "), .read (.ok (some line))]⟩ r s' scene) :
    Arrives (Turn.dialogue console complain showTree) s ⟨.ok line :: lines, before⟩ r s' scene := by
  rw [← List.singleton_append, ← List.append_assoc] at h
  have hread : Arrives (Turn.outside console.readLine) s
    ⟨.ok line :: lines, before ++ [.wrote (Color.blue.paint "> ")]⟩ (.ok (some line)) s
    ⟨lines, before ++ [.wrote (Color.blue.paint "> ")] ++ [.read (.ok (some line))]⟩ := rfl
  exact (arrives_prompt s ⟨.ok line :: lines, before⟩).bind (hread.bind h)

theorem arrives_dialogue_farewell {line : String} {lines : List (Except Fault String)}
    (hline : Text.trimmed line ∈ ["", "exit", "quit"]) :
    Arrives (Turn.dialogue console complain showTree) s ⟨.ok line :: lines, before⟩ (.ok false) s
      ⟨lines, before ++ [.wrote (Color.blue.paint "> "), .read (.ok (some line))]⟩ := by
  refine arrives_dialogue_cons ?_
  rw [if_pos (isFarewell_iff.2 hline)]
  rfl

theorem arrives_dialogue_turn {line : String} {lines : List (Except Fault String)} {flag : Bool}
    {s' : Session} {scene : Scene} (hline : Text.trimmed line ∉ ["", "exit", "quit"])
    (hturn : Arrives
      (Turn.run console.resolver console.write complain showTree (Text.trimmed line)) s
      ⟨lines, before ++ [.wrote (Color.blue.paint "> "), .read (.ok (some line))]⟩ (.ok flag) s'
      scene) :
    Arrives (Turn.dialogue console complain showTree) s ⟨.ok line :: lines, before⟩ (.ok true) s'
      scene := by
  refine arrives_dialogue_cons ?_
  rw [if_neg (mt isFarewell_iff.1 hline)]
  exact hturn.bind rfl

/-- With more turns than lines, a dialogue goes on to its end. -/
theorem arrives_converse (showTree : Bool) {count : Nat} (s : Session) {lines : List String}
    (hcount : lines.length < count) (before : List Act) :
    ∃ acts s' rest,
      Arrives (Program.converse console complain showTree count) s (ofLines lines before) (.ok ())
        s' (ofLines rest (before ++ acts)) ∧
      Conversation s.rules showTree s.bindings lines acts rest := by
  -- every turn but the last takes a line, and no exchange gives one back
  induction count generalizing s lines before with
  | zero => exact absurd hcount (Nat.not_lt_zero _)
  | succ count ih =>
    cases lines with
    | nil => exact ⟨_, s, [], arrives_dialogue_nil.bind rfl, .ended⟩
    | cons line lines =>
      by_cases hline : Text.trimmed line ∈ ["", "exit", "quit"]
      · exact ⟨_, s, lines, (arrives_dialogue_farewell hline).bind rfl, .farewell hline⟩
      · obtain ⟨flag, acts, s₁, lines', hturn, hrules, hexchange⟩ :=
          arrives_turn showTree (Text.trimmed line) s lines
            (before ++ [.wrote (Color.blue.paint "> "), .read (.ok (some line))])
        have hfewer : lines'.length < count := by
          have hheard := congrArg List.length hexchange.heard
          rw [List.length_append] at hheard
          rw [List.length_cons] at hcount
          omega
        rw [List.append_assoc] at hturn
        obtain ⟨acts', s₂, rest, harrives, hconversation⟩ := ih s₁ hfewer
          (before ++ ([.wrote (Color.blue.paint "> "), .read (.ok (some line))] ++ acts))
        rw [hrules] at hconversation
        rw [List.append_assoc] at harrives
        exact ⟨_, s₂, rest, (arrives_dialogue_turn hline hturn).bind harrives,
          .turn hline hexchange hconversation⟩

/-! ## Runs on the console of a scene -/

section Runs

variable {program : String} {args : List String} {o : Options}
  {turns : Bool → Faulty (StateM Scene) Unit} {s' : Session} {scene scene' scene'' : Scene}

/-- How a run ends: the last act of one that a fault ends is a complaint. -/
def finish : Except Fault Nat → Scene → Nat × Scene
  | .ok status, scene => (status, scene)
  | .error fault, scene => (1, scene.note (.complained (Program.obituary fault)))

theorem run_of_arrives {r : Except Fault Nat}
    (hargs : Request.ofArguments args = .ok (.calculate o))
    (h : Arrives (Program.calculate console complain turns o) (Program.session o) scene r s'
      scene') :
    (Program.run program console complain turns args).run scene = finish r scene' := by
  have hcalculate : ((Program.calculate console complain turns o).run.run' (Program.session o)).run
      scene = (r, scene') :=
    congrArg (fun p : (Except Fault Nat × Session) × Scene => (p.1.1, p.2)) h
  rw [Program.run, hargs]
  dsimp only
  rw [StateT.run_bind, hcalculate]
  cases r <;> rfl

/-- Without an expression, the turns follow on the words that ask for one. -/
theorem arrives_calculate_none (r : Except Fault Unit) (hwords : o.expression? = none)
    (h : Arrives (turns o.showTree) (Program.session o)
      (scene.note (.wrote "Enter expression:\n")) r s' scene') :
    Arrives (Program.calculate console complain turns o) (Program.session o) scene
      (r.map fun _ => 0) s' scene' := by
  have hwrite : Arrives (Turn.outside (console.write "Enter expression:\n")) (Program.session o)
    scene (.ok ()) (Program.session o) (scene.note (.wrote "Enter expression:\n")) := rfl
  rw [Program.calculate, hwords]
  refine hwrite.bind ?_
  rw [Arrives, ExceptT.run_bind, StateT.run_bind, StateT.run_bind, h]
  cases r <;> rfl

end Runs

end Scene

/-- Without an expression among the arguments, a run is a conversation with the lines of its
input and ends with success. -/
theorem run_conversation (program : String) {args : List String} {o : Options}
    (hargs : Request.ofArguments args = .ok (.calculate o)) (hwords : o.expression? = none)
    (text : String) :
    ∃ acts rest left,
      Conversation { strict := o.strict } o.showTree o.bindings (Text.lines text) acts rest ∧
      Text.lines text = Act.heard acts ++ rest ∧
      Scene.run program args (Text.bytes text) =
        (0, .ofLines rest (.wrote "Enter expression:\n" :: acts)) ∧
      Streams.run program args (Text.bytes text) =
        (0, .shown left (.wrote "Enter expression:\n" :: acts)) ∧
      Device.lines left = rest.map .ok := by
  have hcount : (Text.lines text).length < (Text.bytes text).length + 1 := by
    have hle := Device.length_lines_le (Text.bytes text)
    rw [Device.lines_bytes, List.length_map] at hle
    exact Nat.lt_succ_of_le hle
  obtain ⟨acts, s', rest, harrives, hconversation⟩ := Scene.arrives_converse o.showTree
    (Program.session o) hcount [.wrote "Enter expression:\n"]
  have hscene : Scene.run program args (Text.bytes text) =
      (0, .ofLines rest (.wrote "Enter expression:\n" :: acts)) := by
    let turns (showTree : Bool) := Program.converse Scene.console Scene.complain showTree
      ((Text.bytes text).length + 1)
    have hcalculate : Arrives (Program.calculate Scene.console Scene.complain turns o)
      (Program.session o) (.ofLines (Text.lines text) []) (.ok 0) s'
      (.ofLines rest (.wrote "Enter expression:\n" :: acts)) :=
        Scene.arrives_calculate_none (.ok ()) hwords harrives
    rw [Scene.run, Device.lines_bytes]
    exact Scene.run_of_arrives hargs hcalculate
  obtain ⟨hstatus, left, hleft, hshown⟩ := Scene.run_shows program args (Text.bytes text)
  rw [hscene] at hstatus hleft hshown
  exact ⟨acts, rest, left, hconversation, hconversation.heard, hscene,
    Prod.ext hstatus.symm hshown, hleft⟩

/-- The expression `a + b`, an answer, an answer that is no number, and the end. -/
def halfAnswered : String :=
  "a + b\n2\nexit\nexit\n1\n"

example :
    (Act.heard (Scene.run "calculator" [] (Text.bytes halfAnswered)).2.acts) =
      ["a + b", "2", "exit", "exit"] := by
  decide +kernel

theorem run_conversation_halfAnswered :
    ∃ acts rest left,
      Conversation { strict := true } false ∅ (Text.lines halfAnswered) acts rest ∧
      Text.lines halfAnswered = Act.heard acts ++ rest ∧
      Scene.run "calculator" ["--strict"] (Text.bytes halfAnswered) =
        (0, .ofLines rest (.wrote "Enter expression:\n" :: acts)) ∧
      Streams.run "calculator" ["--strict"] (Text.bytes halfAnswered) =
        (0, .shown left (.wrote "Enter expression:\n" :: acts)) ∧
      Device.lines left = rest.map .ok := by
  have hargs : Request.ofArguments ["--strict"] = .ok (.calculate { strict := true }) := rfl
  exact run_conversation "calculator" hargs rfl halfAnswered

end Calculator
