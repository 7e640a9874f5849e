import Calculator.Proofs.CommandLine.Conversation
import Calculator.Proofs.CommandLine.Items
import Mathlib.Data.List.TakeWhile

/-!
# One expression and the first of many

An expression among the arguments is one turn. On the first line of a dialogue it is the same
turn, from the same session and with the same lines behind it. Turns take no notice of what
was written and read before them.
-/

namespace Calculator

namespace Scene

variable {ε α β : Type} {s s' : Session} {scene scene' : Scene} {showTree : Bool}

/-! ## Steps that do not look back -/

/-- The steps do the same whatever came before. -/
def Oblivious (x : ExceptT ε (StateT Session (StateM Scene)) α) : Prop :=
  ∀ before, ((Similarity.machines (Follows before)).steps ε).rel x x

theorem Oblivious.arrives {x : ExceptT ε (StateT Session (StateM Scene)) α} {r : Except ε α}
    (hx : Oblivious x) (before : List Act) (h : Arrives x s scene r s' scene') :
    Arrives x s { scene with acts := before ++ scene.acts } r s'
      { scene' with acts := before ++ scene'.acts } := by
  have hstart : Follows before scene { scene with acts := before ++ scene.acts } := rfl
  obtain ⟨hresult, hend⟩ := Similarity.runs (hx before) s hstart
  rw [h] at hresult hend
  exact Prod.ext hresult.symm hend

/-- What came before stays as it is. -/
theorem Oblivious.extends {x : ExceptT ε (StateT Session (StateM Scene)) α} (hx : Oblivious x)
    (s : Session) (scene : Scene) :
    ∃ r s' lines acts, Arrives x s scene r s' ⟨lines, scene.acts ++ acts⟩ := by
  obtain ⟨r, s', scene', h⟩ : ∃ r s' scene', Arrives x s ⟨scene.lines, []⟩ r s' scene' :=
    ⟨_, _, _, rfl⟩
  have harrives := hx.arrives scene.acts h
  rw [List.append_nil] at harrives
  exact ⟨r, s', scene'.lines, scene'.acts, harrives⟩

theorem oblivious_turn (showTree : Bool) (source : String) :
    Oblivious (Turn.run console.resolver console.write complain showTree source) :=
  fun before => Similarity.turn (consoles_follows before) (writers_follows before) showTree source

/-- A dialogue with turns to go begins with the prompt. -/
theorem arrives_converse_prompt (showTree : Bool) (count : Nat) (s : Session) (scene : Scene) :
    ∃ r s' lines acts,
      Arrives (Program.converse console complain showTree (count + 1)) s scene r s'
        ⟨lines, scene.acts ++ .wrote (Color.blue.paint "> ") :: acts⟩ := by
  have hrest : Oblivious (do
      if ← Turn.hear console complain showTree then
        Program.converse console complain showTree count) := by
    intro before
    refine ((Similarity.machines _).steps _).bind
      (Similarity.hear (consoles_follows before) (writers_follows before) showTree) fun goesOn => ?_
    cases goesOn with
    | false => exact ((Similarity.machines _).steps _).pure ()
    | true =>
      exact Similarity.converse (consoles_follows before) (writers_follows before) showTree count
  obtain ⟨r, s', lines, acts, h⟩ :=
    hrest.extends s (scene.note (.wrote (Color.blue.paint "> ")))
  refine ⟨r, s', lines, acts, ?_⟩
  rw [Program.converse, Turn.dialogue_eq, bind_assoc]
  rw [note, List.append_assoc] at h
  exact (arrives_prompt s scene).bind h

/-! ## Complaints -/

/-- The same scene, without a complaint. -/
def Quiet (s t : Scene) : Prop :=
  t = s ∧ Act.complaints s.acts = ""

theorem complaints_note (act : Act) (scene : Scene) :
    Act.complaints (scene.note act).acts =
      Act.complaints scene.acts ++ Act.complaints [act] :=
  Act.complaints_append scene.acts [act]

theorem consoles_quiet : (Similarity.machines Quiet).Consoles console console where
  write text := by
    rintro _ scene ⟨rfl, hquiet⟩
    exact ⟨rfl, rfl, (complaints_note _ scene).trans (String.append_empty.trans hquiet)⟩
  readLine := by
    rintro ⟨lines, acts⟩ _ ⟨rfl, hquiet⟩
    have hread (line : Except Fault (Option String)) : Act.complaints (acts ++ [.read line]) = "" :=
      (Act.complaints_append acts [.read line]).trans (String.append_empty.trans hquiet)
    cases lines with
    | nil => exact ⟨rfl, rfl, hread _⟩
    | cons line lines => exact ⟨rfl, rfl, hread _⟩

theorem report_error_ne_empty (source : String) (e : EvalError) : Report.error source e ≠ "" := by
  intro h
  rw [Report.error] at h
  exact absurd (String.append_eq_empty_iff.1 h).2 (by decide)

theorem complaints_failed_ne (source : String) (e : EvalError) (scene : Scene) :
    Act.complaints (scene.note (.complained (Report.error source e))).acts ≠ "" := by
  intro h
  rw [complaints_note] at h
  exact report_error_ne_empty source e
    (String.append_eq_empty_iff.1 (String.append_eq_empty_iff.1 h).2).1

theorem arrives_conclude_quiet (t : Expr) (source : String) (s : Session)
    (hquiet : Act.complaints scene.acts = "") :
    ∃ flag s' scene',
      Arrives (Turn.attempt (Evaluation.value console.resolver t) >>=
          Turn.conclude console.write complain source) s scene (.ok flag) s' scene' ∧
      (flag = true ↔ Act.complaints scene'.acts = "") := by
  obtain ⟨r, s', scene', hrun⟩ :
      ∃ r s' scene', Arrives (Evaluation.value console.resolver t) s scene r s' scene' :=
    ⟨_, _, _, rfl⟩
  have hvalue : Act.complaints scene'.acts = "" := by
    have h := (Similarity.runs (Similarity.value consoles_quiet.resolver t) s ⟨rfl, hquiet⟩).2.2
    rwa [hrun] at h
  cases r with
  | ok x =>
    refine ⟨true, s', scene'.note (.wrote (Report.value x)), hrun.attempt.bind rfl,
      fun _ => ?_, fun _ => rfl⟩
    exact (complaints_note _ scene').trans (String.append_empty.trans hvalue)
  | error e =>
    exact ⟨false, _, _, hrun.attempt.bind (arrives_fail source e s' scene'), nofun,
      fun h => absurd h (complaints_failed_ne source e scene')⟩

/-- A turn has a value to show if and only if it complains of nothing. -/
theorem arrives_turn_quiet (showTree : Bool) (source : String) (s : Session)
    (lines : List (Except Fault String)) :
    ∃ flag s' scene,
      Arrives (Turn.run console.resolver console.write complain showTree source) s ⟨lines, []⟩
        (.ok flag) s' scene ∧
      (flag = true ↔ Act.complaints scene.acts = "") := by
  cases h : Expr.parse s.rules source with
  | error e =>
    exact ⟨false, _, _, arrives_turn_of_error h, nofun,
      fun h => absurd h (complaints_failed_ne source (.parse e) ⟨lines, []⟩)⟩
  | ok t =>
    have hquiet : Act.complaints (Scene.mk lines (treeShown showTree t)).acts = "" := by
      cases showTree <;> rfl
    obtain ⟨flag, s', scene, harrives, hflag⟩ :=
      arrives_conclude_quiet t source (s.parse source).2 hquiet
    exact ⟨flag, s', scene, arrives_turn_of_ok h harrives, hflag⟩

end Scene

/-! ## Two runs -/

namespace Text

theorem isBlank_of_isLineEnd {c : Char} (h : Device.isLineEnd c = true) : isBlank c = true := by
  rw [Device.isLineEnd, Bool.or_eq_true, beq_iff_eq, beq_iff_eq] at h
  rcases h with rfl | rfl <;> rfl

/-- A text without blanks at its ends has no line end there. -/
theorem trimEnd_isLineEnd_of_trim {cs : List Char} (h : trim cs = cs) :
    trimEnd Device.isLineEnd cs = cs := by
  -- the two ends are cut one after the other, so that nothing is cut at either
  have hlength : cs.length ≤ (cs.dropWhile isBlank).length := by
    have happend := congrArg List.length (trimEnd_append isBlank (cs.dropWhile isBlank))
    rw [← trim, h, List.length_append] at happend
    omega
  rw [trim, (List.dropWhile_suffix isBlank).eq_of_length_le hlength, trimEnd,
    List.reverse_eq_iff] at h
  rw [trimEnd, List.reverse_eq_iff, List.dropWhile_eq_self_iff]
  exact fun hne hend => List.dropWhile_eq_self_iff.1 h hne (isBlank_of_isLineEnd hend)

end Text

namespace Scene

variable {program : String} {o : Options} {source : String} {flag : Bool} {s : Session}
  {scene : Scene} {input : List UInt8}

/-- With an expression, a run is one turn, and its status tells how the turn went. -/
theorem run_of_arrives_turn {args : List String}
    (hargs : Request.ofArguments args = .ok (.calculate o)) (hsource : o.expression? = some source)
    (hturn : Arrives (Turn.run console.resolver console.write complain o.showTree source)
      (Program.session o) ⟨Device.lines input, []⟩ (.ok flag) s scene) :
    run program args input = (if flag then 0 else 1, scene) := by
  have hcalculate (turns : Bool → Faulty (StateM Scene) Unit) :
      Arrives (Program.calculate console complain turns o) (Program.session o)
        ⟨Device.lines input, []⟩ (.ok (if flag then 0 else 1)) s scene := by
    rw [Program.calculate, hsource]
    exact hturn.bind rfl
  exact run_of_arrives hargs (hcalculate _)

/-- The acts of a dialogue up to its first line. -/
def opening (line : String) : List Act :=
  [.wrote "Enter expression:\n", .wrote (Color.blue.paint "> "), .read (.ok (some line))]

theorem written_opening (line : String) :
    Act.written (opening line) = "Enter expression:\n" ++ Color.blue.paint "> " :=
  congrArg ("Enter expression:\n" ++ ·) String.append_empty

/-- Without an expression, the first line is the turn of a run, and then comes a prompt. -/
theorem run_of_arrives_first {args : List String}
    (hargs : Request.ofArguments args = .ok (.calculate o)) (hwords : o.expression? = none)
    (hline : '\n' ∉ source.toList) (htrim : Text.trim source.toList = source.toList)
    (hsource : source ∉ ["", "exit", "quit"])
    (hturn : Arrives (Turn.run console.resolver console.write complain o.showTree source)
      (Program.session o) ⟨Device.lines input, []⟩ (.ok flag) s scene) :
    ∃ acts, (run program args (Text.bytes source ++ Device.newline :: input)).2.acts =
      opening source ++ scene.acts ++ .wrote (Color.blue.paint "> ") :: acts := by
  have hlines : Device.lines (Text.bytes source ++ Device.newline :: input) =
      .ok source :: Device.lines input := by
    rw [Device.lines_bytes_append hline, Text.trimEnd_isLineEnd_of_trim htrim, String.ofList_toList]
  have htrimmed : Text.trimmed source = source := by
    rw [Text.trimmed, htrim, String.ofList_toList]
  have hafter : Arrives
      (Turn.run console.resolver console.write complain o.showTree (Text.trimmed source))
      (Program.session o) ⟨Device.lines input, opening source⟩ (.ok flag) s
      ⟨scene.lines, opening source ++ scene.acts⟩ := by
    rw [htrimmed]
    exact (oblivious_turn o.showTree source).arrives (opening source) hturn
  have hfirst : Arrives (Turn.dialogue console complain o.showTree) (Program.session o)
      ⟨.ok source :: Device.lines input, [.wrote "Enter expression:\n"]⟩ (.ok true) s
      ⟨scene.lines, opening source ++ scene.acts⟩ :=
    arrives_dialogue_turn (htrimmed.symm ▸ hsource) hafter
  -- the newline alone leaves a turn for the second prompt
  obtain ⟨count, hcount⟩ : ∃ count,
      (Text.bytes source ++ Device.newline :: input).length = count + 1 := by
    rw [List.length_append, List.length_cons]
    exact ⟨_, rfl⟩
  obtain ⟨r, s', lines, acts, hrest⟩ := arrives_converse_prompt o.showTree count s
    ⟨scene.lines, opening source ++ scene.acts⟩
  have hcalculate : Arrives (Program.calculate console complain
      (fun showTree => Program.converse console complain showTree (count + 1 + 1)) o)
      (Program.session o) ⟨.ok source :: Device.lines input, []⟩ (r.map fun _ => 0) s' _ :=
    arrives_calculate_none r hwords (hfirst.bind hrest)
  rw [run, hlines, hcount, run_of_arrives hargs hcalculate]
  cases r with
  | ok u => exact ⟨acts, rfl⟩
  | error fault =>
    refine ⟨acts ++ [.complained (Program.obituary fault)], ?_⟩
    rw [← List.cons_append, ← List.append_assoc]
    rfl

end Scene

/-- An expression among the arguments and on the first line of a dialogue is the same turn. What
it shows stands between the first two prompts, and it fails if and only if it complains. -/
theorem run_expression_like_first_line (program : String) {opts : List String} {o : Options}
    (hopts : Request.ofArguments opts = .ok (.calculate o)) (hwords : o.expression? = none)
    (hend : "--" ∉ opts) {e : String} (hne : e ≠ "") (hline : '\n' ∉ e.toList)
    (htrim : Text.trim e.toList = e.toList) (hexit : e ≠ "exit") (hquit : e ≠ "quit")
    (input : List UInt8) :
    let (status, alone) := Streams.run program (opts ++ ["--", e]) input
    let (_, dialogue) := Streams.run program opts (Text.bytes e ++ Device.newline :: input)
    (∃ more, dialogue.device.output.accepted =
      ("Enter expression:\n" ++ Color.blue.paint "> ").toUTF8 ++ alone.device.output.accepted ++
        (Color.blue.paint "> ").toUTF8 ++ more) ∧
      (∃ more, dialogue.errors.accepted = alone.errors.accepted ++ more) ∧
      (status = 0 ∨ status = 1) ∧ (status = 1 ↔ alone.errors.accepted ≠ .empty) := by
  have hargs : Request.ofArguments (opts ++ ["--", e]) = .ok (.calculate (o.addWords [e])) := by
    rw [Request.ofArguments, Options.read_append hopts hend, Options.read_end]
  obtain ⟨flag, s, scene, hturn, hflag⟩ :=
    Scene.arrives_turn_quiet o.showTree e (Program.session o) (Device.lines input)
  have halone : Scene.run program (opts ++ ["--", e]) input = (if flag then 0 else 1, scene) :=
    Scene.run_of_arrives_turn hargs (Options.expression?_addWords hwords e) hturn
  obtain ⟨acts, hacts⟩ : ∃ acts,
      (Scene.run program opts (Text.bytes e ++ Device.newline :: input)).2.acts =
        Scene.opening e ++ scene.acts ++ .wrote (Color.blue.paint "> ") :: acts :=
    Scene.run_of_arrives_first hopts hwords hline htrim (by simp [hne, hexit, hquit]) hturn
  obtain ⟨hstatus, left, -, hshown⟩ := Scene.run_shows program (opts ++ ["--", e]) input
  obtain ⟨-, left', -, hshown'⟩ :=
    Scene.run_shows program opts (Text.bytes e ++ Device.newline :: input)
  rw [halone] at hstatus hshown
  rw [hacts] at hshown'
  dsimp only at hstatus hshown hshown' ⊢
  rw [hshown, hshown', ← hstatus]
  refine ⟨⟨(Act.written acts).toUTF8, ?_⟩, ⟨(Act.complaints acts).toUTF8, ?_⟩, ?_, ?_⟩
  · rw [Streams.shown, Act.written_append, Act.written_append, Scene.written_opening, Act.written,
      ← String.append_assoc]
    rfl
  · have hopening : Act.complaints (Scene.opening e) = "" := rfl
    rw [Streams.shown, Act.complaints_append, Act.complaints_append, hopening,
      String.empty_append]
    rfl
  · cases flag
    · exact .inr rfl
    · exact .inl rfl
  · have hempty : (Streams.shown left scene.acts).errors.accepted = .empty ↔ flag = true :=
      String.toByteArray_eq_empty_iff.trans hflag.symm
    rw [ne_eq, hempty]
    cases flag <;> simp

theorem run_expression_like_first_line_negated :
    let (status, alone) := Streams.run "calculator" (["--ast"] ++ ["--", "-a"]) (Text.bytes "5\n")
    let (_, dialogue) := Streams.run "calculator" ["--ast"]
      (Text.bytes "-a" ++ Device.newline :: Text.bytes "5\n")
    (∃ more, dialogue.device.output.accepted =
      ("Enter expression:\n" ++ Color.blue.paint "> ").toUTF8 ++ alone.device.output.accepted ++
        (Color.blue.paint "> ").toUTF8 ++ more) ∧
      (∃ more, dialogue.errors.accepted = alone.errors.accepted ++ more) ∧
      (status = 0 ∨ status = 1) ∧ (status = 1 ↔ alone.errors.accepted ≠ .empty) := by
  have hopts : Request.ofArguments ["--ast"] = .ok (.calculate { showTree := true }) := rfl
  exact run_expression_like_first_line "calculator" hopts rfl (by decide) (by decide) (by decide)
    (by decide) (by decide) (by decide) (Text.bytes "5\n")

end Calculator
