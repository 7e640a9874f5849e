import Calculator.Proofs.CommandLine.Outputs
import Calculator.Proofs.Session.Places
import Calculator.Proofs.Terminal.Lines

/-!
# The caret of a report

A report of an error ends with the line of the text and a line with a caret. All that stands
before the column of the error is one cell wide, so that the caret is under the place that the
error points to, whatever characters follow.
-/

namespace Calculator

namespace Text

/-- The characters outside of control sequences, for a text that begins inside or outside of
one. -/
def plainFrom : Bool → List Char → List Char
  | _, [] => []
  | true, c :: cs => plainFrom (c != 'm') cs
  | false, c :: cs => if c == '\x1b' then plainFrom true cs else c :: plainFrom false cs

/-- What is seen of a text with colours. -/
def plain (cs : List Char) : List Char :=
  plainFrom false cs

theorem plain_append {cs : List Char} (h : '\x1b' ∉ cs) (ds : List Char) :
    plain (cs ++ ds) = cs ++ plain ds := by
  induction cs with
  | nil => rfl
  | cons c cs ih =>
    obtain ⟨hc, hcs⟩ := List.ne_and_not_mem_of_not_mem_cons h
    have hplain : plainFrom false (c :: (cs ++ ds)) = c :: plainFrom false (cs ++ ds) :=
      if_neg (by simpa using Ne.symm hc)
    exact hplain.trans (congrArg (c :: ·) (ih hcs))

/-- How many cells of a terminal the characters take up. -/
def cells (width : Char → Nat) : List Char → Nat
  | [] => 0
  | c :: cs => width c + cells width cs

theorem cells_eq_length {width : Char → Nat}
    (hwidth : ∀ c, isGrammarChar c = true → width c = 1) {cs : List Char}
    (hcs : ∀ c ∈ cs, isGrammarChar c = true) : cells width cs = cs.length := by
  induction cs with
  | nil => rfl
  | cons c cs ih =>
    obtain ⟨hc, hcs⟩ := List.forall_mem_cons.1 hcs
    rw [cells, hwidth c hc, ih hcs, List.length_cons, Nat.add_comm]

/-- Under characters of the grammar there is a space for each. -/
theorem cells_under {width : Char → Nat} (hwidth : ∀ c, isGrammarChar c = true → width c = 1)
    {cs : List Char} (hcs : ∀ c ∈ cs, isGrammarChar c = true) :
    cells width (' ' :: ' ' :: cs) =
      cells width (List.replicate (cs.length + 1 + 1) ' ') := by
  have hleft : ∀ c ∈ ' ' :: ' ' :: cs, isGrammarChar c = true :=
    List.forall_mem_cons.2 ⟨rfl, List.forall_mem_cons.2 ⟨rfl, hcs⟩⟩
  have hright : ∀ c ∈ List.replicate (cs.length + 1 + 1) ' ', isGrammarChar c = true := by
    intro c hc
    rw [List.eq_of_mem_replicate hc]
    rfl
  rw [cells_eq_length hwidth hleft, cells_eq_length hwidth hright, List.length_replicate]
  rfl

end Text

namespace Report

/-- The line under the text. -/
def caretLine (column : Nat) : List Char :=
  List.replicate (column + 1) ' ' ++ (Color.yellow.paintBold "^").toList

theorem newline_notMem_caretLine (column : Nat) : '\n' ∉ caretLine column := by
  intro h
  rcases List.mem_append.1 h with h | h
  · exact absurd (List.eq_of_mem_replicate h) (by decide)
  · exact absurd h (by decide +kernel)

theorem plain_caretLine (column : Nat) :
    Text.plain (caretLine column) = List.replicate (column + 1) ' ' ++ ['^'] := by
  have hspaces : '\x1b' ∉ List.replicate (column + 1) ' ' := fun h =>
    absurd (List.eq_of_mem_replicate h) (by decide)
  have hcaret : Text.plain (Color.yellow.paintBold "^").toList = ['^'] := by decide +kernel
  rw [caretLine, Text.plain_append hspaces, hcaret]

theorem toList_error (source : String) {e : EvalError} (h : 1 ≤ e.column) :
    (error source e).toList = (Color.red.paint e.message).toList ++
      '\n' :: ((' ' :: ' ' :: source.toList) ++ '\n' :: (caretLine e.column ++ ['\n'])) := by
  have hspaces : List.replicate (e.column + 1) ' ' =
      ' ' :: ' ' :: List.replicate (e.column - 1) ' ' := by
    have hcolumn : e.column + 1 = 2 + (e.column - 1) := by omega
    rw [hcolumn, List.replicate_add]
    rfl
  rw [caretLine, hspaces]
  simp [error]

theorem beq_newline_of_notMem {cs : List Char} (h : '\n' ∉ cs) : ∀ c ∈ cs, (c == '\n') = false :=
  fun _ hc => beq_eq_false_iff_ne.2 fun heq => h (heq ▸ hc)

/-- The last two lines of a report. -/
theorem pieces_error {source : String} (hsource : '\n' ∉ source.toList) {e : EvalError}
    (h : 1 ≤ e.column) :
    ∃ head, Text.pieces (· == '\n') (error source e).toList =
      head ++ [' ' :: ' ' :: source.toList, caretLine e.column] := by
  have hline : ∀ c ∈ ' ' :: ' ' :: source.toList, (c == '\n') = false :=
    beq_newline_of_notMem (by simpa using hsource)
  have hcaret : ∀ c ∈ caretLine e.column, (c == '\n') = false :=
    beq_newline_of_notMem (newline_notMem_caretLine e.column)
  refine ⟨Text.pieces (· == '\n') ((Color.red.paint e.message).toList ++ ['\n']), ?_⟩
  rw [toList_error source h, Text.pieces_append_cons_end rfl, Text.pieces_append_end hline rfl,
    Text.pieces_append_end hcaret rfl]
  rfl

end Report

namespace Stage

variable {σ : Type}

/-- A turn that fails shows the text, and under it a caret at the place of the error: behind
characters of the grammar only, and where the variable begins if the error is about one. -/
theorem run_caret (ask : Resolver (StateM σ)) (showTree : Bool) (session : Session) (st : σ)
    {source : String} (hsource : '\n' ∉ source.toList) :
    let ((outcome, _), _) := ((Evaluation.evaluate ask source).run.run session).run st
    let ((status, _), stage) := run ask showTree source session { state := st }
    status = .ok outcome.isOk ∧ ∀ e, outcome = .error e →
      let before := source.toList.take (e.column - 1)
      let after := source.toList.drop (e.column - 1)
      (∃ (text : String) (head : List (List Char)) (caret : List Char),
        stage.err.accepted = text.toUTF8 ∧
        Text.pieces (· == '\n') text.toList = head ++ [' ' :: ' ' :: source.toList, caret] ∧
        Text.plain caret = List.replicate (e.column + 1) ' ' ++ ['^']) ∧
      1 ≤ e.column ∧ e.column ≤ source.length + 1 ∧
      (∀ c ∈ before, isGrammarChar c = true) ∧
      (∀ width : Char → Nat, (∀ c, isGrammarChar c = true → width c = 1) →
        Text.cells width (' ' :: ' ' :: before) =
          Text.cells width (List.replicate (e.column + 1) ' ')) ∧
      ∀ name ∈ e.variable?, Stands name before after := by
  obtain ⟨outcome, session₁, st₁, h⟩ : ∃ outcome session₁ st₁,
      Arrives (Evaluation.evaluate ask source) session st outcome session₁ st₁ :=
    ⟨_, _, _, rfl⟩
  have htree : Turn.treeLine showTree (Expr.parse session.rules source) = _ := rfl
  obtain ⟨session', -, hturn⟩ := arrives_turn (N := none) (M := none) htree rfl h
  rw [holding_empty] at hturn
  have hrun : run ask showTree source session { state := st } = _ := hturn
  rw [h, hrun]
  refine ⟨rfl, ?_⟩
  rintro e rfl
  intro before after
  obtain ⟨hcolumn, hgrammar, hname⟩ := (EvalError.pointsInto_of_evaluate h).at_column
  have hone : 1 ≤ e.column := hcolumn ▸ Nat.le_add_left 1 _
  have hbehind : e.column ≤ source.length + 1 := by
    rw [← hcolumn, ← String.length_toList]
    exact Nat.succ_le_succ (List.length_take_le' _ _)
  obtain ⟨head, hlines⟩ := Report.pieces_error hsource hone
  refine ⟨⟨_, head, _, rfl, hlines, Report.plain_caretLine e.column⟩, hone, hbehind, hgrammar,
    fun width hwidth => ?_, hname⟩
  rw [Text.cells_under hwidth hgrammar, hcolumn]

theorem run_caret_rate :
    '\n' ∉ "2 * rate".toList ∧
      let stage := (run Script.resolver false "2 * rate" {} { state := .ofPairs [] }).2
      ∃ (text : String) (head : List (List Char)) (caret : List Char),
        stage.err.accepted = text.toUTF8 ∧
        Text.pieces (· == '\n') text.toList = head ++ ["  2 * rate".toList, caret] ∧
        Text.plain caret = "      ^".toList ∧ Stands "rate" "2 * ".toList "rate".toList := by
  have hsource : '\n' ∉ "2 * rate".toList := by decide
  refine ⟨hsource, ?_⟩
  obtain ⟨-, hfails⟩ := run_caret Script.resolver false {} (.ofPairs []) hsource
  obtain ⟨⟨text, head, caret, htext, hlines, hcaret⟩, -, -, -, -, hstands⟩ :=
    hfails (.unresolved "rate" "no scripted value for 'rate'" 5) (by decide +kernel)
  exact ⟨text, head, caret, htext, hlines, hcaret, hstands "rate" rfl⟩

end Stage

end Calculator
