import Calculator.Proofs.CommandLine.Similarity
import Calculator.Proofs.Terminal.Lines

/-!
# Scenes

A run as a list of acts: texts that are written, texts on the stream for errors, and lines
that are read. The console of a scene has the lines of the input that are still to be read and
keeps the acts in their order. The streams of a run show what is written in the scene of the
run, and the lines left on them are the lines left in the scene.
-/

namespace Calculator

inductive Act where
  | wrote (text : String)
  | complained (text : String)
  /-- There is no line at the end of the input. -/
  | read (line : Except Fault (Option String))

namespace Act

/-- All that is written. -/
def written : List Act → String
  | [] => ""
  | wrote text :: acts => text ++ written acts
  | complained _ :: acts => written acts
  | read _ :: acts => written acts

/-- All that is written on the stream for errors. -/
def complaints : List Act → String
  | [] => ""
  | wrote _ :: acts => complaints acts
  | complained text :: acts => text ++ complaints acts
  | read _ :: acts => complaints acts

def heard? : Act → Option String
  | read (.ok line) => line
  | _ => none

/-- The lines that are read. -/
def heard (acts : List Act) : List String :=
  acts.filterMap heard?

theorem written_append (acts acts' : List Act) :
    written (acts ++ acts') = written acts ++ written acts' := by
  induction acts with
  | nil => exact String.empty_append.symm
  | cons act acts ih =>
    cases act with
    | wrote text => rw [List.cons_append, written, written, ih, String.append_assoc]
    | complained text => exact ih
    | read line => exact ih

theorem complaints_append (acts acts' : List Act) :
    complaints (acts ++ acts') = complaints acts ++ complaints acts' := by
  induction acts with
  | nil => exact String.empty_append.symm
  | cons act acts ih =>
    cases act with
    | wrote text => exact ih
    | complained text => rw [List.cons_append, complaints, complaints, ih, String.append_assoc]
    | read line => exact ih

theorem heard_append (acts acts' : List Act) : heard (acts ++ acts') = heard acts ++ heard acts' :=
  List.filterMap_append

end Act

/-- The lines still to be read, and what happened so far. -/
structure Scene where
  lines : List (Except Fault String)
  acts : List Act := []

namespace Scene

def note (act : Act) (s : Scene) : Scene :=
  { s with acts := s.acts ++ [act] }

def console : Console (StateM Scene) where
  write text s := (.ok (), s.note (.wrote text))
  readLine s :=
    match s.lines with
    | [] => (.ok none, s.note (.read (.ok none)))
    | line :: lines => (line.map some, note (.read (line.map some)) { s with lines })

def complain : Writer (StateM Scene) := fun text s =>
  (.ok (), s.note (.complained text))

/-- Runs the program with the lines of the given input, for as many turns as on the streams. -/
def run (program : String) (args : List String) (input : List UInt8) : Nat × Scene :=
  let turns (showTree : Bool) := Program.converse console complain showTree (input.length + 1)
  (Program.run program console complain turns args).run { lines := Device.lines input }

end Scene

/-! ## What the streams show -/

namespace Streams

/-- Streams with some input left on which the acts have left what they write. -/
def shown (input : List UInt8) (acts : List Act) : Streams where
  device := { input, output := { accepted := (Act.written acts).toUTF8 } }
  errors := { accepted := (Act.complaints acts).toUTF8 }

variable {input : List UInt8} {acts : List Act}

theorem shown_read (input : List UInt8) (acts : List Act) (line : Except Fault (Option String)) :
    shown input (acts ++ [.read line]) = shown input acts := by
  simp only [shown, Act.written_append, Act.complaints_append, Act.written, Act.complaints,
    String.append_empty]

/-- A sink that holds a text takes on more text. -/
theorem write_held (held text : String) :
    Sink.write text { accepted := held.toUTF8 } = (.ok (), { accepted := (held ++ text).toUTF8 }) :=
  Sink.write_of_unlimited text rfl

theorem write_shown (text : String) :
    (console.write text).run (shown input acts) =
      (.ok (), shown input (acts ++ [.wrote text])) := by
  simp only [shown, Act.written_append, Act.complaints_append, Act.written, Act.complaints,
    String.append_empty]
  exact congrArg (fun p : Except Fault Unit × Sink =>
    (p.1, Streams.mk ⟨input, p.2⟩ { accepted := (Act.complaints acts).toUTF8 }))
    (write_held (Act.written acts) text)

theorem writeError_shown (text : String) :
    (writeError text).run (shown input acts) =
      (.ok (), shown input (acts ++ [.complained text])) := by
  simp only [shown, Act.written_append, Act.complaints_append, Act.written, Act.complaints,
    String.append_empty]
  exact congrArg (fun p : Except Fault Unit × Sink =>
    (p.1, Streams.mk ⟨input, { accepted := (Act.written acts).toUTF8 }⟩ p.2))
    (write_held (Act.complaints acts) text)

theorem readLine_shown_nil (h : Device.lines input = []) :
    console.readLine.run (shown input acts) =
      (.ok none, shown input (acts ++ [.read (.ok none)])) := by
  have hread : (shown input acts).device.readLine = (.ok none, (shown input acts).device) :=
    Device.readLine_of_lines_nil h
  rw [shown_read]
  exact congrArg (fun p : Except Fault (Option String) × Device =>
    (p.1, Streams.mk p.2 (shown input acts).errors)) hread

theorem readLine_shown_cons {line : Except Fault String} {rest : List (Except Fault String)}
    (h : Device.lines input = line :: rest) :
    ∃ input', Device.lines input' = rest ∧
      console.readLine.run (shown input acts) =
        (line.map some, shown input' (acts ++ [.read (line.map some)])) := by
  have hlines : Device.lines (shown input acts).device.input = line :: rest := h
  obtain ⟨input', hread, hrest⟩ := Device.readLine_of_lines_cons hlines
  refine ⟨input', hrest, ?_⟩
  rw [shown_read]
  exact congrArg (fun p : Except Fault (Option String) × Device =>
    (p.1, Streams.mk p.2 (shown input acts).errors)) hread

end Streams

namespace Scene

/-- The streams hold what is written in the scene and the lines that are left in it. -/
def Shows (scene : Scene) (streams : Streams) : Prop :=
  ∃ input, Device.lines input = scene.lines ∧ streams = .shown input scene.acts

theorem consoles_shows : (Similarity.machines Shows).Consoles console Streams.console where
  write text := by
    rintro scene _ ⟨input, hlines, rfl⟩
    rw [Streams.write_shown]
    exact ⟨rfl, input, hlines, rfl⟩
  readLine := by
    rintro ⟨lines, acts⟩ _ ⟨input, hlines, rfl⟩
    cases lines with
    | nil =>
      rw [Streams.readLine_shown_nil hlines]
      exact ⟨rfl, input, hlines, rfl⟩
    | cons line lines =>
      obtain ⟨input', hlines', hread⟩ := Streams.readLine_shown_cons hlines
      rw [hread]
      exact ⟨rfl, input', hlines', rfl⟩

theorem writers_shows (text : String) :
    (Similarity.machines Shows).rel (complain text) (Streams.writeError text) := by
  rintro scene _ ⟨input, hlines, rfl⟩
  rw [Streams.writeError_shown]
  exact ⟨rfl, input, hlines, rfl⟩

/-- A run leaves on the streams what its scene shows. -/
theorem run_shows (program : String) (args : List String) (input : List UInt8) :
    (run program args input).1 = (Streams.run program args input).1 ∧
      (run program args input).2.Shows (Streams.run program args input).2 :=
  Similarity.run consoles_shows writers_shows
    (fun showTree => Similarity.converse consoles_shows writers_shows showTree _) program args
    ⟨input, rfl, rfl⟩

/-! ## What came before -/

/-- The same lines are left, and some acts came before. -/
def Follows (before : List Act) (s t : Scene) : Prop :=
  t = { s with acts := before ++ s.acts }

theorem follows_note {before : List Act} (act : Act) (s : Scene) :
    Follows before (s.note act) (note act { s with acts := before ++ s.acts }) :=
  congrArg (Scene.mk s.lines) (List.append_assoc before s.acts [act])

theorem consoles_follows (before : List Act) :
    (Similarity.machines (Follows before)).Consoles console console where
  write text := by
    rintro s _ rfl
    exact ⟨rfl, follows_note _ s⟩
  readLine := by
    rintro ⟨lines, acts⟩ _ rfl
    cases lines with
    | nil => exact ⟨rfl, follows_note _ _⟩
    | cons line lines => exact ⟨rfl, follows_note _ ⟨lines, acts⟩⟩

theorem writers_follows (before : List Act) (text : String) :
    (Similarity.machines (Follows before)).rel (complain text) (complain text) := by
  rintro s _ rfl
  exact ⟨rfl, follows_note _ s⟩

end Scene

end Calculator
