import Calculator.Proofs.Terminal.Acceptance
import Calculator.Proofs.Terminal.Lines

/-!
# Commands to a console

Lines are read, prompts are shown and values are asked for, in any order. Every line of the input
goes to one command: the next line to the next command that reads. A command that cannot write
what it has to write reads nothing, and behind the last line every reading finds the end.
-/

namespace Calculator

namespace Console

inductive Command where
  | readLine
  | prompt (text : String)
  /-- Asks for the value of a variable. -/
  | ask (name : String)

/-- What comes of a command. -/
inductive Reply where
  | line (result : Except Fault (Option String))
  | prompted (result : Except Fault Unit)
  | answered (result : Except Fault String)

namespace Command

section Run

variable {m : Type → Type} [Monad m]

def run (console : Console m) : Command → m Reply
  | readLine => return .line (← console.readLine)
  | prompt text => return .prompted (← console.prompt text)
  | ask name => return .answered (← console.resolver name)

def runAll (console : Console m) : List Command → m (List Reply)
  | [] => return []
  | command :: commands => do
    let reply ← command.run console
    return reply :: (← runAll console commands)

end Run

/-- What the command writes. -/
def text : Command → String
  | readLine => ""
  | prompt text => Color.blue.paint text
  | ask name => question name

/-- All that the commands write. -/
def texts : List Command → String
  | [] => ""
  | command :: commands => command.text ++ texts commands

/-- Whether the command reads a line, if the texts written up to its own are `shown`. -/
def reads (limit : Option Nat) (shown : String) : Command → Bool
  | readLine => true
  | prompt _ => false
  | ask _ => Sink.fits limit shown

/-- How many of the commands read a line, if `held` is written before. -/
def readings (limit : Option Nat) (held : String) : List Command → Nat
  | [] => 0
  | command :: commands =>
    (if command.reads limit (held ++ command.text) then 1 else 0) +
      readings limit (held ++ command.text) commands

/-- What a question gets for an answer. At the end of the input there is none. -/
def answer : Option String → Except Fault String
  | some line => .ok line
  | none => .error .inputClosed

/-- The reply if the texts written up to the command's own are `shown` and the next line is
`line?`. -/
def reply (limit : Option Nat) (shown : String) (line? : Option String) : Command → Reply
  | readLine => .line (.ok line?)
  | prompt _ => .prompted (Sink.written limit shown)
  | ask _ => .answered (if Sink.fits limit shown then answer line? else .error .pipeClosed)

theorem reply_ask_of_fits {limit : Option Nat} {shown : String}
    (h : Sink.fits limit shown = true) (name : String) (line? : Option String) :
    (ask name).reply limit shown line? = .answered (answer line?) :=
  congrArg Reply.answered (if_pos h)

theorem reply_ask_of_not_fits {limit : Option Nat} {shown : String}
    (h : Sink.fits limit shown = false) (name : String) (line? : Option String) :
    (ask name).reply limit shown line? = .answered (.error .pipeClosed) :=
  congrArg Reply.answered (if_neg (Bool.eq_false_iff.1 h))

/-- The replies to the commands, if `held` is written before and the lines are still to be read. -/
def replies (limit : Option Nat) (held : String) (lines : List String) : List Command → List Reply
  | [] => []
  | command :: commands =>
    command.reply limit (held ++ command.text) lines.head? ::
      replies limit (held ++ command.text)
        (lines.drop (if command.reads limit (held ++ command.text) then 1 else 0)) commands

theorem length_replies (limit : Option Nat) (held : String) (lines : List String)
    (commands : List Command) : (replies limit held lines commands).length = commands.length := by
  induction commands generalizing held lines with
  | nil => rfl
  | cons command commands ih => exact congrArg (· + 1) (ih _ _)

/-- Every reply is about the line behind those that were read before. -/
theorem getElem?_replies (limit : Option Nat) (held : String) (lines : List String)
    (before : List Command) (command : Command) (after : List Command) :
    (replies limit held lines (before ++ command :: after))[before.length]? =
      some (command.reply limit (held ++ texts before ++ command.text)
        lines[readings limit held before]?) := by
  induction before generalizing held lines with
  | nil =>
    have hline : lines[0]? = lines.head? := List.head?_eq_getElem?.symm
    rw [List.nil_append, texts, readings, String.append_empty, hline]
    rfl
  | cons first before ih =>
    rw [List.cons_append, List.length_cons, replies, List.getElem?_cons_succ, ih, texts, readings,
      List.getElem?_drop, ← String.append_assoc]

theorem text_prompt_ne_empty (text : String) : (prompt text).text ≠ "" := by
  intro h
  rw [Command.text, Color.paint, String.append_eq_empty_iff] at h
  exact absurd h.2 (by decide)

theorem text_ask_ne_empty (name : String) : (ask name).text ≠ "" := by
  intro h
  rw [Command.text, question, String.append_eq_empty_iff] at h
  exact absurd h.2 (by decide)

/-! ## Devices -/

/-- The texts `held` were written to the device, and the lines are left on it. -/
structure Holds (limit : Option Nat) (held : String) (lines : List String) (device : Device) :
    Prop where
  output : device.output = ⟨limit, Sink.clip limit held.toUTF8⟩
  lines : Device.lines device.input = lines.map .ok

variable {limit : Option Nat} {held : String} {lines : List String} {device : Device}

theorem Holds.start (limit : Option Nat) (text : String) :
    Holds limit "" (Text.lines text) { input := Text.bytes text, output := { limit } } where
  output := by rw [Sink.clip_of_within (Sink.fits_empty limit)]; rfl
  lines := Device.lines_bytes text

/-- A write adds to what is held and leaves the input as it is. -/
theorem Holds.write (h : Holds limit held lines device) {text : String} (htext : text ≠ "") :
    ∃ device', device.write text = (Sink.written limit (held ++ text), device') ∧
      Holds limit (held ++ text) lines device' ∧ device'.input = device.input := by
  obtain ⟨input, output⟩ := device
  obtain rfl : output = _ := h.output
  rw [Device.write, Sink.write_behind held htext]
  exact ⟨_, rfl, ⟨rfl, h.lines⟩, rfl⟩

theorem Holds.readLine (h : Holds limit held lines device) :
    ∃ device', device.readLine = (.ok lines.head?, device') ∧
      Holds limit held (lines.drop 1) device' := by
  cases lines with
  | nil => exact ⟨device, Device.readLine_of_lines_nil h.lines, h⟩
  | cons line lines =>
    obtain ⟨input, hread, hlines⟩ := Device.readLine_of_lines_cons h.lines
    exact ⟨_, hread, h.output, hlines⟩

theorem run_resolver_of_error {name : String} {fault : Fault} {device' : Device}
    (h : device.write (question name) = (.error fault, device')) :
    (Device.console.resolver name).run device = (.error fault, device') := by
  have hwrite : (Device.console.write (question name)).run device = (.error fault, device') := h
  rw [resolver, ExceptT.run_bind, StateT.run_bind, ExceptT.run_mk, hwrite]
  rfl

theorem run_resolver_of_ok {name : String} {line? : Option String} {device₁ device' : Device}
    (h : device.write (question name) = (.ok (), device₁))
    (hread : device₁.readLine = (.ok line?, device')) :
    (Device.console.resolver name).run device = (answer line?, device') := by
  have hwrite : (Device.console.write (question name)).run device = (.ok (), device₁) := h
  have hread' : Device.console.readLine.run device₁ = (.ok line?, device') := hread
  rw [resolver, ExceptT.run_bind, StateT.run_bind, ExceptT.run_mk, hwrite]
  show (ExceptT.run (ExceptT.mk Device.console.readLine >>= _)).run device₁ = _
  rw [ExceptT.run_bind, StateT.run_bind, ExceptT.run_mk, hread']
  cases line? <;> rfl

/-- What one command does. -/
theorem Holds.run (h : Holds limit held lines device) (command : Command) :
    let shown := held ++ command.text
    ∃ device', (command.run Device.console).run device =
        (command.reply limit shown lines.head?, device') ∧
      Holds limit shown (lines.drop (if command.reads limit shown then 1 else 0)) device' ∧
      (command.reads limit shown = false → device'.input = device.input) := by
  intro shown
  cases command with
  | readLine =>
    have hshown : shown = held := String.append_empty
    obtain ⟨device', hread, hholds⟩ := h.readLine
    refine ⟨device', ?_, hshown ▸ hholds, nofun⟩
    exact congrArg (fun p : Except Fault (Option String) × Device => (Reply.line p.1, p.2)) hread
  | prompt text =>
    obtain ⟨device', hwrite, hholds, hinput⟩ := h.write (text_prompt_ne_empty text)
    refine ⟨device', ?_, hholds, fun _ => hinput⟩
    exact congrArg (fun p : Except Fault Unit × Device => (Reply.prompted p.1, p.2)) hwrite
  | ask name =>
    obtain ⟨device', hwrite, hholds, hinput⟩ := h.write (text_ask_ne_empty name)
    have hreads : (ask name).reads limit shown = Sink.fits limit shown := rfl
    cases hfits : Sink.fits limit shown with
    | false =>
      rw [Sink.written_of_not_fits hfits] at hwrite
      refine ⟨device', ?_, ?_, fun _ => hinput⟩
      · rw [reply_ask_of_not_fits hfits]
        exact congrArg (fun p : Except Fault String × Device => (Reply.answered p.1, p.2))
          (run_resolver_of_error hwrite)
      · rw [hreads, hfits]
        exact hholds
    | true =>
      rw [Sink.written_of_fits hfits] at hwrite
      obtain ⟨device'', hread, hholds'⟩ := hholds.readLine
      refine ⟨device'', ?_, ?_, fun h => ?_⟩
      · rw [reply_ask_of_fits hfits]
        exact congrArg (fun p : Except Fault String × Device => (Reply.answered p.1, p.2))
          (run_resolver_of_ok hwrite hread)
      · rw [hreads, hfits]
        exact hholds'
      · rw [hreads, hfits] at h
        cases h

/-- What commands do in turn. -/
theorem Holds.runAll (h : Holds limit held lines device) (commands : List Command) :
    ∃ device', (runAll Device.console commands).run device =
        (replies limit held lines commands, device') ∧
      Holds limit (held ++ texts commands) (lines.drop (readings limit held commands)) device' := by
  induction commands generalizing held lines device with
  | nil => exact ⟨device, rfl, by rwa [texts, String.append_empty]⟩
  | cons command commands ih =>
    obtain ⟨device₁, hrun, hholds, -⟩ := h.run command
    obtain ⟨device', hruns, hend⟩ := ih hholds
    refine ⟨device', ?_, ?_⟩
    · rw [Command.runAll, StateT.run_bind, hrun]
      exact congrArg (fun p : List Reply × Device =>
        (command.reply limit (held ++ command.text) lines.head? :: p.1, p.2)) hruns
    · rwa [texts, ← String.append_assoc, readings, ← List.drop_drop]

theorem texts_append (before after : List Command) :
    texts (before ++ after) = texts before ++ texts after := by
  induction before with
  | nil => exact String.empty_append.symm
  | cons command before ih => rw [List.cons_append, texts, texts, ih, String.append_assoc]

/-- Commands to a device that holds a text as its input and has a limited output. -/
def runOn (limit : Option Nat) (text : String) (commands : List Command) : List Reply × Device :=
  (runAll Device.console commands).run { input := Text.bytes text, output := { limit } }

theorem runOn_holds (limit : Option Nat) (text : String) (commands : List Command) :
    ∃ device, runOn limit text commands =
        (replies limit "" (Text.lines text) commands, device) ∧
      Holds limit (texts commands) ((Text.lines text).drop (readings limit "" commands))
        device := by
  have h := (Holds.start limit text).runAll commands
  rwa [String.empty_append] at h

/-- A last command acts on the device that the others leave. -/
theorem snd_runAll_concat (device : Device) (before : List Command) (command : Command) :
    ((runAll Device.console (before ++ [command])).run device).2 =
      ((command.run Device.console).run
        ((runAll Device.console before).run device).2).2 := by
  induction before generalizing device with
  | nil => rfl
  | cons first before ih => exact ih _

theorem texts_concat (before : List Command) (command : Command) :
    texts (before ++ [command]) = texts before ++ command.text := by
  rw [texts_append, texts, texts, String.append_empty]

/-- A command that reads nothing leaves the input as it was. -/
theorem input_runOn_concat (limit : Option Nat) (text : String) (before : List Command)
    {command : Command} (h : command.reads limit (texts (before ++ [command])) = false) :
    (runOn limit text (before ++ [command])).2.input = (runOn limit text before).2.input := by
  obtain ⟨device, hbefore, hholds⟩ := runOn_holds limit text before
  obtain ⟨device', hrun, -, hinput⟩ := hholds.run command
  rw [texts_concat] at h
  rw [runOn] at hbefore
  rw [runOn, runOn, snd_runAll_concat, hbefore, hrun]
  exact hinput h

end Command

open Command (runOn texts readings)

/-- Each line of the input goes to one command, in their order, and behind the last line there is
an end. A question that does not fit reads nothing, and in all the output accepts the beginning of
what it would accept without a limit. -/
theorem replies_from_lines (limit : Option Nat) (text : String) (commands : List Command) :
    let replies := (runOn limit text commands).1
    replies.length = commands.length ∧
      (runOn limit text commands).2.output.accepted =
        Sink.clip limit (runOn none text commands).2.output.accepted ∧
      (runOn none text commands).2.output.accepted = (texts commands).toUTF8 ∧
      ∀ before command after, commands = before ++ command :: after →
        let shown := texts (before ++ [command])
        let line? := (Text.lines text)[readings limit "" before]?
        replies[before.length]? = some (command.reply limit shown line?) ∧
          (command.reads limit shown = false →
            (runOn limit text (before ++ [command])).2.input =
              (runOn limit text before).2.input) := by
  obtain ⟨device, hrun, hholds⟩ := Command.runOn_holds limit text commands
  obtain ⟨device', hrun', hholds'⟩ := Command.runOn_holds none text commands
  have hall : (runOn none text commands).2.output.accepted = (texts commands).toUTF8 := by
    rw [hrun', hholds'.output]
    rfl
  intro replies
  have hreplies : replies = Command.replies limit "" (Text.lines text) commands :=
    congrArg Prod.fst hrun
  rw [hrun, hreplies]
  refine ⟨Command.length_replies .., ?_, hall, ?_⟩
  · rw [hall, hholds.output]
  · rintro before command after rfl
    refine ⟨?_, Command.input_runOn_concat limit text before⟩
    rw [Command.getElem?_replies, Command.texts_concat, String.empty_append]

theorem replies_from_lines_blank :
    let commands : List Command := [.readLine, .ask "x", .prompt "> ", .ask "y", .readLine]
    let replies := (runOn none "2\r\n\nlast" commands).1
    replies[1]? = some (.answered (.ok "")) ∧ replies[3]? = some (.answered (.ok "last")) ∧
      replies[4]? = some (.line (.ok none)) := by
  intro commands replies
  have hlines : Text.lines "2\r\n\nlast" = ["2", "", "last"] := by decide +kernel
  have h := replies_from_lines none "2\r\n\nlast" commands
  rw [hlines] at h
  obtain ⟨-, -, -, h⟩ := h
  refine ⟨?_, ?_, ?_⟩
  · exact (h [.readLine] (.ask "x") _ rfl).1
  · exact (h [.readLine, .ask "x", .prompt "> "] (.ask "y") _ rfl).1
  · exact (h [.readLine, .ask "x", .prompt "> ", .ask "y"] .readLine _ rfl).1

end Console

end Calculator
