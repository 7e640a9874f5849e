import Calculator.Grammar.Reader

/-!
# Progress

A reading only goes on: no step puts a character back, and none leaves a factor
open that it did not find open. Outcomes carry this fact. The grammar functions
return them, so that what follows one of them is known to read on from there.
-/

namespace Calculator

/-- The state `s'` comes after `s` in one reading. -/
structure Reader.Continues (s s' : Reader) : Prop where
  reaches : s.cursor.Reaches s'.cursor
  openFactors : s'.openFactors = s.openFactors
  journal : ∃ events, s'.journal = s.journal ++ events

namespace Reader

variable {a b c : Reader}

namespace Continues

theorem refl (s : Reader) : s.Continues s :=
  ⟨.refl _, rfl, #[], Array.append_empty.symm⟩

theorem trans (h : a.Continues b) (k : b.Continues c) : a.Continues c := by
  obtain ⟨events, he⟩ := h.journal
  obtain ⟨events', he'⟩ := k.journal
  refine ⟨h.reaches.trans k.reaches, k.openFactors.trans h.openFactors, events ++ events', ?_⟩
  rw [he', he, Array.append_assoc]

theorem left_le (h : a.Continues b) : b.left ≤ a.left :=
  h.reaches.length_le

/-- Opening a factor before and closing it after makes no difference. -/
theorem leave (h : a.enter.Continues b) : a.Continues b.leave :=
  ⟨h.reaches, congrArg (· - 1) h.openFactors, h.journal⟩

end Continues

theorem continues_of_reaches {s : Reader} {cursor : Cursor} (h : s.cursor.Reaches cursor) :
    s.Continues { s with cursor } :=
  ⟨h, rfl, #[], Array.append_empty.symm⟩

theorem continues_skipSpaces (s : Reader) : s.Continues s.skipSpaces :=
  continues_of_reaches s.cursor.reaches_skipSpaces

theorem continues_advance (s : Reader) : s.Continues s.advance :=
  continues_of_reaches s.cursor.reaches_advance

theorem continues_skipWhile (p : Char → Bool) (s : Reader) : s.Continues (s.skipWhile p) :=
  continues_of_reaches (s.cursor.reaches_skipWhile p)

theorem continues_note (e : ParseEvent) (s : Reader) : s.Continues (s.note e) :=
  ⟨.refl _, rfl, #[e], Array.push_eq_append⟩

end Reader

/-- A step that only goes on. -/
def Onward {α : Type} (a : Step α) : Prop :=
  ∀ s : Reader, s.Continues (Step.final (a s))

namespace Onward

variable {α β : Type}

theorem pure (a : α) : Onward (Pure.pure a) :=
  fun s => Reader.Continues.refl s

theorem bind {a : Step α} {f : α → Step β} (ha : Onward a) (hf : ∀ x, Onward (f x)) :
    Onward (a >>= f) := by
  intro s
  have h := ha s
  rw [Step.bind_apply]
  split
  · next x s' hs =>
    rw [hs] at h
    exact h.trans (hf x s')
  · next e s' hs =>
    rw [hs] at h
    exact h

theorem fail (kind : ParseError.Kind) (column : Nat) : Onward (Step.fail kind column : Step α) :=
  fun s => Reader.Continues.refl s

theorem failHere (kind : ParseError.Kind) : Onward (Step.failHere kind : Step α) :=
  fun s => Reader.Continues.refl s

theorem current? : Onward Step.current? :=
  fun s => Reader.Continues.refl s

theorem atEnd : Onward Step.atEnd :=
  fun s => Reader.Continues.refl s

theorem column : Onward Step.column :=
  fun s => Reader.Continues.refl s

theorem reading {f : Cursor → α × Cursor} (h : ∀ c : Cursor, c.Reaches (f c).2) :
    Onward (Step.reading f) :=
  fun s => Reader.continues_of_reaches (h s.cursor)

theorem takeWhile (p : Char → Bool) : Onward (Step.takeWhile p) :=
  reading (Cursor.reaches_skipWhile p)

theorem consume (expected : Char) : Onward (Step.consume expected) :=
  reading (Cursor.reaches_consume expected)

theorem atOperator : Onward Step.atOperator :=
  reading Cursor.reaches_skipSpaces

theorem rejectOperator : Onward Step.rejectOperator :=
  bind atOperator fun _ => by
    split
    · exact failHere _
    · exact pure _

end Onward

/-- How a step ends that begins in the state `s`. -/
abbrev Outcome (α : Type) (s : Reader) :=
  { r : EStateM.Result ParseError Reader α // s.Continues (Step.final r) }

def Onward.outcome {α : Type} {a : Step α} (h : Onward a) (s : Reader) : Outcome α s :=
  ⟨a s, h s⟩

namespace Outcome

variable {α β : Type} {s s' : Reader}

/-- The outcome for an earlier beginning. -/
def after (h : s.Continues s') (r : Outcome α s') : Outcome α s :=
  ⟨r.1, h.trans r.2⟩

def andThen (h : s.Continues s') (r : Outcome α s')
    (f : α → (t : Reader) → s'.Continues t → Outcome β t) : Outcome β s :=
  match r with
  | ⟨.ok a t, ht⟩ => (f a t ht).after (h.trans ht)
  | ⟨.error e t, ht⟩ => ⟨.error e t, h.trans ht⟩

/-- Closes a factor, however it ended. -/
def leave (r : Outcome α s.enter) : Outcome α s :=
  match r with
  | ⟨.ok a t, ht⟩ => ⟨.ok a t.leave, ht.leave⟩
  | ⟨.error e t, ht⟩ => ⟨.error e t.leave, ht.leave⟩

theorem andThen_val (h : s.Continues s') (r : Outcome α s')
    (f : α → (t : Reader) → s'.Continues t → Outcome β t) (g : α → Step β)
    (hg : ∀ a t ht, (f a t ht).1 = g a t) :
    (r.andThen h f).1 = match r.1 with
      | .ok a t => g a t
      | .error e t => .error e t := by
  obtain ⟨_ | _, ht⟩ := r
  · exact hg _ _ ht
  · rfl

end Outcome

end Calculator
