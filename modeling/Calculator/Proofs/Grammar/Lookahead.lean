import Calculator.Grammar.Parse
import Calculator.Proofs.Grammar.Token

/-!
# Looking ahead

What a reading does next depends on the next token alone. The grammar functions
are given here by cases on that token, and leave the reader behind it.
-/

namespace Calculator

namespace Reader

/-- The tokens still to be read. -/
def tokens (s : Reader) : List Token :=
  Token.ofText s.cursor.rest

/-- The reader behind the mark that comes next. -/
def pass (s : Reader) : Reader :=
  s.skipSpaces.advance

/-- The reader behind the run that comes next. -/
def passRun (p : Char → Bool) (s : Reader) : Reader :=
  s.skipSpaces.skipWhile p

/-- The column of the token that comes next. -/
def nextColumn (s : Reader) : Nat :=
  s.skipSpaces.cursor.column

@[simp] theorem tokens_enter (s : Reader) : s.enter.tokens = s.tokens := rfl

@[simp] theorem tokens_note (e : ParseEvent) (s : Reader) : (s.note e).tokens = s.tokens := rfl

@[simp] theorem openFactors_leave (s : Reader) : s.leave.openFactors = s.openFactors - 1 := rfl

@[simp] theorem tokens_skipSpaces (s : Reader) : s.skipSpaces.tokens = s.tokens :=
  Token.ofText_dropSpaces s.cursor.rest

theorem current?_skipSpaces_ne_space (s : Reader) :
    s.skipSpaces.cursor.current? ≠ some ' ' := by
  intro h
  have hnot := List.head?_dropWhile_not (· == ' ') s.cursor.rest
  have h' : (s.cursor.rest.dropWhile (· == ' ')).head? = some ' ' := h
  rw [h'] at hnot
  cases hnot

theorem skipSpaces_eq_self {s : Reader} (h : s.cursor.current? ≠ some ' ') :
    s.skipSpaces = s := by
  obtain ⟨⟨rest, position⟩, openFactors, journal⟩ := s
  cases rest with
  | nil => rfl
  | cons c rest =>
    have hc : (c == ' ') = false := by simpa [Cursor.current?] using h
    simp [skipSpaces, Cursor.skipSpaces, Cursor.skipWhile, hc]

@[simp] theorem skipSpaces_skipSpaces (s : Reader) : s.skipSpaces.skipSpaces = s.skipSpaces :=
  skipSpaces_eq_self s.current?_skipSpaces_ne_space

/-- What comes next in a reading: the first token, and the reader behind it. -/
inductive Ahead (s : Reader) : Prop where
  | nothing (htokens : s.tokens = []) (hlook : s.skipSpaces.cursor.current? = none)
  | mark (c : Char) (hc : isMarkChar c = true) (htokens : s.tokens = .mark c :: s.pass.tokens)
      (hlook : s.skipSpaces.cursor.current? = some c)
  | number (c : Char) (hc : isNumberChar c = true)
      (htokens : s.tokens = .number (s.skipSpaces.cursor.rest.takeWhile isNumberChar) ::
        (s.passRun isNumberChar).tokens)
      (hlook : s.skipSpaces.cursor.current? = some c)
  | word (c : Char) (hc : c.isLower = true)
      (htokens : s.tokens = .word (s.skipSpaces.cursor.rest.takeWhile Char.isLower) ::
        (s.passRun Char.isLower).tokens)
      (hlook : s.skipSpaces.cursor.current? = some c)

theorem ahead (s : Reader) : s.Ahead := by
  have htokens : Token.ofText s.skipSpaces.cursor.rest = s.tokens := s.tokens_skipSpaces
  cases hlook : s.skipSpaces.cursor.current? with
  | none =>
    have hrest : s.skipSpaces.cursor.rest = [] := List.head?_eq_none_iff.1 hlook
    rw [hrest, Token.ofText_nil] at htokens
    exact .nothing htokens.symm hlook
  | some c =>
    have hrest := Cursor.rest_eq_cons hlook
    rw [hrest] at htokens
    by_cases hn : isNumberChar c = true
    · rw [Token.ofText_number hn, ← hrest] at htokens
      exact .number c hn htokens.symm hlook
    · by_cases hl : c.isLower = true
      · rw [Token.ofText_word hl, ← hrest] at htokens
        exact .word c hl htokens.symm hlook
      · have hc : isMarkChar c = true := by simp [isMarkChar, hn, hl]
        have hspace : c ≠ ' ' := by
          rintro rfl
          exact s.current?_skipSpaces_ne_space hlook
        rw [Token.ofText_mark hc hspace] at htokens
        exact .mark c hc htokens.symm hlook

theorem mark?_tokens (s : Reader) :
    Token.mark? s.tokens = s.skipSpaces.cursor.current?.filter isMarkChar := by
  cases s.ahead with
  | nothing htokens hlook => rw [htokens, hlook]; rfl
  | mark c hc htokens hlook => rw [htokens, hlook, Option.filter_some, if_pos hc]; rfl
  | number c hc htokens hlook =>
    rw [htokens, hlook, Option.filter_some, if_neg (by simp [isMarkChar, hc])]
    rfl
  | word c hc htokens hlook =>
    rw [htokens, hlook, Option.filter_some, if_neg (by simp [isMarkChar, hc])]
    rfl

theorem look_of_mark {s : Reader} {c : Char} (h : Token.mark? s.tokens = some c) :
    s.skipSpaces.cursor.current? = some c ∧ isMarkChar c = true := by
  rw [mark?_tokens] at h
  exact Option.filter_eq_some_iff.1 h

/-- A function of the next character that is about marks only is one of the next token. -/
theorem look_bind {α : Type} (s : Reader) {f : Char → Option α}
    (hf : ∀ c, isMarkChar c = false → f c = none) :
    s.skipSpaces.cursor.current?.bind f = (Token.mark? s.tokens).bind f := by
  rw [mark?_tokens]
  cases s.skipSpaces.cursor.current? with
  | none => rfl
  | some c =>
    rw [Option.filter_some]
    cases hc : isMarkChar c with
    | true => rfl
    | false => exact hf c hc

theorem look_eq_iff (s : Reader) {c : Char} (hc : isMarkChar c = true) :
    s.skipSpaces.cursor.current? = some c ↔ Token.mark? s.tokens = some c := by
  rw [mark?_tokens, Option.filter_eq_some_iff]
  exact (and_iff_left hc).symm

theorem current?_eq_none_iff (s : Reader) :
    s.skipSpaces.cursor.current? = none ↔ s.tokens = [] := by
  cases s.ahead with
  | nothing htokens hlook => simp [htokens, hlook]
  | mark c hc htokens hlook => simp [htokens, hlook]
  | number c hc htokens hlook => simp [htokens, hlook]
  | word c hc htokens hlook => simp [htokens, hlook]

theorem tokens_pass {s : Reader} {c : Char} {ts : List Token} (h : s.tokens = .mark c :: ts) :
    s.pass.tokens = ts := by
  cases s.ahead with
  | nothing htokens hlook => rw [htokens] at h; cases h
  | mark c hc htokens hlook => rw [htokens] at h; cases h; rfl
  | number c hc htokens hlook => rw [htokens] at h; cases h
  | word c hc htokens hlook => rw [htokens] at h; cases h

theorem tokens_eq_cons {s : Reader} {c : Char} (h : Token.mark? s.tokens = some c) :
    s.tokens = .mark c :: s.pass.tokens := by
  obtain ⟨ts, hts⟩ := Token.mark?_eq_some_iff.1 h
  rw [tokens_pass hts, hts]

theorem tokens_passRun_number {s : Reader} {run : List Char} {ts : List Token}
    (h : s.tokens = .number run :: ts) : (s.passRun isNumberChar).tokens = ts := by
  cases s.ahead with
  | nothing htokens hlook => rw [htokens] at h; cases h
  | mark c hc htokens hlook => rw [htokens] at h; cases h
  | number c hc htokens hlook => rw [htokens] at h; cases h; rfl
  | word c hc htokens hlook => rw [htokens] at h; cases h

theorem tokens_passRun_word {s : Reader} {run : List Char} {ts : List Token}
    (h : s.tokens = .word run :: ts) : (s.passRun Char.isLower).tokens = ts := by
  cases s.ahead with
  | nothing htokens hlook => rw [htokens] at h; cases h
  | mark c hc htokens hlook => rw [htokens] at h; cases h
  | number c hc htokens hlook => rw [htokens] at h; cases h
  | word c hc htokens hlook => rw [htokens] at h; cases h; rfl

theorem tokens_of_number {s : Reader} {c : Char}
    (hlook : s.skipSpaces.cursor.current? = some c) (hc : isNumberChar c = true) :
    s.tokens = .number (s.skipSpaces.cursor.rest.takeWhile isNumberChar) ::
      (s.passRun isNumberChar).tokens := by
  rw [← tokens_skipSpaces, tokens, Cursor.rest_eq_cons hlook, Token.ofText_number hc,
    ← Cursor.rest_eq_cons hlook]
  rfl

theorem tokens_of_word {s : Reader} {c : Char}
    (hlook : s.skipSpaces.cursor.current? = some c) (hc : c.isLower = true) :
    s.tokens = .word (s.skipSpaces.cursor.rest.takeWhile Char.isLower) ::
      (s.passRun Char.isLower).tokens := by
  rw [← tokens_skipSpaces, tokens, Cursor.rest_eq_cons hlook, Token.ofText_word hc,
    ← Cursor.rest_eq_cons hlook]
  rfl

theorem look_of_number {s : Reader} {run : List Char} {ts : List Token}
    (h : s.tokens = .number run :: ts) :
    run = s.skipSpaces.cursor.rest.takeWhile isNumberChar ∧
      ∃ c, s.skipSpaces.cursor.current? = some c ∧ isNumberChar c = true := by
  cases s.ahead with
  | nothing htokens hlook => rw [htokens] at h; cases h
  | mark c hc htokens hlook => rw [htokens] at h; cases h
  | number c hc htokens hlook => rw [htokens] at h; cases h; exact ⟨rfl, c, hlook, hc⟩
  | word c hc htokens hlook => rw [htokens] at h; cases h

theorem look_of_word {s : Reader} {run : List Char} {ts : List Token}
    (h : s.tokens = .word run :: ts) :
    run = s.skipSpaces.cursor.rest.takeWhile Char.isLower ∧
      ∃ c, s.skipSpaces.cursor.current? = some c ∧ c.isLower = true := by
  cases s.ahead with
  | nothing htokens hlook => rw [htokens] at h; cases h
  | mark c hc htokens hlook => rw [htokens] at h; cases h
  | number c hc htokens hlook => rw [htokens] at h; cases h
  | word c hc htokens hlook => rw [htokens] at h; cases h; exact ⟨rfl, c, hlook, hc⟩

theorem isNumberChar_of_mem {s : Reader} {run : List Char} {ts : List Token}
    (h : s.tokens = .number run :: ts) : ∀ c ∈ run, isNumberChar c = true := by
  rw [(look_of_number h).1]
  exact fun c hc => List.all_eq_true.1 List.all_takeWhile c hc

theorem left_pass_lt {s : Reader} {c : Char} (h : Token.mark? s.tokens = some c) :
    s.pass.left < s.left := by
  obtain ⟨hlook, -⟩ := look_of_mark h
  exact Nat.lt_of_lt_of_le (left_advance_lt hlook) s.continues_skipSpaces.left_le

theorem left_passRun_lt {s : Reader} {run : List Char} {ts : List Token}
    (h : s.tokens = .word run :: ts) : (s.passRun Char.isLower).left < s.left := by
  obtain ⟨-, c, hlook, hc⟩ := look_of_word h
  exact Nat.lt_of_lt_of_le (left_skipWhile_lt hlook hc) s.continues_skipSpaces.left_le

end Reader

end Calculator
