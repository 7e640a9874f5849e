import Calculator.Proofs.Grammar.Calls

/-!
# Other endings

A text may be cut at a place, and go on from there in another way. A reader that
sees nothing behind the place finds the same in both texts.
-/

namespace Calculator

/-- The class ends where it ended before, if it ends before the cut, or if what is put there does
not belong to it. -/
theorem takeWhile_take_append {p : Char → Bool} {cs ds : List Char} {n : Nat}
    (hn : n ≤ cs.length)
    (h : (cs.takeWhile p).length < n ∨
      (cs.takeWhile p).length = n ∧ ∀ d ∈ ds.head?, p d = false) :
    (cs.take n ++ ds).takeWhile p = cs.takeWhile p ∧
      (cs.take n ++ ds).dropWhile p =
        (cs.dropWhile p).take (n - (cs.takeWhile p).length) ++ ds := by
  have hstop : (∀ d ∈ ds.head?, p d = false) → ds.takeWhile p = [] ∧ ds.dropWhile p = ds := by
    intro hds
    cases ds with
    | nil => exact ⟨rfl, rfl⟩
    | cons d ds =>
      have hd : ¬ p d = true := by simp [hds d rfl]
      exact ⟨List.takeWhile_cons_of_neg hd, List.dropWhile_cons_of_neg hd⟩
  induction cs generalizing n with
  | nil =>
    obtain rfl : n = 0 := Nat.le_zero.1 hn
    rcases h with h | ⟨-, hds⟩
    · exact absurd h (Nat.not_lt_zero _)
    · exact hstop hds
  | cons c cs ih =>
    by_cases hc : p c = true
    · rw [List.takeWhile_cons_of_pos hc, List.length_cons] at h
      obtain ⟨m, rfl⟩ : ∃ m, n = m + 1 := Nat.exists_eq_add_one.2 (by omega)
      obtain ⟨htake, hdrop⟩ := ih (Nat.le_of_succ_le_succ hn) (h.imp Nat.lt_of_succ_lt_succ
        (And.imp_left Nat.succ.inj))
      rw [List.take_succ_cons, List.cons_append, List.takeWhile_cons_of_pos hc,
        List.takeWhile_cons_of_pos hc, List.dropWhile_cons_of_pos hc,
        List.dropWhile_cons_of_pos hc, htake, hdrop, List.length_cons, Nat.add_sub_add_right]
      exact ⟨rfl, rfl⟩
    · rw [List.takeWhile_cons_of_neg hc, List.dropWhile_cons_of_neg hc]
      rw [List.takeWhile_cons_of_neg hc] at h
      cases n with
      | zero =>
        rcases h with h | ⟨-, hds⟩
        · exact absurd h (Nat.not_lt_zero _)
        · exact hstop hds
      | succ m =>
        rw [List.take_succ_cons, List.cons_append, List.takeWhile_cons_of_neg hc,
          List.dropWhile_cons_of_neg hc]
        exact ⟨rfl, rfl⟩

/-- Another ending for texts: the number of characters before it, and its own characters. -/
structure Ending where
  place : Nat
  text : List Char

namespace Ending

/-- The same place in the text with the other ending. -/
def cursor (f : Ending) (c : Cursor) : Cursor :=
  { c with rest := c.rest.take (f.place - c.position) ++ f.text }

/-- The reader at the same place in the text with the other ending. -/
def reader (f : Ending) (s : Reader) : Reader :=
  { s with cursor := f.cursor s.cursor }

/-- The ending does not go on with characters of the class. -/
def Ends (f : Ending) (p : Char → Bool) : Prop :=
  ∀ d ∈ f.text.head?, p d = false

/-- The place is in the text of the reader. -/
def Fits (f : Ending) (s : Reader) : Prop :=
  f.place ≤ s.cursor.position + s.left

variable {f : Ending} {p : Char → Bool} {s s' : Reader}

theorem Fits.of_reaches (h : f.Fits s) (hs : s.cursor.Reaches s'.cursor) : f.Fits s' := by
  obtain ⟨text, hrest, hposition⟩ := hs
  have hleft : s.left = text.length + s'.left := by
    rw [Reader.left, hrest, List.length_append, Reader.left]
  rw [Fits] at h ⊢
  omega

theorem Fits.skipSpaces (h : f.Fits s) : f.Fits s.skipSpaces :=
  h.of_reaches s.cursor.reaches_skipSpaces

@[simp] theorem openFactors_reader (s : Reader) : (f.reader s).openFactors = s.openFactors := rfl

/-- At its place the ending comes next. -/
theorem rest_reader (h : s.cursor.position = f.place) : (f.reader s).cursor.rest = f.text := by
  rw [reader, cursor, h, Nat.sub_self]
  rfl

theorem current?_reader (hfits : f.Fits s) (h : s.cursor.position < f.place) :
    (f.reader s).cursor.current? = s.cursor.current? := by
  obtain ⟨⟨rest, position⟩, openFactors, journal⟩ := s
  obtain ⟨n, hn⟩ : ∃ n, f.place - position = n + 1 := Nat.exists_eq_add_one.2 (Nat.sub_pos_of_lt h)
  cases rest with
  | nil => exact absurd hfits (Nat.not_le_of_gt h)
  | cons c rest => simp [reader, cursor, Cursor.current?, hn]

theorem advance_reader (hfits : f.Fits s) (h : s.cursor.position < f.place) :
    (f.reader s).advance = f.reader s.advance := by
  obtain ⟨⟨rest, position⟩, openFactors, journal⟩ := s
  obtain ⟨n, hn⟩ : ∃ n, f.place - position = n + 1 := Nat.exists_eq_add_one.2 (Nat.sub_pos_of_lt h)
  have hn' : f.place - (position + 1) = n := by omega
  cases rest with
  | nil => exact absurd hfits (Nat.not_le_of_gt h)
  | cons c rest => simp [reader, cursor, Reader.advance, Cursor.advance, hn, hn']

/-- A run that ends before the ending, or there and does not go on in it, is the same run. -/
theorem takeWhile_reader (hfits : f.Fits s)
    (h : (s.skipWhile p).cursor.position < f.place ∨
      (s.skipWhile p).cursor.position = f.place ∧ f.Ends p) :
    (f.reader s).cursor.rest.takeWhile p = s.cursor.rest.takeWhile p ∧
      (f.reader s).skipWhile p = f.reader (s.skipWhile p) := by
  obtain ⟨⟨rest, position⟩, openFactors, journal⟩ := s
  have hlength : f.place - position ≤ rest.length := Nat.sub_le_iff_le_add'.2 hfits
  have hrun : (rest.takeWhile p).length < f.place - position ∨
      (rest.takeWhile p).length = f.place - position ∧ ∀ d ∈ f.text.head?, p d = false := by
    simp only [Reader.skipWhile, Cursor.skipWhile] at h
    exact h.imp (fun h => by omega) (And.imp_left fun h => by omega)
  obtain ⟨htake, hdrop⟩ := takeWhile_take_append hlength hrun
  refine ⟨htake, ?_⟩
  simp only [reader, cursor, Reader.skipWhile, Cursor.skipWhile, htake, hdrop, Nat.sub_sub]

theorem skipSpaces_reader (hfits : f.Fits s)
    (h : s.skipSpaces.cursor.position < f.place ∨
      s.skipSpaces.cursor.position = f.place ∧ f.Ends (· == ' ')) :
    (f.reader s).skipSpaces = f.reader s.skipSpaces :=
  (takeWhile_reader hfits h).2

/-! ## The next token -/

section Before

variable (hfits : f.Fits s) (h : s.skipSpaces.cursor.position < f.place)
include hfits h

theorem look_reader :
    (f.reader s).skipSpaces.cursor.current? = s.skipSpaces.cursor.current? := by
  rw [skipSpaces_reader hfits (.inl h)]
  exact current?_reader hfits.skipSpaces h

theorem nextColumn_reader : (f.reader s).nextColumn = s.nextColumn := by
  rw [Reader.nextColumn, skipSpaces_reader hfits (.inl h)]
  rfl

theorem mark?_reader : Token.mark? (f.reader s).tokens = Token.mark? s.tokens := by
  rw [Reader.mark?_tokens, Reader.mark?_tokens, look_reader hfits h]

theorem pass_reader : (f.reader s).pass = f.reader s.pass := by
  rw [Reader.pass, skipSpaces_reader hfits (.inl h)]
  exact advance_reader hfits.skipSpaces h

theorem lacksOperand_reader (hlacks : Grammar.LacksOperand s.tokens) :
    Grammar.LacksOperand (f.reader s).tokens := by
  rw [Grammar.lacksOperand_tokens_iff] at hlacks ⊢
  rwa [look_reader hfits h]

end Before

/-- A run of the next token that is the same in both texts. -/
theorem run_reader {c : Char} (hfits : f.Fits s) (hlook : s.skipSpaces.cursor.current? = some c)
    (hc : p c = true)
    (h : (s.passRun p).cursor.position < f.place ∨
      (s.passRun p).cursor.position = f.place ∧ f.Ends p) :
    s.skipSpaces.cursor.position < f.place ∧
      (f.reader s).skipSpaces.cursor.rest.takeWhile p = s.skipSpaces.cursor.rest.takeWhile p ∧
      (f.reader s).passRun p = f.reader (s.passRun p) := by
  have hlt := Reader.position_passRun_lt hlook hc
  have hbefore : s.skipSpaces.cursor.position < f.place := by omega
  rw [Reader.passRun, skipSpaces_reader hfits (.inl hbefore)]
  exact ⟨hbefore, takeWhile_reader hfits.skipSpaces h⟩

theorem number_reader {run : List Char} {ts : List Token} (hfits : f.Fits s)
    (htokens : s.tokens = .number run :: ts)
    (h : (s.passRun isNumberChar).cursor.position < f.place ∨
      (s.passRun isNumberChar).cursor.position = f.place ∧ f.Ends isNumberChar) :
    (f.reader s).tokens = .number run :: (f.reader (s.passRun isNumberChar)).tokens ∧
      (f.reader s).nextColumn = s.nextColumn ∧
      (f.reader s).passRun isNumberChar = f.reader (s.passRun isNumberChar) := by
  obtain ⟨rfl, c, hlook, hc⟩ := Reader.look_of_number htokens
  obtain ⟨hbefore, hrun, hpass⟩ := run_reader hfits hlook hc h
  refine ⟨?_, nextColumn_reader hfits hbefore, hpass⟩
  rw [← hpass, ← hrun]
  exact Reader.tokens_of_number ((look_reader hfits hbefore).trans hlook) hc

theorem word_reader {run : List Char} {ts : List Token} (hfits : f.Fits s)
    (htokens : s.tokens = .word run :: ts)
    (h : (s.passRun Char.isLower).cursor.position < f.place ∨
      (s.passRun Char.isLower).cursor.position = f.place ∧ f.Ends Char.isLower) :
    (f.reader s).tokens = .word run :: (f.reader (s.passRun Char.isLower)).tokens ∧
      (f.reader s).nextColumn = s.nextColumn ∧
      (f.reader s).passRun Char.isLower = f.reader (s.passRun Char.isLower) := by
  obtain ⟨rfl, c, hlook, hc⟩ := Reader.look_of_word htokens
  obtain ⟨hbefore, hrun, hpass⟩ := run_reader hfits hlook hc h
  refine ⟨?_, nextColumn_reader hfits hbefore, hpass⟩
  rw [← hpass, ← hrun]
  exact Reader.tokens_of_word ((look_reader hfits hbefore).trans hlook) hc

end Ending

end Calculator
