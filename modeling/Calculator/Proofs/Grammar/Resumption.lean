import Calculator.Proofs.Grammar.Transport

/-!
# Parsing again

A reader can be asked to parse on, whatever the call before came to. No call leaves a factor
open, so that each one is a fresh reading of what is left of the text. Only its columns count
from the beginning of the whole.
-/

namespace Calculator

/-- The same place, if `n` more characters stood before it. -/
def Cursor.shift (n : Nat) (c : Cursor) : Cursor :=
  { c with position := c.position + n }

theorem Cursor.column_shift (n : Nat) (c : Cursor) : (c.shift n).column = c.column + n :=
  Nat.add_right_comm _ _ _

theorem Cursor.skipWhile_shift (p : Char → Bool) (n : Nat) (c : Cursor) :
    (c.shift n).skipWhile p = (c.skipWhile p).shift n :=
  congrArg (Cursor.mk _) (Nat.add_right_comm _ _ _)

theorem Cursor.advance_shift (n : Nat) (c : Cursor) : (c.shift n).advance = c.advance.shift n := by
  obtain ⟨rest, position⟩ := c
  cases rest with
  | nil => rfl
  | cons c rest => exact congrArg (Cursor.mk rest) (Nat.add_right_comm _ _ _)

namespace Grammar

/-- The result with `n` added to every column. -/
def shiftResult (n : Nat) : Except ParseError Expr → Except ParseError Expr
  | .ok t => .ok (t.mapColumns (· + n))
  | .error e => .error { e with column := e.column + n }

theorem transport_shift (n : Nat) : Transport (· + n) fun c d => d = c.shift n where
  tokens_eq {s q} h := by
    rw [Reader.tokens, h]
    rfl
  nextColumn_eq {s q} h := by
    show (q.cursor.skipWhile _).column = (s.cursor.skipWhile _).column + n
    rw [h, Cursor.skipWhile_shift, Cursor.column_shift]
  skipSpaces {s q} h := by
    show q.cursor.skipWhile _ = (s.cursor.skipWhile _).shift n
    rw [h, Cursor.skipWhile_shift]
  pass {s q c} h _ := by
    show (q.cursor.skipWhile _).advance = (s.cursor.skipWhile _).advance.shift n
    rw [h, Cursor.skipWhile_shift, Cursor.advance_shift]
  passNumber {s q run ts} h _ := by
    show (q.cursor.skipWhile _).skipWhile _ = ((s.cursor.skipWhile _).skipWhile _).shift n
    rw [h, Cursor.skipWhile_shift, Cursor.skipWhile_shift]
  passWord {s q run ts} h _ := by
    show (q.cursor.skipWhile _).skipWhile _ = ((s.cursor.skipWhile _).skipWhile _).shift n
    rw [h, Cursor.skipWhile_shift, Cursor.skipWhile_shift]

theorem Matches.eq_shift {n : Nat} {e e' : ParseError}
    (h : Matches (· + n) (fun c d => d = c.shift n) e e') :
    e' = { e with column := e.column + n } := by
  have hcolumn : e'.column = e.column + n := by
    rcases h.column with hcolumn | ⟨-, c, d, rfl, hc, hd⟩
    · exact hcolumn
    · rw [hd, hc, Cursor.column_shift]
  rw [← h.kind_eq, ← hcolumn]

theorem continues_complete (rules : Rules) (s : Reader) :
    s.Continues (Step.final (complete rules s)) := by
  have honward : Onward (complete rules) := by
    refine .bind (fun q => (Call.chain .sum).continues_run rules q) fun tree => ?_
    refine .bind .atEnd fun ended => ?_
    cases ended with
    | false => exact .bind .current? fun _ => .failHere _
    | true => exact fun q => .trans (.refl q) (Reader.continues_note _ q)
  exact honward s

end Grammar

namespace Reader

open Grammar

variable {rules : Rules} {s q : Reader}

theorem parse_shift {n : Nat} (hcursor : q.cursor = s.cursor.shift n)
    (hopen : q.openFactors = s.openFactors) :
    (q.parse rules).1 = shiftResult n (s.parse rules).1 := by
  have hagree := parse_agree (transport_shift n) rules ⟨hcursor, hopen⟩
  generalize (s.parse rules).1 = r at hagree
  generalize (q.parse rules).1 = r' at hagree
  cases hagree with
  | ok t => rfl
  | error h => rw [h.eq_shift]; rfl

theorem continues_parse (rules : Rules) (s : Reader) : s.Continues (s.parse rules).2 := by
  have h := continues_complete rules s
  rw [parse]
  cases hs : complete rules s with
  | ok t s' => rwa [hs] at h
  | error e s' => rwa [hs] at h

/-- A tree is only returned at the end of the text. -/
theorem rest_eq_nil_of_parse {t : Expr} (h : (s.parse rules).1 = .ok t) :
    (s.parse rules).2.cursor.rest = [] := by
  rw [parse] at h ⊢
  cases hs : complete rules s with
  | error e s' => rw [hs] at h; cases h
  | ok t s' =>
    obtain ⟨tree, s₁, hs₁, -⟩ := Step.bind_eq_ok_iff.1 hs
    rw [complete_apply hs₁] at hs
    cases hlook : s₁.cursor.current? with
    | some c => simp [hlook] at hs
    | none =>
      simp only [hlook] at hs
      cases hs
      exact List.head?_eq_none_iff.1 hlook

/-- The reader after `n` calls, whatever they came to. -/
def afterCalls (rules : Rules) (s : Reader) : Nat → Reader
  | 0 => s
  | n + 1 => ((s.afterCalls rules n).parse rules).2

theorem continues_afterCalls (rules : Rules) (s : Reader) (n : Nat) :
    s.Continues (s.afterCalls rules n) := by
  induction n with
  | zero => exact .refl s
  | succ n ih => exact ih.trans (continues_parse rules _)

/-- A reader in the course of reading a text stands where its position says. -/
theorem rest_eq_drop {source : String} (h : (ofText source).Continues s) :
    s.cursor.rest = source.toList.drop s.cursor.position ∧
      s.cursor.position + s.left = source.length := by
  obtain ⟨text, hrest, hposition⟩ := h.reaches
  replace hrest : source.toList = text ++ s.cursor.rest := hrest
  replace hposition : s.cursor.position = text.length := by
    rw [hposition]
    exact Nat.zero_add _
  constructor
  · rw [hrest, hposition, List.drop_left]
  · rw [← String.length_toList, hrest, List.length_append, hposition, left]

/-- Each call parses the text from its place on, moves the columns by what stands before, and
leaves no factor open. The reader never goes back, and stands at the end behind a tree. -/
theorem parse_afterCalls (rules : Rules) (source : String) (n : Nat) :
    let s := (ofText source).afterCalls rules n
    let p := s.cursor.position
    let (result, s') := s.parse rules
    p ≤ source.length ∧
      result = shiftResult p (Expr.parse rules (.ofList (source.toList.drop p))) ∧
      s'.openFactors = 0 ∧
      p ≤ s'.cursor.position ∧
      ∀ t, result = .ok t → s'.cursor.position = source.length := by
  intro s p
  show p ≤ source.length ∧
    (s.parse rules).1 = shiftResult p (Expr.parse rules (.ofList (source.toList.drop p))) ∧
    (s.parse rules).2.openFactors = 0 ∧
    p ≤ (s.parse rules).2.cursor.position ∧
    ∀ t, (s.parse rules).1 = .ok t → (s.parse rules).2.cursor.position = source.length
  have hs : (ofText source).Continues s := continues_afterCalls rules _ n
  have hparse := continues_parse rules s
  obtain ⟨hrest, hlength⟩ := rest_eq_drop hs
  refine ⟨?_, ?_, ?_, hparse.reaches.position_le, ?_⟩
  · exact hlength ▸ Nat.le_add_right _ _
  · refine parse_shift ?_ hs.openFactors
    simp only [ofText, Cursor.ofText, Cursor.shift, String.toList_ofList, Nat.zero_add]
    rw [← hrest]
  · rw [hparse.openFactors, hs.openFactors]
    rfl
  · intro t ht
    obtain ⟨-, hend⟩ := rest_eq_drop (hs.trans hparse)
    rwa [left, rest_eq_nil_of_parse ht] at hend

end Reader

end Calculator
