import Calculator.Proofs.Grammar.Calls
import Calculator.Proofs.Grammar.Scanning

/-!
# Tokens and their columns

The tokens of a text with the columns at which they begin. Spaces and
parentheses are left out of its sites, since no node of a tree stands for them.
What holds of any choice of tokens is said of the tokens that are to be kept.
-/

namespace Calculator

namespace Token

/-- The tokens with their columns, if the first one begins at the column `n`. -/
def locate : Nat → List Token → List (Token × Nat)
  | _, [] => []
  | n, t :: ts => (t, n) :: locate (n + t.text.length) ts

/-- Whether nodes stand for such tokens. -/
def isNodal (t : Token) : Bool :=
  t != mark ' ' && t != mark '(' && t != mark ')'

/-- The tokens of the characters for which nodes stand, if the first character has the column
`n`. -/
def sitesFrom (n : Nat) (cs : List Char) : List (Token × Nat) :=
  (locate n (scan cs)).filter fun site => site.1.isNodal

/-- The tokens of a text for which nodes stand, with their columns. -/
def sites (source : String) : List (Token × Nat) :=
  sitesFrom 1 source.toList

example : sites "12 * (x)" = [(number ['1', '2'], 1), (mark '*', 4), (word ['x'], 7)] := by cbv

variable {n : Nat}

theorem locate_append (n : Nat) (ts us : List Token) :
    locate n (ts ++ us) = locate n ts ++ locate (n + (ts.flatMap text).length) us := by
  induction ts generalizing n with
  | nil => rfl
  | cons t ts ih =>
    rw [List.cons_append, locate, ih, List.flatMap_cons, List.length_append, ← Nat.add_assoc]
    rfl

theorem locate_succ (n : Nat) (ts : List Token) :
    locate (n + 1) ts = (locate n ts).map (Prod.map id (· + 1)) := by
  induction ts generalizing n with
  | nil => rfl
  | cons t ts ih =>
    rw [locate, Nat.add_right_comm, ih]
    rfl

theorem map_fst_locate (n : Nat) (ts : List Token) : (locate n ts).map Prod.fst = ts := by
  induction ts generalizing n with
  | nil => rfl
  | cons t ts ih => rw [locate, List.map_cons, ih]

theorem le_of_mem_locate {ts : List Token} {site : Token × Nat} (h : site ∈ locate n ts) :
    n ≤ site.2 := by
  induction ts generalizing n with
  | nil => cases h
  | cons t ts ih =>
    rcases List.mem_cons.1 h with rfl | h
    · exact Nat.le_refl _
    · exact Nat.le_trans (Nat.le_add_right _ _) (ih h)

theorem lt_of_mem_locate {ts : List Token} (h : ∀ t ∈ ts, t.WellFormed) {site : Token × Nat}
    (hsite : site ∈ locate n ts) : site.2 < n + (ts.flatMap text).length := by
  induction ts generalizing n with
  | nil => cases hsite
  | cons t ts ih =>
    have hlength : 0 < t.text.length := List.length_pos_iff.2 (h t List.mem_cons_self).text_ne_nil
    rw [List.flatMap_cons, List.length_append]
    rcases List.mem_cons.1 hsite with rfl | hsite
    · exact Nat.lt_add_of_pos_right (Nat.add_pos_left hlength _)
    · rw [← Nat.add_assoc]
      exact ih (fun u hu => h u (List.mem_cons_of_mem t hu)) hsite

/-- Before a token stands as much text as its column says. -/
theorem exists_of_mem_locate {ts : List Token} {site : Token × Nat} (h : site ∈ locate n ts) :
    ∃ us vs, ts = us ++ site.1 :: vs ∧ site.2 = n + (us.flatMap text).length := by
  induction ts generalizing n with
  | nil => cases h
  | cons t ts ih =>
    rcases List.mem_cons.1 h with rfl | h
    · exact ⟨[], ts, rfl, rfl⟩
    · obtain ⟨us, vs, hts, hcolumn⟩ := ih h
      refine ⟨t :: us, vs, congrArg (t :: ·) hts, ?_⟩
      rw [hcolumn, List.flatMap_cons, List.length_append, Nat.add_assoc]

theorem pairwise_locate {ts : List Token} (h : ∀ t ∈ ts, t.WellFormed) (n : Nat) :
    (locate n ts).Pairwise fun a b => a.2 < b.2 := by
  induction ts generalizing n with
  | nil => exact .nil
  | cons t ts ih =>
    have hlength : 0 < t.text.length := List.length_pos_iff.2 (h t List.mem_cons_self).text_ne_nil
    apply List.Pairwise.cons
    · intro site hsite
      exact Nat.lt_of_lt_of_le (Nat.lt_add_of_pos_right hlength) (le_of_mem_locate hsite)
    · exact ih (fun u hu => h u (List.mem_cons_of_mem t hu)) _

theorem pairwise_sites (source : String) : (sites source).Pairwise fun a b => a.2 < b.2 :=
  (pairwise_locate (separated_scan source.toList).wellFormed 1).filter _

end Token

/-! ## The tokens before a reader -/

namespace Cursor

/-- The tokens still to be read, spaces included, with their columns. -/
def located (c : Cursor) : List (Token × Nat) :=
  Token.locate c.column (Token.scan c.rest)

/-- Those of them that count. -/
def counting (keep : Token → Bool) (c : Cursor) : List (Token × Nat) :=
  c.located.filter fun site => keep site.1

/-- The tokens still to be read for which nodes stand. -/
def sites (c : Cursor) : List (Token × Nat) :=
  Token.sitesFrom c.column c.rest

end Cursor

namespace Reader

open Token

variable {s : Reader} {run : List Char} {ts : List Token} {c : Char}

theorem located_mark (h : Token.mark? s.tokens = some c) :
    s.skipSpaces.cursor.located = (mark c, s.nextColumn) :: s.pass.cursor.located := by
  obtain ⟨hlook, hc⟩ := look_of_mark h
  have hrest := Cursor.rest_eq_cons hlook
  rw [Cursor.located, hrest, scan_mark hc, pass, advance, Cursor.advance, hrest]
  rfl

theorem located_number (h : s.tokens = .number run :: ts) :
    s.skipSpaces.cursor.located =
      (number run, s.nextColumn) :: (s.passRun isNumberChar).cursor.located := by
  obtain ⟨rfl, c, hlook, hc⟩ := look_of_number h
  rw [Cursor.located, Cursor.rest_eq_cons hlook, scan_number hc, ← Cursor.rest_eq_cons hlook]
  exact congrArg _ (congrArg₂ _ (Nat.add_right_comm _ _ _) rfl)

theorem located_word (h : s.tokens = .word run :: ts) :
    s.skipSpaces.cursor.located =
      (word run, s.nextColumn) :: (s.passRun Char.isLower).cursor.located := by
  obtain ⟨rfl, c, hlook, hc⟩ := look_of_word h
  rw [Cursor.located, Cursor.rest_eq_cons hlook, scan_word hc, ← Cursor.rest_eq_cons hlook]
  exact congrArg _ (congrArg₂ _ (Nat.add_right_comm _ _ _) rfl)

section Counting

variable (keep : Token → Bool) (hspace : keep (mark ' ') = false)
include hspace

theorem counting_skipSpaces (s : Reader) :
    s.skipSpaces.cursor.counting keep = s.cursor.counting keep := by
  obtain ⟨⟨rest, position⟩, openFactors, journal⟩ := s
  show Cursor.counting keep ⟨rest.dropWhile (· == ' '), _⟩ = Cursor.counting keep ⟨rest, position⟩
  induction rest generalizing position with
  | nil => rfl
  | cons c rest ih =>
    by_cases hc : c = ' '
    · subst hc
      rw [List.dropWhile_cons_of_pos rfl, List.takeWhile_cons_of_pos rfl, List.length_cons,
        Nat.add_comm (List.length _), ← Nat.add_assoc, ih (position + 1)]
      simp only [Cursor.counting, Cursor.located, Cursor.column]
      rw [scan_mark rfl, locate, List.filter_cons_of_neg (by simp [hspace])]
      rfl
    · rw [List.dropWhile_cons_of_neg (by simpa using hc),
        List.takeWhile_cons_of_neg (by simpa using hc)]
      rfl

theorem counting_cons {token : Token} {n : Nat} {c' : Cursor}
    (h : s.skipSpaces.cursor.located = (token, n) :: c'.located) (hkeep : keep token = true) :
    s.cursor.counting keep = (token, n) :: c'.counting keep := by
  rw [← counting_skipSpaces keep hspace, Cursor.counting, h,
    List.filter_cons_of_pos (by exact hkeep)]
  rfl

theorem counting_skip {token : Token} {n : Nat} {c' : Cursor}
    (h : s.skipSpaces.cursor.located = (token, n) :: c'.located) (hkeep : keep token = false) :
    s.cursor.counting keep = c'.counting keep := by
  rw [← counting_skipSpaces keep hspace, Cursor.counting, h,
    List.filter_cons_of_neg (by simp [hkeep])]
  rfl

theorem counting_eq_nil (h : s.tokens = []) : s.cursor.counting keep = [] := by
  have hrest : s.skipSpaces.cursor.rest = [] :=
    List.head?_eq_none_iff.1 (s.current?_eq_none_iff.2 h)
  rw [← counting_skipSpaces keep hspace, Cursor.counting, Cursor.located, hrest, scan]
  rfl

end Counting

/-! ### Those for which nodes stand -/

@[simp] theorem sites_skipSpaces (s : Reader) : s.skipSpaces.cursor.sites = s.cursor.sites :=
  counting_skipSpaces isNodal rfl s

theorem sites_mark (h : Token.mark? s.tokens = some c) (hnodal : (mark c).isNodal = true) :
    s.cursor.sites = (mark c, s.nextColumn) :: s.pass.cursor.sites :=
  counting_cons isNodal rfl (located_mark h) hnodal

theorem sites_skip (h : Token.mark? s.tokens = some c) (hnodal : (mark c).isNodal = false) :
    s.cursor.sites = s.pass.cursor.sites :=
  counting_skip isNodal rfl (located_mark h) hnodal

theorem sites_number (h : s.tokens = .number run :: ts) :
    s.cursor.sites = (number run, s.nextColumn) :: (s.passRun isNumberChar).cursor.sites :=
  counting_cons isNodal rfl (located_number h) rfl

theorem sites_word (h : s.tokens = .word run :: ts) :
    s.cursor.sites = (word run, s.nextColumn) :: (s.passRun Char.isLower).cursor.sites :=
  counting_cons isNodal rfl (located_word h) rfl

theorem sites_eq_nil (h : s.tokens = []) : s.cursor.sites = [] :=
  counting_eq_nil isNodal rfl h

end Reader

end Calculator
