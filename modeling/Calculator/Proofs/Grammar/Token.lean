import Calculator.Grammar.Reader

/-!
# Tokens

A text as the list of its tokens: the longest runs of number characters, the
longest runs of lowercase letters, and every other character by itself. Spaces
count as tokens of the text, but not for the grammar.
-/

namespace Calculator

inductive Token where
  /-- A run of digits and points. -/
  | number (run : List Char)
  /-- A run of lowercase letters. -/
  | word (run : List Char)
  | mark (c : Char)
deriving DecidableEq, Repr

/-- The characters that are tokens by themselves. -/
def isMarkChar (c : Char) : Bool :=
  !isNumberChar c && !c.isLower

namespace Token

def text : Token → List Char
  | number run => run
  | word run => run
  | mark c => [c]

def isSpace (t : Token) : Bool :=
  t == mark ' '

/-- The tokens of a text, spaces included. -/
def scan : List Char → List Token
  | [] => []
  | c :: cs =>
    if isNumberChar c then
      number (c :: cs.takeWhile isNumberChar) :: scan (cs.dropWhile isNumberChar)
    else if c.isLower then
      word (c :: cs.takeWhile Char.isLower) :: scan (cs.dropWhile Char.isLower)
    else mark c :: scan cs
termination_by cs => cs.length
decreasing_by
  · exact Nat.lt_succ_of_le (List.dropWhile_suffix _).length_le
  · exact Nat.lt_succ_of_le (List.dropWhile_suffix _).length_le
  · exact Nat.lt_succ_self _

/-- The tokens that the grammar sees. -/
def visible (ts : List Token) : List Token :=
  ts.filter fun t => !t.isSpace

def ofText (cs : List Char) : List Token :=
  visible (scan cs)

/-- The mark that comes first. -/
def mark? : List Token → Option Char
  | mark c :: _ => some c
  | _ => none

theorem mark?_eq_some_iff {ts : List Token} {c : Char} :
    mark? ts = some c ↔ ∃ us, ts = mark c :: us := by
  constructor
  · intro h
    unfold mark? at h
    split at h
    · next d us =>
      cases h
      exact ⟨us, rfl⟩
    · cases h
  · rintro ⟨us, rfl⟩
    rfl

/-! ## Scanning -/

theorem isLower_eq_false_of_isNumberChar {c : Char} (h : isNumberChar c = true) :
    c.isLower = false := by
  simp only [isNumberChar, Char.isDigit, Bool.or_eq_true, Bool.and_eq_true, decide_eq_true_eq,
    beq_iff_eq] at h
  rcases h with ⟨-, h⟩ | rfl
  · have hc : c.val.toNat ≤ 57 := h
    unfold Char.isLower
    rw [Bool.and_eq_false_iff]
    left
    have : ¬ 'a'.val ≤ c.val := fun hle => by
      have hle' : 97 ≤ c.val.toNat := hle
      omega
    simpa using this
  · rfl

theorem scan_number {c : Char} {cs : List Char} (h : isNumberChar c = true) :
    scan (c :: cs) =
      number ((c :: cs).takeWhile isNumberChar) :: scan ((c :: cs).dropWhile isNumberChar) := by
  rw [scan, if_pos h, List.takeWhile_cons_of_pos h, List.dropWhile_cons_of_pos h]

theorem scan_word {c : Char} {cs : List Char} (h : c.isLower = true) :
    scan (c :: cs) =
      word ((c :: cs).takeWhile Char.isLower) :: scan ((c :: cs).dropWhile Char.isLower) := by
  have hn : ¬ isNumberChar c = true := fun hn => by
    rw [isLower_eq_false_of_isNumberChar hn] at h
    cases h
  rw [scan, if_neg hn, if_pos h, List.takeWhile_cons_of_pos h, List.dropWhile_cons_of_pos h]

theorem scan_mark {c : Char} {cs : List Char} (h : isMarkChar c = true) :
    scan (c :: cs) = mark c :: scan cs := by
  simp only [isMarkChar, Bool.and_eq_true, Bool.not_eq_true'] at h
  rw [scan, if_neg (by simp [h.1]), if_neg (by simp [h.2])]

theorem visible_space {t : Token} (h : t.isSpace = true) (ts : List Token) :
    visible (t :: ts) = visible ts :=
  List.filter_cons_of_neg (by simp [h])

theorem visible_cons {t : Token} (h : t.isSpace = false) (ts : List Token) :
    visible (t :: ts) = t :: visible ts :=
  List.filter_cons_of_pos (by simp [h])

@[simp] theorem ofText_nil : ofText [] = [] := by
  simp [ofText, scan, visible]

theorem ofText_space (cs : List Char) : ofText (' ' :: cs) = ofText cs := by
  rw [ofText, scan_mark (by decide), visible_space rfl, ofText]

theorem ofText_dropSpaces (cs : List Char) : ofText (cs.dropWhile (· == ' ')) = ofText cs := by
  induction cs with
  | nil => rfl
  | cons c cs ih =>
    by_cases hc : c = ' '
    · subst hc
      rw [List.dropWhile_cons_of_pos (by decide), ih, ofText_space]
    · rw [List.dropWhile_cons_of_neg (by simpa using hc)]

theorem ofText_number {c : Char} {cs : List Char} (h : isNumberChar c = true) :
    ofText (c :: cs) =
      number ((c :: cs).takeWhile isNumberChar) :: ofText ((c :: cs).dropWhile isNumberChar) := by
  rw [ofText, scan_number h, visible_cons rfl, ofText]

theorem ofText_word {c : Char} {cs : List Char} (h : c.isLower = true) :
    ofText (c :: cs) =
      word ((c :: cs).takeWhile Char.isLower) :: ofText ((c :: cs).dropWhile Char.isLower) := by
  rw [ofText, scan_word h, visible_cons rfl, ofText]

theorem ofText_mark {c : Char} {cs : List Char} (h : isMarkChar c = true) (hc : c ≠ ' ') :
    ofText (c :: cs) = mark c :: ofText cs := by
  rw [ofText, scan_mark h, visible_cons (by simpa [isSpace] using hc), ofText]

end Token

end Calculator
