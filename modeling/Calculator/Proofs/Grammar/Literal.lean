import Calculator.Decimal.Numeral
import Calculator.Proofs.Grammar.Token

/-!
# Number literals

Which runs of digits and points are numbers, and which double each of them
stands for: the one nearest to its digits with the point among them.
-/

namespace Calculator

/-- A run of digits and points with at least one digit and at most one point. -/
structure IsLiteral (run : List Char) : Prop where
  all_numberChar : ∀ c ∈ run, isNumberChar c = true
  exists_digit : ∃ c ∈ run, c.isDigit = true
  count_point_le : run.count '.' ≤ 1

/-- How many characters follow the point. -/
def literalPlaces (run : List Char) : Nat :=
  (run.dropWhile (· != '.')).length - 1

/-- The double nearest to the number that a literal stands for. -/
def literalValue (run : List Char) : Float :=
  Binary64.ofBits (Decimal.ofDigits (run.filter Char.isDigit) (literalPlaces run)).bits

namespace Numeral

theorem isDigit_or_point {c : Char} (h : isNumberChar c = true) : c.isDigit = true ∨ c = '.' := by
  simpa [isNumberChar] using h

theorem readWord?_eq_none {run : List Char} (h : ∀ c ∈ run, isNumberChar c = true) :
    readWord? run = none := by
  have hn : 'n' ∉ run.map Char.toLower := by
    intro hmem
    obtain ⟨c, hc, hlower⟩ := List.mem_map.1 hmem
    have hnumber := h c hc
    have hupper : ¬ ('A'.val ≤ c.val ∧ c.val ≤ 'Z'.val) := by
      rintro ⟨hle, -⟩
      have hle' : 65 ≤ c.val.toNat := hle
      rcases isDigit_or_point hnumber with hdigit | rfl
      · simp only [Char.isDigit, Bool.and_eq_true, decide_eq_true_eq] at hdigit
        have hdigit' : c.val.toNat ≤ 57 := hdigit.2
        omega
      · exact absurd hle' (by decide)
    unfold Char.toLower at hlower
    rw [dif_neg hupper] at hlower
    rw [hlower] at hnumber
    cases hnumber
  have hword : ∀ word : String, 'n' ∈ word.toList →
      String.ofList (run.map Char.toLower) ≠ word := by
    rintro word hmem rfl
    rw [String.toList_ofList] at hmem
    exact hn hmem
  rw [readWord?]
  rw [if_neg (by
    rintro (h | h)
    · exact hword _ (by decide) h
    · exact hword _ (by decide) h), if_neg (hword _ (by decide))]

theorem readDecimal?_run {run : List Char} (h : ∀ c ∈ run, isNumberChar c = true) :
    readDecimal? run = Decimal.ofText? run := by
  have hmarks : ∀ c ∈ run, (!isExponentMark c) = true := by
    intro c hc
    rcases isDigit_or_point (h c hc) with hdigit | rfl
    · rw [isExponentMark_eq_false hdigit]
      rfl
    · rfl
  have ht : (run ++ []).takeWhile _ = _ := List.takeWhile_append_of_pos hmarks
  have hd : (run ++ []).dropWhile _ = _ := List.dropWhile_append_of_pos hmarks
  simp only [List.append_nil, List.takeWhile_nil, List.dropWhile_nil] at ht hd
  simp only [readDecimal?, ht, hd]

theorem splitSign_run {run : List Char} (h : ∀ c ∈ run, isNumberChar c = true) :
    splitSign run = (false, run) := by
  unfold splitSign
  split
  · exact absurd (h '-' (List.mem_cons_self ..)) (by decide)
  · exact absurd (h '+' (List.mem_cons_self ..)) (by decide)
  · rfl

theorem count_point_eq_zero {digits : List Char} (h : ∀ c ∈ digits, c.isDigit = true) :
    digits.count '.' = 0 := by
  rw [List.count_eq_zero]
  intro hmem
  exact absurd (h _ hmem) (by decide)

theorem isNumberChar_of_isDigit {c : Char} (h : c.isDigit = true) : isNumberChar c = true := by
  simp [isNumberChar, h]

theorem isLiteral_digits_iff {digits : List Char} (h : ∀ c ∈ digits, c.isDigit = true) :
    IsLiteral digits ↔ digits ≠ [] := by
  constructor
  · rintro ⟨-, ⟨c, hc, -⟩, -⟩
    exact List.ne_nil_of_mem hc
  · intro hne
    obtain ⟨c, hc⟩ := List.exists_mem_of_ne_nil digits hne
    refine ⟨fun c hc => isNumberChar_of_isDigit (h c hc), ⟨c, hc, h c hc⟩, ?_⟩
    rw [count_point_eq_zero h]
    exact Nat.zero_le 1

theorem isLiteral_point_iff {digits fraction : List Char}
    (h : ∀ c ∈ digits, c.isDigit = true) (hfraction : ∀ c ∈ fraction, isNumberChar c = true) :
    IsLiteral (digits ++ '.' :: fraction) ↔
      (∀ c ∈ fraction, c.isDigit = true) ∧ digits ++ fraction ≠ [] := by
  constructor
  · rintro ⟨-, ⟨c, hmem, hdigit⟩, hcount⟩
    rw [List.count_append, List.count_cons_self] at hcount
    constructor
    · intro c hmem
      rcases isDigit_or_point (hfraction c hmem) with hdigit | rfl
      · exact hdigit
      · have := List.count_pos_iff.2 hmem
        omega
    · rcases List.mem_append.1 hmem with hmem | hmem
      · exact List.ne_nil_of_mem (List.mem_append_left _ hmem)
      · rcases List.mem_cons.1 hmem with rfl | hmem
        · cases hdigit
        · exact List.ne_nil_of_mem (List.mem_append_right _ hmem)
  · rintro ⟨hdigits, hne⟩
    refine ⟨?_, ?_, ?_⟩
    · intro c hmem
      rcases List.mem_append.1 hmem with hmem | hmem
      · exact isNumberChar_of_isDigit (h c hmem)
      · rcases List.mem_cons.1 hmem with rfl | hmem
        · rfl
        · exact hfraction c hmem
    · obtain ⟨c, hmem⟩ := List.exists_mem_of_ne_nil _ hne
      rcases List.mem_append.1 hmem with hmem | hmem
      · exact ⟨c, by simp [hmem], h c hmem⟩
      · exact ⟨c, by simp [hmem], hdigits c hmem⟩
    · refine Nat.le_of_eq ?_
      rw [List.count_append, List.count_cons_self, count_point_eq_zero h,
        count_point_eq_zero hdigits]

theorem ne_point_of_isDigit {digits : List Char} (h : ∀ c ∈ digits, c.isDigit = true) :
    ∀ c ∈ digits, (c != '.') = true := by
  intro c hc
  rw [bne_iff_ne]
  rintro rfl
  exact absurd (h _ hc) (by decide)

theorem literalPlaces_digits {digits : List Char} (h : ∀ c ∈ digits, c.isDigit = true) :
    literalPlaces digits = 0 := by
  have hdrop : (digits ++ []).dropWhile (· != '.') = _ :=
    List.dropWhile_append_of_pos (ne_point_of_isDigit h)
  rw [List.append_nil] at hdrop
  rw [literalPlaces, hdrop]
  rfl

theorem literalPlaces_point {digits : List Char} (h : ∀ c ∈ digits, c.isDigit = true)
    (fraction : List Char) : literalPlaces (digits ++ '.' :: fraction) = fraction.length := by
  rw [literalPlaces, List.dropWhile_append_of_pos (ne_point_of_isDigit h)]
  rfl

/-- The digits of a run around its first point, with as many places as follow the point. -/
theorem ofText?_eq_some_iff {run : List Char} (h : ∀ c ∈ run, isNumberChar c = true)
    {d : Decimal} :
    Decimal.ofText? run = some d ↔
      IsLiteral run ∧ d = .ofDigits (run.filter Char.isDigit) (literalPlaces run) := by
  have hwhole : ∀ c ∈ run.takeWhile Char.isDigit, c.isDigit = true :=
    fun c hc => List.all_eq_true.1 List.all_takeWhile c hc
  have hsplit : run = run.takeWhile Char.isDigit ++ run.dropWhile Char.isDigit :=
    List.takeWhile_append_dropWhile.symm
  have hdrop := List.head?_dropWhile_not Char.isDigit run
  unfold Decimal.ofText?
  generalize run.takeWhile Char.isDigit = whole at *
  generalize run.dropWhile Char.isDigit = rest at *
  subst hsplit
  have hfilter : whole.filter Char.isDigit = whole := List.filter_eq_self.2 hwhole
  cases rest with
  | nil =>
    rw [List.append_nil, literalPlaces_digits hwhole, hfilter, isLiteral_digits_iff hwhole]
    by_cases hne : whole = []
    · simp [hne]
    · simp [hne, eq_comm]
  | cons c fraction =>
    obtain rfl : c = '.' := by
      rcases isDigit_or_point (h c (by simp)) with hdigit | rfl
      · simp only [List.head?_cons, hdigit, Bool.true_eq_false] at hdrop
      · rfl
    have hfraction : ∀ c ∈ fraction, isNumberChar c = true := fun c hc => h c (by simp [hc])
    rw [literalPlaces_point hwhole, List.filter_append, hfilter,
      List.filter_cons_of_neg (by decide), isLiteral_point_iff hwhole hfraction]
    by_cases hdigits : ∀ c ∈ fraction, c.isDigit = true
    · have hall : fraction.all Char.isDigit = true := List.all_eq_true.2 hdigits
      rw [List.filter_eq_self.2 hdigits]
      simp only [hall, true_and]
      constructor
      · intro hd
        split at hd
        · next hne =>
          cases hd
          exact ⟨⟨hdigits, hne⟩, rfl⟩
        · cases hd
      · rintro ⟨⟨-, hne⟩, rfl⟩
        rw [if_pos hne]
    · have hall : ¬ fraction.all Char.isDigit = true := fun hall =>
        hdigits (List.all_eq_true.1 hall)
      simp [hall, hdigits]

/-- A run is read exactly if it is a literal, as the value of the literal. -/
theorem read?_eq_some_iff {run : List Char} (h : ∀ c ∈ run, isNumberChar c = true) {x : Float} :
    read? run = some x ↔ IsLiteral run ∧ x = literalValue run := by
  simp only [read?, splitSign_run h, readMagnitude?, readDecimal?_run h, readWord?_eq_none h]
  cases hd : Decimal.ofText? run with
  | none =>
    constructor
    · intro hx
      cases hx
    · rintro ⟨hliteral, -⟩
      rw [(ofText?_eq_some_iff h).2 ⟨hliteral, rfl⟩] at hd
      cases hd
  | some d =>
    obtain ⟨hliteral, rfl⟩ := (ofText?_eq_some_iff h).1 hd
    constructor
    · intro hx
      cases hx
      exact ⟨hliteral, rfl⟩
    · rintro ⟨-, rfl⟩
      rfl

theorem read?_zero : read? ['0'] = some 0.0 := by
  have hmagnitude : readMagnitude? ['0'] = some (Binary64.nearest 0 1) := rfl
  have hnearest : Binary64.nearest 0 1 = 0 := by simp [Binary64.nearest, Binary64.roundDiv]
  have hbits : Binary64.ofBits 0 = 0.0 := rfl
  have hread : read? ['0'] = (readMagnitude? ['0']).map Binary64.ofBits := rfl
  rw [hread, hmagnitude, hnearest, Option.map_some, hbits]

end Numeral

end Calculator
