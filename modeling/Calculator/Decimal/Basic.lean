import Calculator.Binary64.Nearest
import Calculator.Text

/-!
# Decimal fractions

A decimal fraction, its positional text, and the reading of such texts: digits
with at most one point among them, and at least one digit. A text reads back as a
fraction with the same nearest double, whatever zeros at its end were left out.
-/

namespace Calculator

/-- The number `coefficient / 10 ^ places`. -/
structure Decimal where
  coefficient : Nat
  places : Nat
deriving DecidableEq

namespace Decimal

-- A power of a natural number is the core one, also where other powers are in scope.
attribute [local instance (2000)] instPowNat

/-- The nearest double. -/
def bits (d : Decimal) : Nat :=
  Binary64.nearest d.coefficient (10 ^ d.places)

/-- The number times `10 ^ e`. -/
def scaleUp (d : Decimal) (e : Nat) : Decimal :=
  ⟨d.coefficient * 10 ^ e, d.places⟩

/-- The number divided by `10 ^ e`. -/
def scaleDown (d : Decimal) (e : Nat) : Decimal :=
  ⟨d.coefficient, d.places + e⟩

/-- The digits of `n`, preceded by as many zeros as make them at least `width`. -/
def padded (width n : Nat) : List Char :=
  (Nat.toDigits 10 n).leftpad width '0'

/-- The digits after the point, up to the last that is not zero. -/
def fraction (d : Decimal) : List Char :=
  Text.trimEnd (· == '0') (padded d.places (d.coefficient % 10 ^ d.places))

/-- The digits before the point, then the fraction after a point if there is one. -/
def text (d : Decimal) : List Char :=
  Nat.toDigits 10 (d.coefficient / 10 ^ d.places) ++
    match d.fraction with
    | [] => []
    | digits => '.' :: digits

/-- The number that digits with a point before the last `places` of them stand for. -/
def ofDigits (digits : List Char) (places : Nat) : Decimal :=
  ⟨Nat.ofDigitChars 10 digits 0, places⟩

def ofText? (cs : List Char) : Option Decimal :=
  let whole := cs.takeWhile Char.isDigit
  match cs.dropWhile Char.isDigit with
  | [] => if whole = [] then none else some (ofDigits whole 0)
  | c :: fraction =>
      if c = '.' ∧ fraction.all Char.isDigit ∧ whole ++ fraction ≠ [] then
        some (ofDigits (whole ++ fraction) fraction.length)
      else none

/-! ## Reading texts back -/

theorem isDigit_of_mem_padded {width n : Nat} {c : Char} (h : c ∈ padded width n) :
    c.isDigit = true := by
  simp only [padded, List.leftpad, List.mem_append, List.mem_replicate] at h
  rcases h with ⟨-, rfl⟩ | h
  · rfl
  · exact Nat.isDigit_of_mem_toDigits (by decide) (by decide) h

theorem length_padded {width n : Nat} (hw : 0 < width) (hn : n < 10 ^ width) :
    (padded width n).length = width := by
  have := (Nat.length_toDigits_le_iff (by decide) hw).2 hn
  rw [padded, List.length_leftpad]
  omega

theorem ofDigitChars_padded (width n init : Nat) :
    Nat.ofDigitChars 10 (padded width n) init = 10 ^ (padded width n).length * init + n := by
  rw [Nat.ofDigitChars_eq_ofDigitChars_zero]
  simp [padded, List.leftpad, Nat.ofDigitChars_append]

theorem isDigit_of_mem_fraction {d : Decimal} {c : Char} (h : c ∈ d.fraction) :
    c.isDigit = true := by
  have hmem : c ∈ padded d.places (d.coefficient % 10 ^ d.places) := by
    rw [← Text.trimEnd_append (· == '0') (padded d.places (d.coefficient % 10 ^ d.places))]
    exact List.mem_append_left _ h
  exact isDigit_of_mem_padded hmem

/-- The zeros left out at the end of a fraction. -/
theorem fraction_append (d : Decimal) :
    ∃ zeros, d.fraction ++ List.replicate zeros '0' =
      padded d.places (d.coefficient % 10 ^ d.places) := by
  let digits := padded d.places (d.coefficient % 10 ^ d.places)
  refine ⟨(digits.reverse.takeWhile (· == '0')).length, ?_⟩
  have hzeros : (digits.reverse.takeWhile (· == '0')).reverse =
      List.replicate (digits.reverse.takeWhile (· == '0')).length '0' := by
    refine List.eq_replicate_iff.2 ⟨List.length_reverse, fun c hc => ?_⟩
    have hall := List.all_takeWhile (l := digits.reverse) (p := (· == '0'))
    simpa using List.all_eq_true.1 hall c (List.mem_reverse.1 hc)
  rw [← hzeros]
  exact Text.trimEnd_append (· == '0') digits

/-- The digits of the text without the point. -/
def digits (d : Decimal) : List Char :=
  Nat.toDigits 10 (d.coefficient / 10 ^ d.places) ++ d.fraction

theorem isDigit_or_point_of_mem_text {d : Decimal} {c : Char} (h : c ∈ d.text) :
    c.isDigit = true ∨ c = '.' := by
  unfold text at h
  rcases List.mem_append.1 h with h | h
  · exact .inl (Nat.isDigit_of_mem_toDigits (by decide) (by decide) h)
  · split at h
    · cases h
    · rcases List.mem_cons.1 h with rfl | h
      · exact .inr rfl
      · exact .inl (isDigit_of_mem_fraction h)

/-- A text begins with a digit. -/
theorem text_eq_cons (d : Decimal) : ∃ c cs, d.text = c :: cs ∧ c.isDigit = true := by
  unfold text
  cases h : Nat.toDigits 10 (d.coefficient / 10 ^ d.places) with
  | nil => exact absurd h Nat.toDigits_ne_nil
  | cons c cs =>
    have hc : c ∈ Nat.toDigits 10 (d.coefficient / 10 ^ d.places) := h ▸ List.mem_cons_self ..
    exact ⟨c, _, rfl, Nat.isDigit_of_mem_toDigits (by decide) (by decide) hc⟩

theorem ofText?_text (d : Decimal) :
    ofText? d.text = some (ofDigits d.digits d.fraction.length) := by
  have hwhole : ∀ c ∈ Nat.toDigits 10 (d.coefficient / 10 ^ d.places), c.isDigit = true :=
    fun c hc => Nat.isDigit_of_mem_toDigits (by decide) (by decide) hc
  have hne := @Nat.toDigits_ne_nil (d.coefficient / 10 ^ d.places) 10
  have hfraction : ∀ c ∈ d.fraction, c.isDigit = true := fun c => isDigit_of_mem_fraction
  unfold text digits
  generalize Nat.toDigits 10 (d.coefficient / 10 ^ d.places) = whole at *
  generalize d.fraction = fraction at *
  cases fraction with
  | nil =>
    have hwhole' : ∀ c ∈ whole, c.isDigit := hwhole
    have ht : (whole ++ []).takeWhile _ = _ := List.takeWhile_append_of_pos hwhole'
    have hd : (whole ++ []).dropWhile _ = _ := List.dropWhile_append_of_pos hwhole'
    simp only [List.append_nil, List.takeWhile_nil, List.dropWhile_nil] at ht hd
    simp [ofText?, ht, hd, hne]
  | cons c cs =>
    simp [ofText?, List.takeWhile_append_of_pos hwhole, List.dropWhile_append_of_pos hwhole, hne,
      hfraction c (List.mem_cons_self ..)]
    exact fun c hc => hfraction c (List.mem_cons_of_mem _ hc)

/-- Reading a text back gives the nearest double of the fraction that was written. -/
theorem bits_of_ofText?_text (d : Decimal) :
    (ofDigits d.digits d.fraction.length).bits = d.bits := by
  rcases Nat.eq_zero_or_pos d.places with hp | hp
  · have hf : d.fraction = [] := by
      simp [fraction, hp, padded, Nat.mod_one, Text.trimEnd]
    simp [digits, ofDigits, bits, hf, hp]
  · obtain ⟨zeros, hz⟩ := fraction_append d
    have hlt : d.coefficient % 10 ^ d.places < 10 ^ d.places :=
      Nat.mod_lt _ (Nat.pow_pos (by decide))
    have hlen : d.fraction.length + zeros = d.places := by
      rw [← length_padded hp hlt, ← hz]
      simp
    have hvalue : Nat.ofDigitChars 10 d.digits 0 * 10 ^ zeros = d.coefficient := by
      have h : Nat.ofDigitChars 10 (d.digits ++ List.replicate zeros '0') 0 = d.coefficient := by
        rw [digits, List.append_assoc, hz, Nat.ofDigitChars_append, Nat.ofDigitChars_ten_toDigits,
          ofDigitChars_padded, length_padded hp hlt]
        exact Nat.div_add_mod _ _
      rw [Nat.ofDigitChars_append, Nat.ofDigitChars_replicate_zero] at h
      rw [Nat.mul_comm]
      exact h
    show Binary64.nearest (Nat.ofDigitChars 10 d.digits 0) (10 ^ d.fraction.length) =
      Binary64.nearest d.coefficient (10 ^ d.places)
    rw [← hvalue, ← hlen, Nat.pow_add, Binary64.nearest_mul_right _ _ (Nat.pow_pos (by decide))]

end Decimal

end Calculator
