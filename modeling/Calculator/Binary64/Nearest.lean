/-!
# The double nearest to a ratio

Nonnegative doubles are named by their bits, which count upwards from zero to
infinity. Every finite one is a whole number of units, a unit being the least
positive double.

`nearest_units` says that the exact value of a double rounds to that double,
and `nearest_mul_right` that rounding depends on the ratio alone.
-/

namespace Calculator.Binary64

-- A power of a natural number is the core one, also where other powers are in scope.
attribute [local instance (2000)] instPowNat

/-- The whole number nearest to `n / d`; halfway between two it is the even one. -/
def roundDiv (n d : Nat) : Nat :=
  if 2 * (n % d) < d ∨ 2 * (n % d) = d ∧ n / d % 2 = 0 then n / d else n / d + 1

def infinity : Nat := 0x7FF0000000000000

/-- How many doubles share an exponent: the fraction of a significand has 52 bits. -/
def fractionRange : Nat := 0x10000000000000

theorem fractionRange_eq : fractionRange = 2 ^ (52 : Nat) := rfl

/-- The bits of a negative double are this much above those of its absolute value. -/
def signBit : Nat := 0x8000000000000000

/-- The places after the binary point of the least positive double. -/
def binaryPlaces : Nat := 1074

/-- How many units make one. -/
def unitsPerOne : Nat := 2 ^ binaryPlaces

theorem unitsPerOne_pos : 0 < unitsPerOne :=
  Nat.two_pow_pos binaryPlaces

theorem unitsPerOne_mul : unitsPerOne * 5 ^ binaryPlaces = 10 ^ binaryPlaces := by
  simp only [unitsPerOne, ← Nat.mul_pow, Nat.reduceMul]

/-- The value of a finite double in units. -/
def units (bits : Nat) : Nat :=
  if bits < fractionRange then bits
  else (bits % fractionRange + fractionRange) * 2 ^ (bits / fractionRange - 1)

/-- The double nearest to `n / d`. The significand has up to 53 bits, and `shift` of the
bits below them are rounded away. A significand that is rounded up to 54 bits carries into
the exponent. -/
def nearest (n d : Nat) : Nat :=
  let shift := (n * unitsPerOne / d).log2 - 52
  min (shift * fractionRange + roundDiv (n * unitsPerOne) (d * 2 ^ shift)) infinity

theorem roundDiv_mul_right (n d : Nat) {c : Nat} (hc : 0 < c) :
    roundDiv (n * c) (d * c) = roundDiv n d := by
  have hq : n * c / (d * c) = n / d := Nat.mul_div_mul_right n d hc
  have hr : n * c % (d * c) = n % d * c := Nat.mul_mod_mul_right c n d
  have hlt : 2 * (n % d * c) < d * c ↔ 2 * (n % d) < d := by
    rw [← Nat.mul_assoc]
    exact Nat.mul_lt_mul_right hc
  have heq : 2 * (n % d * c) = d * c ↔ 2 * (n % d) = d := by
    rw [← Nat.mul_assoc]
    exact Nat.mul_left_inj (Nat.ne_of_gt hc)
  simp only [roundDiv, hq, hr, hlt, heq]

@[simp] theorem roundDiv_mul_self (n : Nat) {d : Nat} (hd : 0 < d) : roundDiv (n * d) d = n := by
  simp [roundDiv, Nat.mul_div_cancel n hd, hd]

theorem nearest_mul_right (n d : Nat) {c : Nat} (hc : 0 < c) :
    nearest (n * c) (d * c) = nearest n d := by
  have hn : n * c * unitsPerOne = n * unitsPerOne * c := Nat.mul_right_comm n c unitsPerOne
  have hd (k : Nat) : d * c * k = d * k * c := Nat.mul_right_comm d c k
  simp only [nearest, hn, Nat.mul_div_mul_right _ _ hc, hd, roundDiv_mul_right _ _ hc]

theorem log2_sub_of_lt {n : Nat} (h : n < fractionRange) : n.log2 - 52 = 0 := by
  by_cases h0 : n = 0
  · simp [h0]
  · rw [fractionRange_eq] at h
    have := (Nat.log2_lt h0).2 h
    omega

theorem log2_sub_shifted {m : Nat} (lo : fractionRange ≤ m) (hi : m < 2 * fractionRange)
    (k : Nat) : (m * 2 ^ k).log2 - 52 = k := by
  have hpos : 0 < 2 ^ k := Nat.two_pow_pos k
  have hne : m * 2 ^ k ≠ 0 := Nat.ne_of_gt (Nat.mul_pos (by omega) hpos)
  have : (m * 2 ^ k).log2 = 52 + k := by
    rw [Nat.log2_eq_iff hne, Nat.pow_add, Nat.add_right_comm, Nat.pow_add]
    exact ⟨Nat.mul_le_mul_right _ lo, Nat.mul_lt_mul_of_pos_right hi hpos⟩
  omega

theorem nearest_units {bits : Nat} (h : bits < infinity) :
    nearest (units bits) unitsPerOne = bits := by
  have hpos := unitsPerOne_pos
  unfold units
  split
  · next hs =>
    simp only [nearest, Nat.mul_div_cancel _ hpos, log2_sub_of_lt hs]
    simp [roundDiv_mul_self _ hpos, Nat.min_eq_left (Nat.le_of_lt h)]
  · next hs =>
    have hlo : fractionRange ≤ bits % fractionRange + fractionRange := Nat.le_add_left _ _
    have hhi : bits % fractionRange + fractionRange < 2 * fractionRange := by
      unfold fractionRange
      omega
    simp only [nearest, Nat.mul_div_cancel _ hpos, log2_sub_shifted hlo hhi]
    rw [Nat.mul_assoc, Nat.mul_comm (2 ^ _) unitsPerOne,
      roundDiv_mul_self _ (Nat.mul_pos hpos (Nat.two_pow_pos _))]
    have hbits : (bits / fractionRange - 1) * fractionRange +
        (bits % fractionRange + fractionRange) = bits := by
      unfold fractionRange at hs ⊢
      omega
    rw [hbits, Nat.min_eq_left (Nat.le_of_lt h)]

end Calculator.Binary64
