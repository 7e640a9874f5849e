import Calculator.Decimal.Basic

/-!
# Shortest decimal text of a double

Of the decimal fractions that read back as a given double, the ones with the
fewest significant digits, and of those the one nearest to the exact value.
For each number of digits only the two neighbours of the exact value need a
trial: if any fraction with that many digits reads back, one of them does.
-/

namespace Calculator.Decimal

-- A power of a natural number is the core one, also where other powers are in scope.
attribute [local instance (2000)] instPowNat

/-- The value itself, by `2 * 5 = 10`. -/
def exact (bits : Nat) : Decimal :=
  ⟨Binary64.units bits * 5 ^ Binary64.binaryPlaces, Binary64.binaryPlaces⟩

/-- Places that leave a value of `units` units at least seventeen digits before the point:
`302 / 1000` is more than the logarithm of two. -/
def scalePlaces (units : Nat) : Nat :=
  18 + (Binary64.binaryPlaces - units.log2) * 302 / 1000

/-- The two neighbours of `scaled / unitsPerOne` among the multiples of `step`, the nearer
one first. -/
def neighbours (scaled step : Nat) : List Nat :=
  let below := scaled / (step * Binary64.unitsPerOne)
  if 2 * scaled < (2 * below + 1) * (step * Binary64.unitsPerOne) then
    [below * step, (below + 1) * step]
  else
    [(below + 1) * step, below * step]

/-- A multiple of `step` that, with its last `places` digits after the point, reads back. -/
def roundedTo? (bits places scaled step : Nat) : Option Decimal :=
  (neighbours scaled step).findSome? fun n =>
    if (⟨n, places⟩ : Decimal).bits = bits then some ⟨n, places⟩ else none

/-- The shortest fraction that reads back as the given finite double; seventeen digits
always suffice. -/
def shortest (bits : Nat) : Decimal :=
  let places := scalePlaces (Binary64.units bits)
  let scaled := Binary64.units bits * 10 ^ places
  let size := (Nat.toDigits 10 (scaled / Binary64.unitsPerOne)).length
  let rounded? (count : Nat) := roundedTo? bits places scaled (10 ^ (size - count))
  ((List.range 17).findSome? fun i => rounded? (i + 1)).getD (exact bits)

theorem bits_exact {bits : Nat} (h : bits < Binary64.infinity) : (exact bits).bits = bits := by
  simp only [exact, Decimal.bits]
  rw [← Binary64.unitsPerOne_mul, Binary64.nearest_mul_right _ _ (Nat.pow_pos (by decide)),
    Binary64.nearest_units h]

theorem bits_of_roundedTo? {bits places scaled step : Nat} {d : Decimal}
    (h : roundedTo? bits places scaled step = some d) : d.bits = bits := by
  obtain ⟨n, -, hn⟩ := List.exists_of_findSome?_eq_some h
  split at hn
  · next hb => exact Option.some.inj hn ▸ hb
  · exact absurd hn nofun

/-- The shortest text reads back. -/
theorem bits_shortest {bits : Nat} (h : bits < Binary64.infinity) :
    (shortest bits).bits = bits := by
  simp only [shortest]
  cases hf : (List.range 17).findSome? _ with
  | none => exact bits_exact h
  | some d =>
    obtain ⟨i, -, hi⟩ := List.exists_of_findSome?_eq_some hf
    exact bits_of_roundedTo? hi

end Calculator.Decimal
