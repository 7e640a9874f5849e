import Calculator.Binary64.Float
import Calculator.Decimal.Shortest

/-!
# Numerals

The texts of doubles. What is written has no exponent; what is read may have
one, and may be a word for infinity or for no number, in letters of any case.
-/

namespace Calculator.Numeral

def nanBits : Nat := 0x7FF8000000000000

/-- Whether there is a minus sign, and what follows the sign. -/
def splitSign : List Char → Bool × List Char
  | '-' :: cs => (true, cs)
  | '+' :: cs => (false, cs)
  | cs => (false, cs)

def readWord? (cs : List Char) : Option Nat :=
  let word := String.ofList (cs.map Char.toLower)
  if word = "inf" ∨ word = "infinity" then some Binary64.infinity
  else if word = "nan" then some nanBits
  else none

/-- The decimal `d` times ten to the power written in `cs`. A power beyond `limit` counts
as `limit`. -/
def applyExponent? (limit : Nat) (d : Decimal) (cs : List Char) : Option Decimal :=
  let (negative, digits) := splitSign cs
  if digits ≠ [] ∧ digits.all Char.isDigit then
    let e := min (Nat.ofDigitChars 10 digits 0) limit
    some (if negative then d.scaleDown e else d.scaleUp e)
  else none

def isExponentMark (c : Char) : Bool :=
  c == 'e' || c == 'E'

/-- A decimal fraction with an optional exponent. A fraction of `n` characters lies between
`10 ^ (-n)` and `10 ^ n` unless it is zero, so that a power beyond `n + 400` makes it zero or
infinite all the same. -/
def readDecimal? (cs : List Char) : Option Decimal :=
  let body := cs.takeWhile (!isExponentMark ·)
  match cs.dropWhile (!isExponentMark ·) with
  | [] => Decimal.ofText? body
  | _ :: power => (Decimal.ofText? body).bind (applyExponent? (body.length + 400) · power)

def readMagnitude? (cs : List Char) : Option Nat :=
  match readDecimal? cs with
  | some d => some d.bits
  | none => readWord? cs

/-- The double that a text stands for, if it is a numeral. -/
def read? (cs : List Char) : Option Float :=
  let (negative, magnitude) := splitSign cs
  (readMagnitude? magnitude).map fun bits =>
    if negative then -(Binary64.ofBits bits) else Binary64.ofBits bits

def writeMagnitude (bits : Nat) : List Char :=
  if bits < Binary64.infinity then (Decimal.shortest bits).text
  else "inf".toList

/-- The shortest positional text that reads back as the same double. -/
def write (x : Float) : String :=
  let bits := Binary64.toBits x
  if Binary64.infinity < bits % Binary64.signBit then "NaN"
  else if bits < Binary64.signBit then String.ofList (writeMagnitude bits)
  else String.ofList ('-' :: writeMagnitude (bits - Binary64.signBit))

theorem isExponentMark_eq_false {c : Char} (h : c.isDigit = true) : isExponentMark c = false := by
  cases hc : isExponentMark c with
  | false => rfl
  | true =>
    simp only [isExponentMark, Bool.or_eq_true, beq_iff_eq] at hc
    rcases hc with rfl | rfl <;> cases h

theorem splitSign_of_isDigit {c : Char} {cs : List Char} (h : c.isDigit = true) :
    splitSign (c :: cs) = (false, c :: cs) := by
  unfold splitSign
  split
  · next hc => cases hc; cases h
  · next hc => cases hc; cases h
  · rfl

theorem readDecimal?_text (d : Decimal) :
    readDecimal? d.text = some (.ofDigits d.digits d.fraction.length) := by
  have hmarks : ∀ c ∈ d.text, (!isExponentMark c) = true := fun c hc => by
    rcases Decimal.isDigit_or_point_of_mem_text hc with h | rfl
    · rw [isExponentMark_eq_false h]; rfl
    · rfl
  have ht : (d.text ++ []).takeWhile _ = _ := List.takeWhile_append_of_pos hmarks
  have hd : (d.text ++ []).dropWhile _ = _ := List.dropWhile_append_of_pos hmarks
  simp only [List.append_nil, List.takeWhile_nil, List.dropWhile_nil] at ht hd
  simp only [readDecimal?, ht, hd, Decimal.ofText?_text]

theorem toList_write {x : Float} (h : Binary64.toBits x < Binary64.infinity) :
    (write x).toList = (Decimal.shortest (Binary64.toBits x)).text := by
  have hlt : Binary64.toBits x < Binary64.signBit := Nat.lt_trans h (by decide)
  have hmod : ¬ Binary64.infinity < Binary64.toBits x % Binary64.signBit := by
    rw [Nat.mod_eq_of_lt hlt]
    exact Nat.lt_asymm h
  simp only [write, if_neg hmod, if_pos hlt, writeMagnitude, if_pos h, String.toList_ofList]

/-- What is written for a finite double without a minus sign reads back as that double. -/
theorem read?_write {x : Float} (h : Binary64.toBits x < Binary64.infinity) :
    read? (write x).toList = some x := by
  obtain ⟨c, cs, hcs, hc⟩ := Decimal.text_eq_cons (Decimal.shortest (Binary64.toBits x))
  have hsign : splitSign (write x).toList = (false, (write x).toList) := by
    rw [toList_write h, hcs]
    exact splitSign_of_isDigit hc
  have hread : readMagnitude? (write x).toList = some (Binary64.toBits x) := by
    rw [toList_write h, readMagnitude?, readDecimal?_text]
    show some (Decimal.ofDigits _ _).bits = _
    rw [Decimal.bits_of_ofText?_text, Decimal.bits_shortest h]
  simp only [read?, hsign, hread, Option.map_some, Binary64.ofBits_toBits h]
  rfl

end Calculator.Numeral
