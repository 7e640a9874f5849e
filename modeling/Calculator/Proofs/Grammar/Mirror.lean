import Calculator.Proofs.Expr.Bare
import Calculator.Proofs.Grammar.Repair
import Calculator.Proofs.Grammar.Settled

/-!
# Readings side by side

A permissive reading of a text beside a strict reading of the filled text. Where
the strict one fails, the permissive one fails as well, or is left with tokens
that nothing can go on with.
-/

namespace Calculator

namespace Token

variable {k : Nat} {ts : List Token}

/-- The next token is no character that may not follow an operator. -/
def Follows (ts : List Token) : Prop :=
  ∀ c, mark? ts = some c → isOperatorChar c = false

theorem mark?_fill_operator (k : Nat) (ts : List Token) :
    mark? (fill .operator k ts) = mark? ts := by
  cases ts with
  | nil => rfl
  | cons t ts =>
    cases hspace : t.isSpace with
    | true =>
      rw [fill_space hspace]
      cases t <;> rfl
    | false =>
      rw [fill_cons hspace rfl]
      cases t <;> rfl

/-- Behind an operand the next mark stays the same, but for parentheses closed at the end. -/
theorem bind_mark?_fill_operand {α : Type} {f : Char → Option α} (hf : f ')' = none) (k : Nat)
    (ts : List Token) : (mark? (fill .operand k ts)).bind f = (mark? ts).bind f := by
  cases ts with
  | nil =>
    cases k with
    | zero => rfl
    | succ k => exact hf
  | cons t ts =>
    cases hspace : t.isSpace with
    | true =>
      rw [fill_space hspace]
      cases t <;> rfl
    | false =>
      rw [fill_cons hspace rfl]
      cases t <;> rfl

theorem mark?_fill_operand_eq_iff {c : Char} (hc : c ≠ ')') (k : Nat) (ts : List Token) :
    mark? (fill .operand k ts) = some c ↔ mark? ts = some c := by
  have hf : (if ')' = c then some () else none) = none := if_neg (Ne.symm hc)
  have h := bind_mark?_fill_operand (f := fun d => if d = c then some () else none) hf k ts
  have hiff : ∀ o : Option Char, (o.bind fun d => if d = c then some () else none) = some () ↔
      o = some c := by
    intro o
    cases o with
    | none => simp
    | some d => simp
  rw [← hiff, h, hiff]

/-- Filling puts no sign in front and takes none away. -/
theorem sign?_fill (p : Place) (k : Nat) (ts : List Token) :
    (mark? (fill p k ts)).bind Sign.ofChar? = (mark? ts).bind Sign.ofChar? := by
  cases hp : p with
  | operand => exact bind_mark?_fill_operand rfl k ts
  | operator => rw [mark?_fill_operator]
  | start =>
    cases ts with
    | nil => rfl
    | cons t ts =>
      cases hspace : t.isSpace with
      | true =>
        rw [fill_space hspace]
        cases t <;> rfl
      | false =>
        cases hlacks : Place.start.lacks t with
        | true =>
          rw [fill_lacks hspace hlacks]
          simp only [Place.lacks, Bool.and_eq_true, Bool.or_eq_true, beq_iff_eq] at hlacks
          obtain ⟨-, ((rfl | rfl) | rfl) | rfl⟩ := hlacks
          all_goals rfl
        | false =>
          rw [fill_cons hspace hlacks]
          cases t <;> rfl

end Token

theorem Reader.isSpace_eq_false {s : Reader} {t : Token} {ts : List Token}
    (h : s.tokens = t :: ts) : t.isSpace = false := by
  have hmem : t ∈ Token.visible (Token.scan s.cursor.rest) := by
    have htokens : Token.visible (Token.scan s.cursor.rest) = t :: ts := h
    rw [htokens]
    exact List.mem_cons_self
  simpa using (List.mem_filter.1 hmem).2

namespace Grammar

open Step

/-- Trees that are equal up to columns. -/
structure Twins (t u : Measured) : Prop where
  bare_eq : t.expr.bare = u.expr.bare
  height_eq : t.height = u.height

/-- In `q` is left what is left in `s` and filled from the place on. -/
structure Fits (p : Place) (k : Nat) (s q : Reader) : Prop where
  tokens_eq : q.tokens = Token.fill p k s.tokens
  openFactors_eq : q.openFactors = s.openFactors

/-- An operand is expected, and no operator comes next behind an operator. -/
def Awaits (k : Nat) (s q : Reader) : Prop :=
  ∃ p, p ≠ .operand ∧ (p = .operator → Token.Follows s.tokens) ∧ Fits p k s q

/-- Something is left that no reading goes on with. -/
def Doomed (s : Reader) : Prop :=
  s.tokens ≠ [] ∧ Token.Follows s.tokens

def Lost : EStateM.Result ParseError Reader Measured → Prop
  | .ok _ s => Doomed s
  | .error _ _ => True

/-- The first, permissive outcome beside the second, strict one. -/
inductive Mirrors (k : Nat) : EStateM.Result ParseError Reader Measured →
    EStateM.Result ParseError Reader Measured → Prop where
  | ok {t u : Measured} {s q : Reader} (htwins : Twins t u) (hfits : Fits .operand k s q) :
      Mirrors k (.ok t s) (.ok u q)
  | lost {r : EStateM.Result ParseError Reader Measured} {e : ParseError} {q : Reader}
      (hlost : Lost r) : Mirrors k r (.error e q)

/-! ## Steps beside each other -/

namespace Fits

variable {p : Place} {k : Nat} {s q : Reader}

theorem skipSpaces (h : Fits p k s q) : Fits p k s.skipSpaces q.skipSpaces :=
  ⟨by rw [Reader.tokens_skipSpaces, Reader.tokens_skipSpaces, h.tokens_eq], h.openFactors_eq⟩

theorem note (h : Fits p k s q) (e e' : ParseEvent) : Fits p k (s.note e) (q.note e') :=
  ⟨h.tokens_eq, h.openFactors_eq⟩

/-- Passing a mark that shows no missing operand. -/
theorem pass {c : Char} (h : Fits p k s q) (hmark : Token.mark? s.tokens = some c)
    (hspace : (Token.mark c).isSpace = false) (hlacks : p.lacks (.mark c) = false) :
    Fits (p.after (.mark c)) ((Token.mark c).opened k) s.pass q.pass := by
  refine ⟨?_, h.openFactors_eq⟩
  have htokens := h.tokens_eq
  rw [Reader.tokens_eq_cons hmark, Token.fill_cons hspace hlacks] at htokens
  exact Reader.tokens_pass htokens

/-- Behind a binary operator. -/
theorem operator {op : BinaryOp} (h : Fits .operand k s q)
    (hmark : Token.mark? s.tokens = some op.symbol) : Fits .operator k s.pass q.pass := by
  have hpass := h.pass hmark (by cases op <;> rfl) rfl
  cases op <;> exact hpass

/-- Behind a sign. -/
theorem sign {sign : Sign} (h : Fits p k s q) (hp : p ≠ .operand)
    (hmark : Token.mark? s.tokens = some sign.symbol) : Fits .start k s.pass q.pass := by
  have hpass := h.pass hmark (by cases sign <;> rfl) (by cases sign <;> cases p <;> rfl)
  cases p with
  | start => cases sign <;> exact hpass
  | operator => cases sign <;> exact hpass
  | operand => exact absurd rfl hp

theorem passRun_number {run : List Char} {ts : List Token} (h : Fits p k s q)
    (hts : s.tokens = .number run :: ts) :
    Fits .operand k (s.passRun isNumberChar) (q.passRun isNumberChar) := by
  refine ⟨?_, h.openFactors_eq⟩
  have htokens := h.tokens_eq
  rw [hts, Token.fill_cons rfl (by cases p <;> rfl)] at htokens
  rw [Reader.tokens_passRun_number htokens, Reader.tokens_passRun_number hts]
  rfl

theorem passRun_word {run : List Char} {ts : List Token} (h : Fits p k s q)
    (hts : s.tokens = .word run :: ts) :
    Fits (p.after (.word run)) k (s.passRun Char.isLower) (q.passRun Char.isLower) := by
  refine ⟨?_, h.openFactors_eq⟩
  have htokens := h.tokens_eq
  rw [hts, Token.fill_cons rfl (by cases p <;> rfl)] at htokens
  rw [Reader.tokens_passRun_word htokens, Reader.tokens_passRun_word hts]
  rfl

end Fits

namespace Mirrors

variable {k k' : Nat} {s q : Reader}

theorem bind {a a' : Step Measured} {f f' : Measured → Step Measured}
    (h : Mirrors k (a s) (a' q))
    (hok : ∀ t u s' q', a s = .ok t s' → a' q = .ok u q' → Twins t u → Fits .operand k s' q' →
      Mirrors k' (f t s') (f' u q'))
    (hdoomed : ∀ t s', a s = .ok t s' → Doomed s' → Lost (f t s')) :
    Mirrors k' ((a >>= f) s) ((a' >>= f') q) := by
  rw [bind_apply, bind_apply]
  cases ha : a s with
  | ok t s' =>
    cases ha' : a' q with
    | ok u q' =>
      rw [ha, ha'] at h
      cases h with
      | ok htwins hfits => exact hok t u s' q' ha ha' htwins hfits
    | error e q' =>
      rw [ha, ha'] at h
      cases h with
      | lost hlost => exact .lost (hdoomed t s' ha hlost)
  | error e s' =>
    cases ha' : a' q with
    | ok u q' =>
      rw [ha, ha'] at h
      cases h
    | error e' q' => exact .lost trivial

/-- A bound that the tree keeps or exceeds on both sides. -/
theorem bounded {b : Bool} {t u : Measured} {e e' : ParseError} (htwins : Twins t u)
    (hfits : Fits .operand k s q) :
    Mirrors k (if b then .ok t s else .error e s) (if b then .ok u q else .error e' q) := by
  cases b with
  | true => exact .ok htwins hfits
  | false => exact .lost trivial

end Mirrors

theorem Mirrors.leave {k : Nat} {r r' : EStateM.Result ParseError Reader Measured} :
    Mirrors k r r' → Mirrors k
      (match r with
        | .ok t s => .ok t s.leave
        | .error e s => .error e s.leave)
      (match r' with
        | .ok u q => .ok u q.leave
        | .error e q => .error e q.leave) := by
  intro h
  cases h with
  | ok htwins hfits => exact .ok htwins ⟨hfits.tokens_eq, congrArg (· - 1) hfits.openFactors_eq⟩
  | @lost r e q hlost =>
    refine .lost ?_
    cases r with
    | ok t s => exact hlost
    | error e s => trivial

theorem lost_bounded {b : Bool} {t : Measured} {s : Reader} {e : ParseError} (h : Doomed s) :
    Lost (if b then .ok t s else .error e s) := by
  cases b with
  | true => exact h
  | false => trivial

theorem Doomed.skipSpaces {s : Reader} (h : Doomed s) : Doomed s.skipSpaces := by
  rw [Doomed, Reader.tokens_skipSpaces]
  exact h

end Grammar

end Calculator
