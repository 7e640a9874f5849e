import Calculator.Proofs.Expr.Bare
import Calculator.Proofs.Grammar.Literal
import Calculator.Proofs.Grammar.Settled

/-!
# Derivations

    expression = term (('+' | '-') term')*
    term       = factor (('*' | '/') factor')*
    factor     = sign factor | primary | base '^' factor'
    primary    = base | function factor
    base       = number | variable | '(' expression ')'

A primed operand does not begin with an operator or a closing parenthesis. The
grammar is a relation between tokens and trees and mentions no reader. It says
nothing about columns.
-/

namespace Calculator

inductive Nonterminal where
  | expression
  | term
  | factor
  | primary
  | base

/-- The tokens may follow an operator. -/
def FollowsOperator (ts : List Token) : Prop :=
  ∀ c ∈ ['+', '-', '*', '/', '^', ')'], Token.mark? ts ≠ some c

/-- The tokens are derived from the nonterminal with the given tree, in such a way that at most
`n` factors are nested in one another. -/
inductive Derives : Nonterminal → List Token → Expr → Nat → Prop where
  | term {ts : List Token} {t : Expr} {n : Nat} (h : Derives .term ts t n) :
      Derives .expression ts t n
  | sum {ts us : List Token} {l r : Expr} {m n : Nat} {op : BinaryOp} (column : Nat)
      (hop : op = .add ∨ op = .sub) (hl : Derives .expression ts l m)
      (hus : FollowsOperator us) (hr : Derives .term us r n) :
      Derives .expression (ts ++ .mark op.symbol :: us) (.binary op l r column) (max m n)
  | factor {ts : List Token} {t : Expr} {n : Nat} (h : Derives .factor ts t n) :
      Derives .term ts t n
  | product {ts us : List Token} {l r : Expr} {m n : Nat} {op : BinaryOp} (column : Nat)
      (hop : op = .mul ∨ op = .div) (hl : Derives .term ts l m)
      (hus : FollowsOperator us) (hr : Derives .factor us r n) :
      Derives .term (ts ++ .mark op.symbol :: us) (.binary op l r column) (max m n)
  | signed {ts : List Token} {t : Expr} {n : Nat} (sign : Sign) (column : Nat)
      (h : Derives .factor ts t n) :
      Derives .factor (.mark sign.symbol :: ts) (.unary sign t column) (n + 1)
  | primary {ts : List Token} {t : Expr} {n : Nat} (h : Derives .primary ts t n) :
      Derives .factor ts t (n + 1)
  | power {ts us : List Token} {l r : Expr} {m n : Nat} (column : Nat)
      (hl : Derives .base ts l m) (hus : FollowsOperator us) (hr : Derives .factor us r n) :
      Derives .factor (ts ++ .mark '^' :: us) (.binary .pow l r column) (max m n + 1)
  | base {ts : List Token} {t : Expr} {n : Nat} (h : Derives .base ts t n) :
      Derives .primary ts t n
  | call {ts : List Token} {t : Expr} {n : Nat} (function : Function) (column : Nat)
      (h : Derives .factor ts t n) :
      Derives .primary (.word function.name.toList :: ts) (.call function t column) n
  | number {run : List Char} (column : Nat) (hrun : IsLiteral run) :
      Derives .base [.number run] (.number (literalValue run) column) 0
  | var {run : List Char} (column : Nat)
      (hrun : ∀ function : Function, run ≠ function.name.toList) :
      Derives .base [.word run] (.var (String.ofList run) column) 0
  | group {ts : List Token} {t : Expr} {n : Nat} (h : Derives .expression ts t n) :
      Derives .base (.mark '(' :: ts ++ [.mark ')']) t n

namespace Derives

variable {nt : Nonterminal} {ts us : List Token} {t l r : Expr} {m n : Nat}

theorem ne_nil (h : Derives nt ts t n) : ts ≠ [] := by
  induction h with
  | term _ ih => exact ih
  | factor _ ih => exact ih
  | primary _ ih => exact ih
  | base _ ih => exact ih
  | sum | product | signed | power | call | number | var | group => simp

/-- A tree with other columns is derived from the same tokens. -/
theorem congr (h : Derives nt ts t n) {u : Expr} (hu : u.bare = t.bare) :
    Derives nt ts u n := by
  induction h generalizing u with
  | term _ ih => exact .term (ih hu)
  | sum _ hop _ hus _ ihl ihr =>
    obtain ⟨l, r, k, rfl, hl, hr⟩ := Expr.eq_binary_of_bare hu
    exact .sum k hop (ihl hl) hus (ihr hr)
  | factor _ ih => exact .factor (ih hu)
  | product _ hop _ hus _ ihl ihr =>
    obtain ⟨l, r, k, rfl, hl, hr⟩ := Expr.eq_binary_of_bare hu
    exact .product k hop (ihl hl) hus (ihr hr)
  | signed sign _ _ ih =>
    obtain ⟨t, k, rfl, ht⟩ := Expr.eq_unary_of_bare hu
    exact .signed sign k (ih ht)
  | primary _ ih => exact .primary (ih hu)
  | power _ _ hus _ ihl ihr =>
    obtain ⟨l, r, k, rfl, hl, hr⟩ := Expr.eq_binary_of_bare hu
    exact .power k (ihl hl) hus (ihr hr)
  | base _ ih => exact .base (ih hu)
  | call function _ _ ih =>
    obtain ⟨t, k, rfl, ht⟩ := Expr.eq_call_of_bare hu
    exact .call function k (ih ht)
  | number _ hrun =>
    obtain ⟨k, rfl⟩ := Expr.eq_number_of_bare hu
    exact .number k hrun
  | var _ hrun =>
    obtain ⟨k, rfl⟩ := Expr.eq_var_of_bare hu
    exact .var k hrun
  | group _ ih => exact .group (ih hu)

end Derives

namespace Rank

/-- What operands of the rank with operators between them are derived from. -/
def nonterminal : Rank → Nonterminal
  | sum => .expression
  | product => .term

/-- What a single operand of the rank is derived from. -/
def operandNonterminal : Rank → Nonterminal
  | sum => .term
  | product => .factor

end Rank

namespace Derives

variable {rank : Rank} {ts us : List Token} {t l r : Expr} {m n : Nat}

theorem operand (h : Derives rank.operandNonterminal ts t n) :
    Derives rank.nonterminal ts t n := by
  cases rank with
  | sum => exact .term h
  | product => exact .factor h

theorem operation {op : BinaryOp} (column : Nat) (hop : Rank.ofOp? op = some rank)
    (hl : Derives rank.nonterminal ts l m) (hus : FollowsOperator us)
    (hr : Derives rank.operandNonterminal us r n) :
    Derives rank.nonterminal (ts ++ .mark op.symbol :: us) (.binary op l r column) (max m n) := by
  cases rank with
  | sum =>
    have hop' : op = .add ∨ op = .sub := by cases op <;> simp_all [Rank.ofOp?]
    exact .sum column hop' hl hus hr
  | product =>
    have hop' : op = .mul ∨ op = .div := by cases op <;> simp_all [Rank.ofOp?]
    exact .product column hop' hl hus hr

end Derives

theorem followsOperator_iff {ts : List Token} :
    FollowsOperator ts ↔ ∀ c, Token.mark? ts = some c → isOperatorChar c = false := by
  constructor
  · intro h c hc
    rw [Bool.eq_false_iff]
    intro hop
    refine h c ?_ hc
    simpa [isOperatorChar, or_assoc] using hop
  · intro h c hmem hc
    have hop : isOperatorChar c = true := by simpa [isOperatorChar, or_assoc] using hmem
    rw [h c hc] at hop
    cases hop

theorem mark?_append {ts us : List Token} (h : ts ≠ []) :
    Token.mark? (ts ++ us) = Token.mark? ts := by
  cases ts with
  | nil => exact absurd rfl h
  | cons t ts => cases t <;> rfl

namespace Derives

variable {nt : Nonterminal} {ts : List Token} {t : Expr} {n : Nat}

/-- What is derived begins with a number, a word, an opening parenthesis or a sign. -/
theorem mark?_eq (h : Derives nt ts t n) {c : Char} (hc : Token.mark? ts = some c) :
    c = '(' ∨ ∃ sign : Sign, c = sign.symbol := by
  induction h with
  | term _ ih => exact ih hc
  | factor _ ih => exact ih hc
  | primary _ ih => exact ih hc
  | base _ ih => exact ih hc
  | sum _ _ hl _ _ ihl _ =>
    rw [mark?_append hl.ne_nil] at hc
    exact ihl hc
  | product _ _ hl _ _ ihl _ =>
    rw [mark?_append hl.ne_nil] at hc
    exact ihl hc
  | power _ hl _ _ ihl _ =>
    rw [mark?_append hl.ne_nil] at hc
    exact ihl hc
  | signed sign =>
    cases hc
    exact .inr ⟨sign, rfl⟩
  | call => cases hc
  | number => cases hc
  | var => cases hc
  | group =>
    cases hc
    exact .inl rfl

theorem followsOperator (h : Derives nt ts t n)
    (hsign : ∀ sign : Sign, Token.mark? ts ≠ some sign.symbol) : FollowsOperator ts := by
  refine followsOperator_iff.2 fun c hc => ?_
  rcases h.mark?_eq hc with rfl | ⟨sign, rfl⟩
  · decide
  · exact absurd hc (hsign sign)

end Derives

end Calculator
