import Calculator.Proofs.Grammar.Success

/-!
# Calls

Which calls the grammar functions make of one another, and where. A call is made
on fewer characters, or on no more of them further down the grammar; so what a
call has whenever the calls it makes have it, every call has.
-/

namespace Calculator

namespace Reader

theorem Continues.column_le {s s' : Reader} (h : s.Continues s') :
    s.cursor.column ≤ s'.cursor.column :=
  Nat.succ_le_succ h.reaches.position_le

theorem continues_pass (s : Reader) : s.Continues s.pass :=
  Descent.continues_token s

/-- Where the right side of an operation is read. -/
theorem continues_pass_skipSpaces (s : Reader) : s.Continues s.pass.skipSpaces :=
  s.continues_pass.trans s.pass.continues_skipSpaces

theorem continues_passRun (p : Char → Bool) (s : Reader) : s.Continues (s.passRun p) :=
  s.continues_skipSpaces.trans (s.skipSpaces.continues_skipWhile p)

theorem position_pass {s : Reader} {c : Char} (h : Token.mark? s.tokens = some c) :
    s.pass.cursor.position = s.skipSpaces.cursor.position + 1 := by
  have hrest := Cursor.rest_eq_cons (look_of_mark h).1
  rw [pass, advance, Cursor.advance, hrest]

theorem position_passRun_lt {s : Reader} {p : Char → Bool} {c : Char}
    (hlook : s.skipSpaces.cursor.current? = some c) (hc : p c = true) :
    s.skipSpaces.cursor.position < (s.passRun p).cursor.position := by
  refine Nat.lt_add_of_pos_right ?_
  rw [Cursor.rest_eq_cons hlook, List.takeWhile_cons_of_pos hc]
  exact Nat.succ_pos _

end Reader

namespace Grammar

open Step

/-- A call of a grammar function. -/
inductive Call where
  | chain (rank : Rank)
  | tail (rank : Rank) (left : Measured)
  | factor
  | signed
  | primary

namespace Call

def run (rules : Rules) : Call → Step Measured
  | chain rank => Grammar.chain rules rank
  | tail rank left => Grammar.tail rules rank left
  | factor => Grammar.factor rules
  | signed => Grammar.signed rules
  | primary => Grammar.primary rules

/-- The call for an operand of the rank. -/
def operand : Rank → Call
  | .sum => chain .product
  | .product => factor

/-- How far up the grammar the call stands. -/
def level : Call → Nat
  | chain rank => rank.level + 2
  | tail rank _ => rank.level + 1
  | factor => 2
  | signed => 1
  | primary => 0

/-- How many factors the call opens for the calls that it makes. -/
def opens : Call → Nat
  | factor => 1
  | _ => 0

@[simp] theorem run_operand (rules : Rules) (rank : Rank) :
    (operand rank).run rules = Grammar.operand rules rank := by
  cases rank with
  | sum => exact (operand_sum rules).symm
  | product => exact (operand_product rules).symm

theorem level_operand_le (rank : Rank) : (operand rank).level ≤ rank.level := by
  cases rank <;> decide

theorem level_le (c : Call) : c.level ≤ 8 := by
  cases c with
  | chain rank => exact Nat.add_le_add_right (Descent.level_le rank) 2
  | tail rank left => exact Nat.le_succ_of_le (Nat.add_le_add_right (Descent.level_le rank) 1)
  | factor => decide
  | signed => decide
  | primary => decide

theorem continues_run (rules : Rules) (c : Call) (s : Reader) :
    s.Continues (final (c.run rules s)) := by
  cases c with
  | chain rank => exact (Descent.chain rules rank s).2
  | tail rank left => exact (Descent.tail rules rank left s).2
  | factor => exact (Descent.factor rules s).2
  | signed => exact (Descent.signed rules s).2
  | primary => exact (Descent.primary rules s).2

theorem continues_of_run {rules : Rules} {c : Call} {s s' : Reader} {t : Measured}
    (h : c.run rules s = .ok t s') : s.Continues s' := by
  have hs := continues_run rules c s
  rwa [h] at hs

end Call

/-- The first call, where it stands, makes the second one, where that stands. -/
inductive Calls (rules : Rules) : Call → Reader → Call → Reader → Prop where
  | operand (rank : Rank) (s : Reader) : Calls rules (.chain rank) s (.operand rank) s
  | tail {rank : Rank} {left : Measured} {s s' : Reader}
      (hleft : operand rules rank s = .ok left s') :
      Calls rules (.chain rank) s (.tail rank left) s'
  | right {rank : Rank} {op : BinaryOp} {s : Reader} (left : Measured)
      (hop : (Token.mark? s.tokens).bind rank.operator? = some op)
      (hfollow : (Token.mark? s.pass.tokens).any isOperatorChar = false) :
      Calls rules (.tail rank left) s (.operand rank) s.pass.skipSpaces
  | next {rank : Rank} {op : BinaryOp} {left node : Measured} {s s' : Reader}
      (hop : (Token.mark? s.tokens).bind rank.operator? = some op)
      (hnode : operation rules (operand rules rank) op s.nextColumn left s.pass = .ok node s') :
      Calls rules (.tail rank left) s (.tail rank node) s'
  | enter {s : Reader}
      (hlimit : withinLimit rules.limits.nesting (s.openFactors + 1) = true) :
      Calls rules .factor s .signed s.enter
  | sign {sign : Sign} {s : Reader}
      (hsign : (Token.mark? s.tokens).bind Sign.ofChar? = some sign) :
      Calls rules .signed s .factor (s.pass.note (.signed sign s.nextColumn))
  | base {s : Reader} (hsign : (Token.mark? s.tokens).bind Sign.ofChar? = none) :
      Calls rules .signed s .primary s
  | exponent {base : Measured} {s s' : Reader}
      (hsign : (Token.mark? s.tokens).bind Sign.ofChar? = none)
      (hbase : primary rules s = .ok base s') (hmark : Token.mark? s'.tokens = some '^')
      (hfollow : (Token.mark? s'.pass.tokens).any isOperatorChar = false) :
      Calls rules .signed s .factor s'.pass.skipSpaces
  | group {s : Reader} (hmark : Token.mark? s.tokens = some '(') :
      Calls rules .primary s (.chain .sum) s.pass
  | argument {run : List Char} {ts : List Token} {function : Function} {s : Reader}
      (htokens : s.tokens = .word run :: ts)
      (hname : Function.ofName? (String.ofList run) = some function) :
      Calls rules .primary s .factor
        ((s.passRun Char.isLower).note (.called function s.nextColumn))

variable {rules : Rules} {c c' : Call} {s s' : Reader} {t : Measured}

theorem continues_of_operation {operand : Step Measured} {op : BinaryOp} {column : Nat}
    {left : Measured} (hoperand : ∀ q : Reader, q.Continues (final (operand q)))
    (h : operation rules operand op column left s = .ok t s') : s.Continues s' := by
  obtain ⟨-, right, hright, -⟩ := operation_ok.1 h
  have hs := hoperand s.skipSpaces
  rw [hright] at hs
  exact s.continues_skipSpaces.trans hs

namespace Calls

/-- A call reads on from where the one that makes it stands, and the factor that this one opens
is open then. -/
theorem reads_on (h : Calls rules c s c' s') :
    s.cursor.Reaches s'.cursor ∧ s'.openFactors = s.openFactors + c.opens := by
  have hcontinues : ∀ {q : Reader}, s.Continues q →
      s.cursor.Reaches q.cursor ∧ q.openFactors = s.openFactors := fun h =>
    ⟨h.reaches, h.openFactors⟩
  cases h with
  | operand rank => exact hcontinues (.refl s)
  | @tail rank left s s' hleft =>
    exact hcontinues (Call.continues_of_run (c := .operand rank) (by rwa [Call.run_operand]))
  | right left hop hfollow => exact hcontinues s.continues_pass_skipSpaces
  | next hop hnode =>
    exact hcontinues (s.continues_pass.trans
      (continues_of_operation (continues_operand rules _) hnode))
  | enter hlimit => exact ⟨.refl _, rfl⟩
  | sign hsign => exact hcontinues (s.continues_pass.trans (Reader.continues_note _ _))
  | base hsign => exact hcontinues (.refl s)
  | exponent hsign hbase hmark hfollow =>
    exact hcontinues ((Call.continues_of_run (c := .primary) hbase).trans
      (Reader.continues_pass_skipSpaces _))
  | group hmark => exact hcontinues s.continues_pass
  | argument htokens hname =>
    exact hcontinues ((s.continues_passRun Char.isLower).trans (Reader.continues_note _ _))

theorem left_le (h : Calls rules c s c' s') : s'.left ≤ s.left :=
  h.reads_on.1.length_le

/-- A call that is not further down the grammar has fewer characters left. -/
theorem left_lt_of_level_le (h : Calls rules c s c' s') (hlevel : c.level ≤ c'.level) :
    s'.left < s.left := by
  have hpass : ∀ {q : Reader} {d : Char}, Token.mark? q.tokens = some d →
      q.pass.skipSpaces.left < q.left := fun hmark =>
    Nat.lt_of_le_of_lt (Reader.continues_skipSpaces _).left_le (Reader.left_pass_lt hmark)
  cases h with
  | operand rank =>
    have hle := Nat.le_trans hlevel (Call.level_operand_le rank)
    simp only [Call.level] at hle
    omega
  | tail hleft =>
    simp only [Call.level] at hlevel
    omega
  | right left hop hfollow =>
    obtain ⟨d, hmark, -⟩ := Option.bind_eq_some_iff.1 hop
    exact hpass hmark
  | next hop hnode =>
    obtain ⟨d, hmark, -⟩ := Option.bind_eq_some_iff.1 hop
    exact Nat.lt_of_le_of_lt
      (continues_of_operation (continues_operand rules _) hnode).left_le
      (Reader.left_pass_lt hmark)
  | enter hlimit =>
    simp only [Call.level] at hlevel
    omega
  | sign hsign =>
    obtain ⟨d, hmark, -⟩ := Option.bind_eq_some_iff.1 hsign
    exact Reader.left_pass_lt hmark
  | base hsign =>
    simp only [Call.level] at hlevel
    omega
  | exponent hsign hbase hmark hfollow =>
    exact Nat.lt_of_lt_of_le (hpass hmark) (Call.continues_of_run (c := .primary) hbase).left_le
  | group hmark => exact Reader.left_pass_lt hmark
  | argument htokens hname => exact Reader.left_passRun_lt htokens

theorem measure_lt (h : Calls rules c s c' s') :
    Descent.measure s'.left c'.level < Descent.measure s.left c.level := by
  refine Descent.measure_lt c'.level_le ?_
  rcases Nat.lt_or_ge c'.level c.level with hlt | hge
  · exact .inr ⟨h.left_le, hlt⟩
  · exact .inl (h.left_lt_of_level_le hge)

/-- What a call has whenever the calls it makes have it, every call has. -/
theorem induction (rules : Rules) {P : Call → Reader → Prop}
    (h : ∀ c s, (∀ c' s', Calls rules c s c' s' → P c' s') → P c s) (c : Call) (s : Reader) :
    P c s := by
  induction hn : Descent.measure s.left c.level using Nat.strongRecOn generalizing c s with
  | ind n ih =>
    refine h c s fun c' s' hcalls => ih _ ?_ c' s' rfl
    rw [← hn]
    exact hcalls.measure_lt

end Calls

/-- The second call is made in the course of the first, while `n` more factors are open. -/
inductive Reached (rules : Rules) : Call → Reader → Nat → Call → Reader → Prop where
  | here (c : Call) (s : Reader) : Reached rules c s 0 c s
  | through {c c₁ c' : Call} {s s₁ s' : Reader} {n : Nat} (h : Calls rules c s c₁ s₁)
      (hreached : Reached rules c₁ s₁ n c' s') : Reached rules c s (c.opens + n) c' s'

namespace Reached

variable {n : Nat}

/-- One call further. -/
theorem step {c'' : Call} {s'' : Reader} (hreached : Reached rules c s n c' s')
    (h : Calls rules c' s' c'' s'') : Reached rules c s (n + c'.opens) c'' s'' := by
  induction hreached with
  | here c s =>
    rw [Nat.add_comm]
    exact .through h (.here c'' s'')
  | through hfirst _ ih =>
    rw [Nat.add_assoc]
    exact .through hfirst (ih h)

/-- The reader counts the open factors. -/
theorem openFactors_eq (h : Reached rules c s n c' s') :
    s'.openFactors = s.openFactors + n := by
  induction h with
  | here c s => rfl
  | through h hreached ih =>
    rw [ih, h.reads_on.2]
    omega

theorem reaches (h : Reached rules c s n c' s') : s.cursor.Reaches s'.cursor := by
  induction h with
  | here c s => exact .refl _
  | through h hreached ih => exact h.reads_on.1.trans ih

end Reached

end Grammar

end Calculator
