import Calculator.Proofs.Grammar.Moves

/-!
# Induction along a reading

Grammar functions call one another on fewer characters, or on the same ones
further down the grammar. A property of every call follows if each call has it
whenever the calls it makes have it.
-/

namespace Calculator.Grammar

open Step

theorem continues_operand (rules : Rules) (rank : Rank) (s : Reader) :
    s.Continues (final (operand rules rank s)) :=
  (Descent.operand rules rank s).2

theorem continues_primary (rules : Rules) (s : Reader) : s.Continues (final (primary rules s)) :=
  (Descent.primary rules s).2

variable {rules : Rules}

theorem openFactors_of_operand {rank : Rank} {s s' : Reader} {t : Measured}
    (h : operand rules rank s = .ok t s') : s'.openFactors = s.openFactors := by
  have hs := (continues_operand rules rank s).openFactors
  rwa [h] at hs

theorem openFactors_of_primary {s s' : Reader} {t : Measured}
    (h : primary rules s = .ok t s') : s'.openFactors = s.openFactors := by
  have hs := (continues_primary rules s).openFactors
  rwa [h] at hs

/-- The property of operands of a rank, given that of products and that of factors. -/
def OfOperand (Chain : Rank → Reader → Prop) (Factor : Reader → Prop) : Rank → Reader → Prop
  | .sum, s => Chain .product s
  | .product, s => Factor s

/-- What has to be shown for a property of every call. -/
structure Inductive (rules : Rules) (Chain : Rank → Reader → Prop)
    (Tail : Rank → Measured → Reader → Prop) (Factor Signed Primary : Reader → Prop) : Prop where
  chain : ∀ rank s, OfOperand Chain Factor rank s →
    (∀ left s', operand rules rank s = .ok left s' → Tail rank left s') → Chain rank s
  tail : ∀ rank left s,
    (∀ op, (Token.mark? s.tokens).bind rank.operator? = some op →
      OfOperand Chain Factor rank s.pass.skipSpaces ∧
        ∀ right s', operand rules rank s.pass.skipSpaces = .ok right s' →
          ∀ node, Tail rank node s') →
    Tail rank left s
  factor : ∀ s, Signed s.enter → Factor s
  signed : ∀ s,
    (∀ sign, (Token.mark? s.tokens).bind Sign.ofChar? = some sign →
      Factor (s.pass.note (.signed sign s.nextColumn))) →
    ((Token.mark? s.tokens).bind Sign.ofChar? = none → Primary s) →
    (∀ base s', primary rules s = .ok base s' → Token.mark? s'.tokens = some '^' →
      Factor s'.pass.skipSpaces) →
    Signed s
  primary : ∀ s,
    (Token.mark? s.tokens = some '(' → Chain .sum s.pass) →
    (∀ run ts function, s.tokens = .word run :: ts →
      Function.ofName? (String.ofList run) = some function →
      Factor ((s.passRun Char.isLower).note (.called function s.nextColumn))) →
    Primary s

namespace Inductive

variable {Chain : Rank → Reader → Prop} {Tail : Rank → Measured → Reader → Prop}
  {Factor Signed Primary : Reader → Prop}

/-- Every property of calls with `n` characters left, from those with fewer. -/
theorem step (h : Inductive rules Chain Tail Factor Signed Primary) {n : Nat}
    (hchain : ∀ rank s, s.left < n → Chain rank s)
    (htail : ∀ rank left s, s.left < n → Tail rank left s)
    (hfactor : ∀ s, s.left < n → Factor s) {s : Reader} (hs : s.left ≤ n) :
    (∀ rank, Chain rank s) ∧ (∀ rank left, Tail rank left s) ∧ Factor s ∧ Signed s ∧
      Primary s := by
  have hoperand : ∀ rank s, s.left < n → OfOperand Chain Factor rank s := by
    intro rank s hs
    cases rank with
    | sum => exact hchain .product s hs
    | product => exact hfactor s hs
  have htails : ∀ rank left s, s.left ≤ n → Tail rank left s := by
    intro rank left s hs
    refine h.tail rank left s fun op hop => ?_
    obtain ⟨c, hc, -⟩ := Option.bind_eq_some_iff.1 hop
    have hlt : s.pass.skipSpaces.left < n :=
      Nat.lt_of_le_of_lt s.pass.continues_skipSpaces.left_le
        (Nat.lt_of_lt_of_le (Reader.left_pass_lt hc) hs)
    refine ⟨hoperand rank _ hlt, fun right s' hright node => htail rank node s' ?_⟩
    have hle := (continues_operand rules rank s.pass.skipSpaces).left_le
    rw [hright] at hle
    exact Nat.lt_of_le_of_lt hle hlt
  have hprimary : ∀ s, s.left ≤ n → Primary s := by
    intro s hs
    refine h.primary s (fun hgroup => hchain _ _ ?_) fun run ts function hword _ => hfactor _ ?_
    · exact Nat.lt_of_lt_of_le (Reader.left_pass_lt hgroup) hs
    · exact Nat.lt_of_lt_of_le (Reader.left_passRun_lt hword) hs
  have hsigned : ∀ s, s.left ≤ n → Signed s := by
    intro s hs
    refine h.signed s (fun sign hsign => hfactor _ ?_) (fun _ => hprimary s hs)
      fun base s' hbase hpower => hfactor _ ?_
    · obtain ⟨c, hc, -⟩ := Option.bind_eq_some_iff.1 hsign
      exact Nat.lt_of_lt_of_le (Reader.left_pass_lt hc) hs
    · have hle := (continues_primary rules s).left_le
      rw [hbase] at hle
      exact Nat.lt_of_le_of_lt s'.pass.continues_skipSpaces.left_le
        (Nat.lt_of_lt_of_le (Reader.left_pass_lt hpower) (Nat.le_trans hle hs))
  have hfactors : ∀ s, s.left ≤ n → Factor s := fun s hs => h.factor s (hsigned s.enter hs)
  have hproduct : ∀ s, s.left ≤ n → Chain .product s := by
    intro s hs
    refine h.chain .product s (hfactors s hs) fun left s' hleft => htails _ _ _ ?_
    have hle := (continues_operand rules .product s).left_le
    rw [hleft] at hle
    exact Nat.le_trans hle hs
  have hsum : ∀ s, s.left ≤ n → Chain .sum s := by
    intro s hs
    refine h.chain .sum s (hproduct s hs) fun left s' hleft => htails _ _ _ ?_
    have hle := (continues_operand rules .sum s).left_le
    rw [hleft] at hle
    exact Nat.le_trans hle hs
  refine ⟨fun rank => ?_, fun rank left => htails rank left s hs, hfactors s hs, hsigned s hs,
    hprimary s hs⟩
  cases rank with
  | sum => exact hsum s hs
  | product => exact hproduct s hs

theorem all (h : Inductive rules Chain Tail Factor Signed Primary) (s : Reader) :
    (∀ rank, Chain rank s) ∧ (∀ rank left, Tail rank left s) ∧ Factor s ∧ Signed s ∧
      Primary s := by
  induction hn : s.left using Nat.strongRecOn generalizing s with
  | ind n ih =>
    refine h.step ?_ ?_ ?_ (Nat.le_of_eq hn)
    · exact fun rank s hs => (ih s.left hs s rfl).1 rank
    · exact fun rank left s hs => (ih s.left hs s rfl).2.1 rank left
    · exact fun s hs => (ih s.left hs s rfl).2.2.1

theorem of_expression (h : Inductive rules Chain Tail Factor Signed Primary) (s : Reader) :
    Chain .sum s :=
  (h.all s).1 .sum

end Inductive

end Calculator.Grammar
