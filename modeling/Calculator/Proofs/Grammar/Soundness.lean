import Calculator.Proofs.Grammar.Derivation

/-!
# What strict readings accept

Whatever a strict reading accepts is derived by the grammar, and within the
bounds. The reading of an operation keeps the derivation of all that stands to
its left; the sign of a power is never read behind a bare call, since the
argument of the call would have taken it.
-/

namespace Calculator.Grammar

open Step

/-- From `s` to `s'`, with `k` factors open, a tree was read that is derived from the
nonterminal. -/
structure Accepts (nt : Nonterminal) (k : Nat) (s : Reader) (t : Measured) (s' : Reader) :
    Prop where
  height_eq : t.height = t.expr.height
  height_le : t.height ≤ 1024
  derives : ∃ ts n, s.tokens = ts ++ s'.tokens ∧ Derives nt ts t.expr n ∧ k + n ≤ 128

namespace Accepts

variable {nt : Nonterminal} {k : Nat} {s s' : Reader} {t : Measured}

theorem map {nt' : Nonterminal} (h : Accepts nt k s t s')
    (hnt : ∀ ts n, Derives nt ts t.expr n → Derives nt' ts t.expr n) : Accepts nt' k s t s' := by
  obtain ⟨ts, n, hts, hd, hn⟩ := h.derives
  exact ⟨h.height_eq, h.height_le, ts, n, hts, hnt ts n hd, hn⟩

theorem skipSpaces (h : Accepts nt k s t s') : Accepts nt k s t s'.skipSpaces := by
  obtain ⟨ts, n, hts, hd, hn⟩ := h.derives
  exact ⟨h.height_eq, h.height_le, ts, n, by simpa using hts, hd, hn⟩

end Accepts

/-- Whatever the step takes is derived from the nonterminal. -/
def Sound (nt : Nonterminal) (step : Step Measured) (s : Reader) : Prop :=
  ∀ t s', step s = .ok t s' → Accepts nt s.openFactors s t s'

/-- An operation behind a left side that was read from `s₀` on. -/
theorem Accepts.operation {nt nt' nt'' : Nonterminal} {k k' : Nat} {s₀ s s' : Reader}
    {op : BinaryOp} {column : Nat} {left t : Measured} {operand : Step Measured}
    (hleft : Accepts nt k s₀ left s) (hopen : s.openFactors = k)
    (hmark : Token.mark? s.tokens = some op.symbol)
    (hoperand : Sound nt' operand s.pass.skipSpaces)
    (hderives : ∀ {ts us l r m n}, Derives nt ts l m → FollowsOperator us → Derives nt' us r n →
      k + max m n ≤ 128 →
      ∃ n', Derives nt'' (ts ++ .mark op.symbol :: us) (.binary op l r column) n' ∧
        k' + n' ≤ 128)
    (hnode : operation .strictly operand op column left s.pass = .ok t s') :
    Accepts nt'' k' s₀ t s' := by
  obtain ⟨hfollow, right, hright, hnode⟩ := operation_ok.1 hnode
  obtain ⟨hlimit, rfl, -⟩ := binary_ok.1 hnode
  have hr : Accepts nt' s.openFactors s.pass.skipSpaces right s' := hoperand right s' hright
  rw [hopen] at hr
  obtain ⟨ts, m, hts, hl, hm⟩ := hleft.derives
  obtain ⟨us, n, hus, hr', hn⟩ := hr.derives
  rw [Reader.tokens_skipSpaces] at hus
  have hfollow' : FollowsOperator us := by
    rw [followsOperator_iff, ← mark?_append hr'.ne_nil, ← hus]
    exact hfollow
  obtain ⟨n', hd, hn'⟩ := hderives hl hfollow' hr' (by omega)
  refine ⟨?_, Limits.within_height.1 hlimit, _, n', ?_, hd, hn'⟩
  · simp only [Expr.height, hleft.height_eq, hr.height_eq]
  · rw [hts, Reader.tokens_eq_cons hmark, hus]
    simp

theorem sound_operand {rank : Rank} {s : Reader}
    (h : OfOperand (fun rank => Sound rank.nonterminal (chain .strictly rank))
      (Sound .factor (factor .strictly)) rank s) :
    Sound rank.operandNonterminal (operand .strictly rank) s := by
  cases rank with
  | sum =>
    rw [operand_sum]
    exact h
  | product =>
    rw [operand_product]
    exact h

/-! ## Operands with operators between them -/

/-- What is read behind the left side is derived together with it, wherever it began. -/
def SoundTail (rank : Rank) (left : Measured) (s : Reader) : Prop :=
  ∀ s₀, s.openFactors = s₀.openFactors → Accepts rank.nonterminal s₀.openFactors s₀ left s →
    ∀ t s', tail .strictly rank left s = .ok t s' →
      Accepts rank.nonterminal s₀.openFactors s₀ t s'

theorem sound_chain {rank : Rank} {s : Reader}
    (hoperand : Sound rank.operandNonterminal (operand .strictly rank) s)
    (htail : ∀ left s', operand .strictly rank s = .ok left s' → SoundTail rank left s') :
    Sound rank.nonterminal (chain .strictly rank) s := by
  intro t s' h
  obtain ⟨left, s₁, hleft, h⟩ := chain_ok.1 h
  have haccepts := (hoperand left s₁ hleft).map fun _ _ => Derives.operand
  exact htail left s₁ hleft s (openFactors_of_operand hleft) haccepts t s' h

theorem sound_tail {rank : Rank} {left : Measured} {s : Reader}
    (ih : ∀ op, (Token.mark? s.tokens).bind rank.operator? = some op →
      Sound rank.operandNonterminal (operand .strictly rank) s.pass.skipSpaces ∧
        ∀ right s', operand .strictly rank s.pass.skipSpaces = .ok right s' →
          ∀ node, SoundTail rank node s') : SoundTail rank left s := by
  intro s₀ hopen hleft t s' h
  cases tail_ok.1 h with
  | stop hop => exact hleft.skipSpaces
  | step op node s₁ hop hnode htail =>
    obtain ⟨hmark, hrank⟩ := mark?_of_operator? hop
    obtain ⟨hoperand, htails⟩ := ih op hop
    have hnode' : Accepts rank.nonterminal s₀.openFactors s₀ node s₁ := by
      refine hleft.operation hopen hmark hoperand ?_ hnode
      intro ts us l r m n hl hus hr hn
      exact ⟨max m n, hl.operation s.nextColumn hrank hus hr, hn⟩
    obtain ⟨-, right, hright, -⟩ := operation_ok.1 hnode
    have hopen' : s₁.openFactors = s₀.openFactors := by
      rw [openFactors_of_operand hright]
      exact hopen
    exact htails right s₁ hright node s₀ hopen' hnode' t s' htail

/-! ## Factors -/

/-- A factor is derived by the time that it is left. -/
def SoundSigned (s : Reader) : Prop :=
  ∀ t s' k, s.openFactors = k + 1 → k + 1 ≤ 128 → signed .strictly s = .ok t s' →
    Accepts .factor k s t s'

/-- What may be the base of a power is derived from a base. -/
def SoundPrimary (s : Reader) : Prop :=
  ∀ t s', s.openFactors ≤ 128 → primary .strictly s = .ok t s' →
    Accepts .base s.openFactors s t s' ∨
      Accepts .primary s.openFactors s t s' ∧ Token.mark? s'.tokens ≠ some '^'

theorem sound_factor {s : Reader} (hsigned : SoundSigned s.enter) :
    Sound .factor (factor .strictly) s := by
  intro t s' h
  obtain ⟨hlimit, s₁, hs, rfl⟩ := factor_ok.1 h
  have haccepts := hsigned t s₁ s.openFactors rfl (Limits.within_nesting.1 hlimit) hs
  exact ⟨haccepts.height_eq, haccepts.height_le, haccepts.derives⟩

theorem Accepts.signed {k : Nat} {s s' : Reader} {operand t : Measured} {sign : Sign}
    (hoperand : Accepts .factor (k + 1) (s.pass.note (.signed sign s.nextColumn)) operand s')
    (hsign : (Token.mark? s.tokens).bind Sign.ofChar? = some sign)
    (hnode : unary .strictly sign s.nextColumn operand s' = .ok t s') :
    Accepts .factor k s t s' := by
  obtain ⟨hheight, rfl, -⟩ := unary_ok.1 hnode
  obtain ⟨ts, n, hts, hd, hn⟩ := hoperand.derives
  refine ⟨?_, Limits.within_height.1 hheight, .mark sign.symbol :: ts, n + 1, ?_,
    hd.signed sign s.nextColumn, by omega⟩
  · simp only [Expr.height, hoperand.height_eq]
  · rw [Reader.tokens_eq_cons (mark?_of_sign? hsign)]
    exact congrArg _ hts

theorem Accepts.factor_of_primary {k : Nat} {s s' : Reader} {t : Measured}
    (h : Accepts .primary (k + 1) s t s') : Accepts .factor k s t s'.skipSpaces := by
  obtain ⟨ts, n, hts, hd, hn⟩ := h.derives
  exact ⟨h.height_eq, h.height_le, ts, n + 1, by simpa using hts, hd.primary, by omega⟩

theorem sound_signed {s : Reader}
    (hfactor : ∀ sign, (Token.mark? s.tokens).bind Sign.ofChar? = some sign →
      Sound .factor (factor .strictly) (s.pass.note (.signed sign s.nextColumn)))
    (hprimary : (Token.mark? s.tokens).bind Sign.ofChar? = none → SoundPrimary s)
    (hpower : ∀ base s', primary .strictly s = .ok base s' → Token.mark? s'.tokens = some '^' →
      Sound .factor (factor .strictly) s'.pass.skipSpaces) : SoundSigned s := by
  intro t s' k hk hlimit h
  cases signed_ok.1 h with
  | signed sign operand hsign hoperand hnode =>
    have haccepts := hfactor sign hsign operand s' hoperand
    have hopen : (s.pass.note (.signed sign s.nextColumn)).openFactors = k + 1 := hk
    rw [hopen] at haccepts
    exact haccepts.signed hsign hnode
  | unsigned base s₁ hsign hbase h =>
    have hprimary' := hprimary hsign base s₁ (by omega) hbase
    rw [hk] at hprimary'
    rcases power_ok.1 h with ⟨hmark, h⟩ | ⟨hmark, rfl, rfl⟩
    · have hbase' : Accepts .base (k + 1) s base s₁ :=
        hprimary'.resolve_right fun hcall => hcall.2 hmark
      have hopen : s₁.openFactors = k + 1 := (openFactors_of_primary hbase).trans hk
      have hsymbol : Token.mark? s₁.tokens = some BinaryOp.pow.symbol := hmark
      refine hbase'.operation hopen hsymbol (hpower base s₁ hbase hmark) ?_ h
      intro ts us l r m n hl hus hr hn
      exact ⟨max m n + 1, hl.power s₁.nextColumn hus hr, by omega⟩
    · have hprimary'' : Accepts .primary (k + 1) s t s₁ :=
        hprimary'.elim (fun hbase => hbase.map fun _ _ => .base) And.left
      exact hprimary''.factor_of_primary

/-! ## Primaries -/

theorem Accepts.group {k : Nat} {s s' : Reader} {t : Measured}
    (h : Accepts .expression k s.pass t s') (hopen : Token.mark? s.tokens = some '(')
    (hclosed : Token.mark? s'.tokens = some ')') : Accepts .base k s t s'.pass := by
  obtain ⟨ts, n, hts, hd, hn⟩ := h.derives
  refine ⟨h.height_eq, h.height_le, _, n, ?_, hd.group, hn⟩
  rw [Reader.tokens_eq_cons hopen, hts, Reader.tokens_eq_cons hclosed]
  simp

theorem Accepts.call {k : Nat} {s s' : Reader} {function : Function} {argument t : Measured}
    {run : List Char} {ts : List Token}
    (hargument : Accepts .factor k
      ((s.passRun Char.isLower).note (.called function s.nextColumn)) argument s')
    (htokens : s.tokens = .word run :: ts)
    (hname : Function.ofName? (String.ofList run) = some function)
    (hnode : Step.call .strictly function s.nextColumn argument s' = .ok t s') :
    Accepts .primary k s t s' := by
  obtain ⟨hheight, rfl, -⟩ := call_ok.1 hnode
  obtain ⟨us, n, hus, hd, hn⟩ := hargument.derives
  rw [Reader.tokens_note, Reader.tokens_passRun_word htokens] at hus
  have hrun : run = function.name.toList := by
    rw [← Function.ofName?_eq_some_iff.1 hname, String.toList_ofList]
  refine ⟨?_, Limits.within_height.1 hheight, .word run :: us, n, ?_, ?_, hn⟩
  · simp only [Expr.height, hargument.height_eq]
  · rw [htokens, hus]
    rfl
  · rw [hrun]
    exact hd.call function s.nextColumn

/-- A single token is accepted as a leaf. -/
theorem Accepts.leaf {k : Nat} {s s' : Reader} {e : Expr} {tok : Token} {ts : List Token}
    (hk : k ≤ 128) (hheight : e.height = 1) (htokens : s.tokens = tok :: ts)
    (hrest : s'.tokens = ts) (hd : Derives .base [tok] e 0) : Accepts .base k s ⟨e, 1⟩ s' := by
  refine ⟨hheight.symm, Nat.le_of_ble_eq_true rfl, [tok], 0, ?_, hd, hk⟩
  rw [htokens, hrest]
  rfl

theorem sound_primary {s : Reader}
    (hchain : Token.mark? s.tokens = some '(' →
      Sound .expression (chain .strictly .sum) s.pass)
    (hfactor : ∀ run ts function, s.tokens = .word run :: ts →
      Function.ofName? (String.ofList run) = some function →
      Sound .factor (factor .strictly)
        ((s.passRun Char.isLower).note (.called function s.nextColumn))) : SoundPrimary s := by
  intro t s' hlimit h
  cases primary_ok.1 h with
  | group inner s₁ hmark hinner hclose =>
    obtain ⟨rfl, hends⟩ := close_ok.1 hclose
    obtain ⟨hclosed, rfl⟩ := hends.resolve_right fun hopen => by cases hopen.2.1
    exact .inl ((hchain hmark t s₁ hinner).group hmark hclosed)
  | number run ts value htokens hvalue =>
    obtain ⟨hliteral, rfl⟩ :=
      (Numeral.read?_eq_some_iff (Reader.isNumberChar_of_mem htokens)).1 hvalue
    exact .inl (.leaf hlimit rfl htokens (Reader.tokens_passRun_number htokens)
      (.number s.nextColumn hliteral))
  | call run ts function argument htokens hname hargument hnode =>
    have haccepts := hfactor run ts function htokens hname argument s' hargument
    exact .inr ⟨haccepts.call htokens hname hnode,
      (settled_of_factor hargument).mark_ne '^' (by simp)⟩
  | var run ts htokens hname =>
    have hrun : ∀ function : Function, run ≠ function.name.toList := by
      rintro function rfl
      rw [String.ofList_toList, Function.ofName?_eq_some_iff.2 rfl] at hname
      cases hname
    exact .inl (.leaf hlimit rfl htokens (Reader.tokens_passRun_word htokens)
      (.var s.nextColumn hrun))
  | missing hstrict htokens => cases hstrict

/-! ## Expressions -/

theorem sound_inductive :
    Inductive .strictly
      (fun rank => Sound rank.nonterminal (chain .strictly rank))
      SoundTail
      (Sound .factor (factor .strictly))
      SoundSigned
      SoundPrimary where
  chain := fun _ _ hoperand => sound_chain (sound_operand hoperand)
  tail := fun _ _ _ ih => sound_tail fun op hop => ⟨sound_operand (ih op hop).1, (ih op hop).2⟩
  factor := fun _ => sound_factor
  signed := fun _ => sound_signed
  primary := fun _ => sound_primary

/-- What a strict reading takes for an expression is derived by the grammar. -/
theorem sound_expression (s : Reader) : Sound .expression (expression .strictly) s :=
  sound_inductive.of_expression s

end Calculator.Grammar
