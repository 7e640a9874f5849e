import Calculator.Proofs.Grammar.Literal
import Calculator.Proofs.Grammar.Mirror

/-!
# Permissive parsing

Permissive parsing is strict parsing of the repaired text. A permissive reading
and a strict reading of what the repair makes of the text meet the same operators,
bounds and numbers.
-/

namespace Calculator

namespace Grammar

open Step

variable {k : Nat} {s q : Reader} {left right t u : Measured}

/-! ## Nodes -/

theorem Twins.binary (hl : Twins left t) (hr : Twins right u) (op : BinaryOp)
    (column column' : Nat) :
    Twins ⟨.binary op left.expr right.expr column, max left.height right.height + 1⟩
      ⟨.binary op t.expr u.expr column', max t.height u.height + 1⟩ := by
  refine ⟨?_, ?_⟩
  · simp only [Expr.bare, hl.bare_eq, hr.bare_eq]
  · simp only [hl.height_eq, hr.height_eq]

theorem mirrors_binary (hl : Twins left t) (hr : Twins right u) (hfits : Fits .operand k s q)
    (op : BinaryOp) (column column' : Nat) :
    Mirrors k (binary .permissive op column left right s)
      (binary .strictly op column' t u q) := by
  rw [binary_apply, binary_apply, hl.height_eq, hr.height_eq]
  exact .bounded (by simpa [hl.height_eq, hr.height_eq] using hl.binary hr op column column') hfits

theorem mirrors_unary (h : Twins t u) (hfits : Fits .operand k s q) (sign : Sign)
    (column column' : Nat) :
    Mirrors k (unary .permissive sign column t s) (unary .strictly sign column' u q) := by
  rw [unary_apply, unary_apply, h.height_eq]
  refine .bounded ⟨?_, rfl⟩ hfits
  simp only [Expr.bare, h.bare_eq]

theorem mirrors_call (h : Twins t u) (hfits : Fits .operand k s q) (function : Function)
    (column column' : Nat) :
    Mirrors k (call .permissive function column t s) (call .strictly function column' u q) := by
  rw [call_apply, call_apply, h.height_eq]
  refine .bounded ⟨?_, rfl⟩ hfits
  simp only [Expr.bare, h.bare_eq]

/-! ## Operations -/

theorem mirrors_operation {operand operand' : Step Measured} {op : BinaryOp}
    {column column' : Nat} (hleft : Twins left t) (hfits : Fits .operator k s q)
    (hoperand : Awaits k s.skipSpaces q.skipSpaces →
      Mirrors k (operand s.skipSpaces) (operand' q.skipSpaces)) :
    Mirrors k (operation .permissive operand op column left s)
      (operation .strictly operand' op column' t q) := by
  have hmark : Token.mark? q.tokens = Token.mark? s.tokens := by
    rw [hfits.tokens_eq, Token.mark?_fill_operator]
  rw [operation, operation, bind_apply, bind_apply, rejectOperator_apply, rejectOperator_apply,
    hmark]
  cases hany : (Token.mark? s.tokens).any isOperatorChar with
  | true => exact .lost trivial
  | false =>
    have hfollows : Token.Follows s.tokens := by
      intro c hc
      rw [hc] at hany
      exact hany
    have hawaits : Awaits k s.skipSpaces q.skipSpaces := by
      refine ⟨.operator, by decide, fun _ => ?_, hfits.skipSpaces⟩
      rw [Reader.tokens_skipSpaces]
      exact hfollows
    refine (hoperand hawaits).bind ?_ ?_
    · intro right u s' q' _ _ htwins hfits'
      exact mirrors_binary hleft htwins hfits' op column column'
    · intro right s' _ hdoomed
      rw [binary_apply]
      exact lost_bounded hdoomed

/-! ## Chains -/

theorem Doomed.operator? (h : Doomed s) (rank : Rank) :
    (Token.mark? s.tokens).bind rank.operator? = none := by
  cases hmark : Token.mark? s.tokens with
  | none => rfl
  | some c =>
    cases hop : rank.operator? c with
    | none => exact hop
    | some op =>
      have hc := h.2 c hmark
      obtain ⟨rfl, -⟩ := Rank.operator?_eq_some_iff.1 hop
      cases op <;> cases hc

theorem lost_tail (h : Doomed s) (rank : Rank) (t : Measured) :
    Lost (tail .permissive rank t s) := by
  rw [tail_stop (h.operator? rank)]
  exact h.skipSpaces

theorem lost_power (h : Doomed s) (t : Measured) : Lost (power .permissive t s) := by
  have hmark : Token.mark? s.tokens ≠ some '^' := fun hc => by
    cases h.2 '^' hc
  rw [power_apply, if_neg hmark]
  exact h.skipSpaces

/-- The readings go on beside each other wherever an operand is expected. -/
def Parallel (step step' : Step Measured) (s : Reader) : Prop :=
  ∀ k q, Awaits k s q → Mirrors k (step s) (step' q)

theorem parallel_operand {rank : Rank}
    (h : OfOperand (fun rank => Parallel (chain .permissive rank) (chain .strictly rank))
      (Parallel (factor .permissive) (factor .strictly)) rank s) :
    Parallel (operand .permissive rank) (operand .strictly rank) s := by
  cases rank with
  | sum =>
    rw [operand_sum, operand_sum]
    exact h
  | product =>
    rw [operand_product, operand_product]
    exact h

theorem Awaits.start (hfits : Fits .start k s q) : Awaits k s q :=
  ⟨.start, by decide, fun h => (by cases h), hfits⟩

/-- The readings go on beside each other behind operands that are equal up to columns. -/
def ParallelTail (rank : Rank) (t : Measured) (s : Reader) : Prop :=
  ∀ k u q, Twins t u → Fits .operand k s q →
    Mirrors k (tail .permissive rank t s) (tail .strictly rank u q)

theorem parallel_tail {rank : Rank}
    (ih : ∀ op, (Token.mark? s.tokens).bind rank.operator? = some op →
      Parallel (operand .permissive rank) (operand .strictly rank) s.pass.skipSpaces ∧
        ∀ right s', operand .permissive rank s.pass.skipSpaces = .ok right s' →
          ∀ node, ParallelTail rank node s') :
    ParallelTail rank t s := by
  intro k u q htwins hfits
  have hsame : (Token.mark? q.tokens).bind rank.operator? =
      (Token.mark? s.tokens).bind rank.operator? := by
    rw [hfits.tokens_eq, Token.bind_mark?_fill_operand (by cases rank <;> rfl)]
  rw [tail_apply, tail_apply, hsame]
  cases hop : (Token.mark? s.tokens).bind rank.operator? with
  | none => exact .ok htwins hfits.skipSpaces
  | some op =>
    obtain ⟨hmark, -⟩ := mark?_of_operator? hop
    obtain ⟨hoperand, htails⟩ := ih op hop
    refine (mirrors_operation htwins (hfits.operator hmark) (hoperand k _)).bind ?_ ?_
    · intro node node' s' q' hnode _ htwins' hfits'
      obtain ⟨-, right, hright, -⟩ := operation_ok.1 hnode
      exact htails right s' hright node k node' q' htwins' hfits'
    · intro node s' _ hdoomed
      exact lost_tail hdoomed rank node

theorem parallel_chain {rank : Rank}
    (hoperand : Parallel (operand .permissive rank) (operand .strictly rank) s)
    (htail : ∀ left s', operand .permissive rank s = .ok left s' → ParallelTail rank left s') :
    Parallel (chain .permissive rank) (chain .strictly rank) s := by
  intro k q hawaits
  rw [chain_eq, chain_eq]
  refine (hoperand k q hawaits).bind ?_ ?_
  · intro left left' s' q' hleft _ htwins hfits
    exact htail left s' hleft k left' q' htwins hfits
  · intro left s' _ hdoomed
    exact lost_tail hdoomed rank left

/-! ## Factors -/

theorem parallel_factor (h : Parallel (signed .permissive) (signed .strictly) s.enter) :
    Parallel (factor .permissive) (factor .strictly) s := by
  intro k q ⟨p, hp, hfollows, hfits⟩
  have hawaits : Awaits k s.enter q.enter :=
    ⟨p, hp, hfollows, hfits.tokens_eq, congrArg (· + 1) hfits.openFactors_eq⟩
  have hlimits : Rules.permissive.limits = Rules.strictly.limits := rfl
  rw [factor_eq, factor_eq, hfits.openFactors_eq, hlimits]
  by_cases hlimit : withinLimit Rules.strictly.limits.nesting (s.openFactors + 1) = true
  · rw [if_pos hlimit, if_pos hlimit]
    exact (h k q.enter hawaits).leave
  · rw [if_neg hlimit, if_neg hlimit]
    exact .lost trivial

theorem mirrors_power (htwins : Twins t u) (hfits : Fits .operand k s q)
    (hfactor : Token.mark? s.tokens = some '^' →
      Parallel (factor .permissive) (factor .strictly) s.pass.skipSpaces) :
    Mirrors k (power .permissive t s) (power .strictly u q) := by
  have hsame : Token.mark? q.tokens = some '^' ↔ Token.mark? s.tokens = some '^' := by
    rw [hfits.tokens_eq, Token.mark?_fill_operand_eq_iff (by decide)]
  rw [power_apply, power_apply]
  by_cases hmark : Token.mark? s.tokens = some '^'
  · rw [if_pos hmark, if_pos (hsame.2 hmark)]
    have hsymbol : Token.mark? s.tokens = some BinaryOp.pow.symbol := hmark
    exact mirrors_operation htwins (hfits.operator hsymbol) (hfactor hmark k _)
  · rw [if_neg hmark, if_neg fun h => hmark (hsame.1 h)]
    exact .ok htwins hfits.skipSpaces

theorem parallel_signed
    (hfactor : ∀ sign, (Token.mark? s.tokens).bind Sign.ofChar? = some sign →
      Parallel (factor .permissive) (factor .strictly) (s.pass.note (.signed sign s.nextColumn)))
    (hprimary : (Token.mark? s.tokens).bind Sign.ofChar? = none →
      Parallel (primary .permissive) (primary .strictly) s)
    (hpower : ∀ base s', primary .permissive s = .ok base s' → Token.mark? s'.tokens = some '^' →
      Parallel (factor .permissive) (factor .strictly) s'.pass.skipSpaces) :
    Parallel (signed .permissive) (signed .strictly) s := by
  intro k q ⟨p, hp, hfollows, hfits⟩
  have hsame : (Token.mark? q.tokens).bind Sign.ofChar? =
      (Token.mark? s.tokens).bind Sign.ofChar? := by
    rw [hfits.tokens_eq, Token.sign?_fill]
  rw [signed_apply, signed_apply, hsame]
  cases hsign : (Token.mark? s.tokens).bind Sign.ofChar? with
  | some sign =>
    have hfits' := (hfits.sign hp (mark?_of_sign? hsign)).note (.signed sign s.nextColumn)
      (.signed sign q.nextColumn)
    refine (hfactor sign hsign k _ (.start hfits')).bind ?_ ?_
    · intro t u s' q' _ _ htwins hfits''
      exact mirrors_unary htwins hfits'' sign _ _
    · intro t s' _ hdoomed
      rw [unary_apply]
      exact lost_bounded hdoomed
  | none =>
    refine (hprimary hsign k q ⟨p, hp, hfollows, hfits⟩).bind ?_ ?_
    · intro base base' s' q' hbase _ htwins hfits'
      exact mirrors_power htwins hfits' (hpower base s' hbase)
    · intro base s' _ hdoomed
      exact lost_power hdoomed base

/-! ## Primaries -/

/-- A missing operand beside the zero that was written for it. -/
theorem mirrors_missing (hlacks : LacksOperand s.tokens)
    (htokens : q.tokens = Token.zero :: Token.fill .operand k s.tokens)
    (hopen : q.openFactors = s.openFactors) :
    Mirrors k (primary .permissive s) (primary .strictly q) := by
  have hpermissive : primary .permissive s =
      .ok ⟨.number 0.0 s.skipSpaces.cursor.column, 1⟩ s.skipSpaces := by
    rw [primary_of_lacksOperand hlacks, missingOperand_apply]
    rfl
  have hstrict : primary .strictly q =
      .ok ⟨.number 0.0 q.nextColumn, 1⟩ (q.passRun isNumberChar) := by
    rw [primary_apply, htokens]
    simp only [Token.zero, Numeral.read?_zero]
  rw [hpermissive, hstrict]
  refine .ok ⟨rfl, rfl⟩ ⟨?_, hopen⟩
  rw [Reader.tokens_passRun_number htokens, Reader.tokens_skipSpaces]

/-- A character that begins no operand ends both readings. -/
theorem mirrors_stray {c : Char} {ts us : List Token} (hs : s.tokens = .mark c :: ts)
    (hq : q.tokens = .mark c :: us) (hgroup : c ≠ '(') (hc : isOperatorChar c = false) :
    Mirrors k (primary .permissive s) (primary .strictly q) := by
  have hlacks : ∀ ts, LacksOperand (.mark c :: ts) := by
    intro ts t ht
    exact ⟨c, hgroup, (Option.some.inj ht).symm⟩
  have hpermissive : primary .permissive s =
      .ok ⟨.number 0.0 s.skipSpaces.cursor.column, 1⟩ s.skipSpaces := by
    rw [primary_of_lacksOperand (by rw [hs]; exact hlacks ts), missingOperand_apply]
    rfl
  have hstrict : primary .strictly q =
      .error ⟨.expectedOperand q.skipSpaces.cursor.current?, q.skipSpaces.cursor.column⟩
        q.skipSpaces := by
    rw [primary_of_lacksOperand (by rw [hq]; exact hlacks us), missingOperand_apply]
    rfl
  rw [hpermissive, hstrict]
  refine .lost ⟨?_, ?_⟩
  · rw [Reader.tokens_skipSpaces, hs]
    exact List.cons_ne_nil _ _
  · rw [Reader.tokens_skipSpaces, hs]
    rintro d ⟨⟩
    exact hc

/-- A parenthesis that is missing elsewhere than at the end leaves tokens that nothing goes on
with. -/
theorem mirrors_close (htwins : Twins t u) (hfits : Fits .operand (k + 1) s q)
    (hsettled : s.Settled Rank.sum.stops) :
    Mirrors k (close .permissive t s) (close .strictly u q) := by
  rw [close_apply, close_apply]
  by_cases hclose : Token.mark? s.tokens = some ')'
  · have hpass := hfits.pass hclose rfl rfl
    have hq : Token.mark? q.tokens = some ')' := by
      rw [hfits.tokens_eq, Reader.tokens_eq_cons hclose, Token.fill_cons rfl rfl]
      rfl
    rw [if_pos hclose, if_pos hq]
    exact .ok htwins hpass
  · have hloose : ¬ Rules.permissive.strict = true := by decide
    rw [if_neg hclose, if_neg hloose]
    cases htokens : s.tokens with
    | nil =>
      have hq : q.tokens = .mark ')' :: Token.fill .operand k [] := by
        rw [hfits.tokens_eq, htokens]
        rfl
      rw [if_pos (by rw [hq]; rfl)]
      refine .ok htwins ⟨?_, hfits.openFactors_eq⟩
      rw [Reader.tokens_pass hq, Reader.tokens_skipSpaces, htokens]
    | cons tok ts =>
      have hq : Token.mark? q.tokens ≠ some ')' := by
        rw [hfits.tokens_eq, htokens, Token.fill_cons (Reader.isSpace_eq_false htokens) rfl]
        rw [htokens] at hclose
        cases tok <;> exact hclose
      rw [if_neg hq]
      refine .lost ⟨?_, ?_⟩
      · rw [Reader.tokens_skipSpaces, htokens]
        exact List.cons_ne_nil _ _
      · rw [Reader.tokens_skipSpaces]
        intro c hc
        rw [Bool.eq_false_iff]
        intro hop
        have hmem : c = ')' ∨ c ∈ Rank.sum.stops := by
          simp only [isOperatorChar, Bool.or_eq_true, beq_iff_eq] at hop
          rcases hop with ((((rfl | rfl) | rfl) | rfl) | rfl) | rfl <;> decide
        rcases hmem with rfl | hmem
        · exact hclose hc
        · exact hsettled.mark_ne c hmem hc

theorem mirrors_group (hfits : Fits .start (k + 1) s.pass q.pass)
    (hs : Token.mark? s.tokens = some '(') (hq : Token.mark? q.tokens = some '(')
    (hchain : Parallel (chain .permissive .sum) (chain .strictly .sum) s.pass) :
    Mirrors k (primary .permissive s) (primary .strictly q) := by
  rw [primary_apply, primary_apply, Reader.tokens_eq_cons hs, Reader.tokens_eq_cons hq]
  simp only [if_true]
  refine (hchain (k + 1) q.pass (.start hfits)).bind ?_ ?_
  · intro t u s' q' ht _ htwins hfits'
    exact mirrors_close htwins hfits' (settled_of_chain ht)
  · intro t s' _ hdoomed
    have hclose : Token.mark? s'.tokens ≠ some ')' := fun hc => by
      cases hdoomed.2 ')' hc
    rw [close_apply, if_neg hclose]
    exact hdoomed.skipSpaces

theorem mirrors_word {p : Place} {run : List Char} {ts us : List Token} (hfits : Fits p k s q)
    (hs : s.tokens = .word run :: ts) (hq : q.tokens = .word run :: us)
    (hfactor : ∀ function, Function.ofName? (String.ofList run) = some function →
      Parallel (factor .permissive) (factor .strictly)
        ((s.passRun Char.isLower).note (.called function s.nextColumn))) :
    Mirrors k (primary .permissive s) (primary .strictly q) := by
  have hpass := hfits.passRun_word hs
  rw [primary_apply, primary_apply, hs, hq]
  cases hname : Function.ofName? (String.ofList run) with
  | none =>
    have hafter : p.after (.word run) = .operand := by rw [Place.after, hname]; rfl
    rw [hafter] at hpass
    simp only [hname]
    exact .ok ⟨rfl, rfl⟩ hpass
  | some function =>
    have hafter : p.after (.word run) = .start := by rw [Place.after, hname]; rfl
    rw [hafter] at hpass
    simp only [hname]
    refine (hfactor function hname k _ (.start (hpass.note _ _))).bind ?_ ?_
    · intro t u s' q' _ _ htwins hfits'
      exact mirrors_call htwins hfits' function _ _
    · intro t s' _ hdoomed
      rw [call_apply]
      exact lost_bounded hdoomed

theorem mirrors_number {p : Place} {run : List Char} {ts us : List Token} (hfits : Fits p k s q)
    (hs : s.tokens = .number run :: ts) (hq : q.tokens = .number run :: us) :
    Mirrors k (primary .permissive s) (primary .strictly q) := by
  rw [primary_apply, primary_apply, hs, hq]
  cases hvalue : Numeral.read? run with
  | none =>
    simp only [hvalue]
    exact .lost trivial
  | some value =>
    simp only [hvalue]
    exact .ok ⟨rfl, rfl⟩ (hfits.passRun_number hs)

/-- Where the repair writes no zero and no sign stands, only a stray character is no operand. -/
theorem isOperatorChar_of_awaits {p : Place} {c : Char} {ts : List Token} (hp : p ≠ .operand)
    (hfollows : p = .operator → Token.Follows (.mark c :: ts))
    (hsign : (Token.mark? (.mark c :: ts)).bind Sign.ofChar? = none)
    (hlacks : p.lacks (.mark c) = false) : isOperatorChar c = false := by
  cases p with
  | operand => exact absurd rfl hp
  | operator => exact hfollows rfl c rfl
  | start =>
    rw [Bool.eq_false_iff]
    intro hop
    simp only [isOperatorChar, Bool.or_eq_true, beq_iff_eq] at hop
    rcases hop with ((((rfl | rfl) | rfl) | rfl) | rfl) | rfl
    · cases hsign
    · cases hsign
    all_goals cases hlacks

theorem parallel_primary
    (hsign : (Token.mark? s.tokens).bind Sign.ofChar? = none)
    (hchain : Token.mark? s.tokens = some '(' →
      Parallel (chain .permissive .sum) (chain .strictly .sum) s.pass)
    (hfactor : ∀ run ts function, s.tokens = .word run :: ts →
      Function.ofName? (String.ofList run) = some function →
      Parallel (factor .permissive) (factor .strictly)
        ((s.passRun Char.isLower).note (.called function s.nextColumn))) :
    Parallel (primary .permissive) (primary .strictly) s := by
  intro k q ⟨p, hp, hfollows, hfits⟩
  have hq := hfits.tokens_eq
  cases htokens : s.tokens with
  | nil =>
    rw [htokens, Token.fill_nil hp, ← htokens] at hq
    exact mirrors_missing (by rw [htokens]; exact fun t ht => by cases ht) hq hfits.openFactors_eq
  | cons tok ts =>
    have hspace := Reader.isSpace_eq_false htokens
    cases hlacks : p.lacks tok with
    | true =>
      obtain ⟨-, c, rfl⟩ := Token.of_lacks hlacks
      have hc : c ≠ '(' := by
        rintro rfl
        cases p <;> cases hlacks
      rw [htokens, Token.fill_lacks hspace hlacks, ← htokens] at hq
      refine mirrors_missing (fun t ht => ⟨c, hc, ?_⟩) hq hfits.openFactors_eq
      rw [htokens] at ht
      exact (Option.some.inj ht).symm
    | false =>
      rw [htokens, Token.fill_cons hspace hlacks] at hq
      cases tok with
      | number run => exact mirrors_number hfits htokens hq
      | word run =>
        exact mirrors_word hfits htokens hq fun function => hfactor run ts function htokens
      | mark c =>
        by_cases hgroup : c = '('
        · subst hgroup
          have hs : Token.mark? s.tokens = some '(' := by rw [htokens]; rfl
          have hpass := hfits.pass hs rfl hlacks
          exact mirrors_group hpass hs (by rw [hq]; rfl) (hchain hs)
        · rw [htokens] at hfollows hsign
          exact mirrors_stray htokens hq hgroup
            (isOperatorChar_of_awaits hp hfollows hsign hlacks)

/-! ## Expressions -/

theorem parallel_inductive :
    Inductive .permissive
      (fun rank => Parallel (chain .permissive rank) (chain .strictly rank))
      ParallelTail
      (Parallel (factor .permissive) (factor .strictly))
      (Parallel (signed .permissive) (signed .strictly))
      (fun s => (Token.mark? s.tokens).bind Sign.ofChar? = none →
        Parallel (primary .permissive) (primary .strictly) s) where
  chain := fun _ _ hoperand htail => parallel_chain (parallel_operand hoperand) htail
  tail := fun _ _ _ ih => parallel_tail fun op hop =>
    ⟨parallel_operand (ih op hop).1, (ih op hop).2⟩
  factor := fun _ => parallel_factor
  signed := fun _ hfactor hprimary hpower =>
    parallel_signed hfactor (fun hsign => hprimary hsign hsign) hpower
  primary := fun _ hchain hfactor hsign => parallel_primary hsign hchain hfactor

/-- The trees of complete readings are the same up to columns. -/
theorem Mirrors.complete_iff {r r' : EStateM.Result ParseError Reader Measured}
    (h : Mirrors 0 r r') (e : Expr) :
    (∃ t s, r = .ok t s ∧ s.tokens = [] ∧ t.expr.bare = e) ↔
      ∃ u q, r' = .ok u q ∧ q.tokens = [] ∧ u.expr.bare = e := by
  cases h with
  | @ok t u s q htwins hfits =>
    have hend : s.tokens = [] ↔ q.tokens = [] := by
      rw [hfits.tokens_eq]
      cases htokens : s.tokens with
      | nil => exact ⟨fun _ => rfl, fun _ => rfl⟩
      | cons tok ts =>
        rw [Token.fill_cons (Reader.isSpace_eq_false htokens) rfl]
        simp
    constructor
    · rintro ⟨t, s, ⟨⟩, hs, rfl⟩
      exact ⟨u, q, rfl, hend.1 hs, htwins.bare_eq.symm⟩
    · rintro ⟨u, q, ⟨⟩, hq, rfl⟩
      exact ⟨t, s, rfl, hend.2 hq, htwins.bare_eq⟩
  | lost hlost =>
    constructor
    · rintro ⟨t, s, rfl, hs, -⟩
      exact absurd hs hlost.1
    · rintro ⟨u, q, ⟨⟩, -⟩

end Grammar

theorem Expr.parse_bare_iff {rules : Rules} {source : String} {e : Expr} :
    (Expr.parse rules source).toOption.map Expr.bare = some e ↔
      ∃ t s, Grammar.expression rules (.ofText source) = .ok t s ∧ s.tokens = [] ∧
        t.expr.bare = e := by
  constructor
  · intro h
    obtain ⟨u, hu, rfl⟩ := Option.map_eq_some_iff.1 h
    cases hparse : Expr.parse rules source with
    | error error =>
      rw [hparse] at hu
      cases hu
    | ok v =>
      rw [hparse] at hu
      cases hu
      obtain ⟨t, s, hs, hend, rfl⟩ := Expr.parse_eq_ok_iff.1 hparse
      exact ⟨t, s, hs, hend, rfl⟩
  · rintro ⟨t, s, hs, hend, rfl⟩
    rw [Expr.parse_eq_ok_iff.2 ⟨t, s, hs, hend, rfl⟩]
    rfl

/-- Permissive rules read a text as strict rules read the repaired one: either both come to the
same tree, up to columns, or neither text is an expression. -/
theorem parse_permissive_eq_parse_repair (source : String) :
    (Expr.parse .permissive source).toOption.map Expr.bare =
      (Expr.parse .strictly (repair source)).toOption.map Expr.bare := by
  have hfits : Grammar.Fits .start 0 (.ofText source) (.ofText (repair source)) :=
    ⟨Token.ofText_repair source, rfl⟩
  have hmirrors := Grammar.parallel_inductive.of_expression (.ofText source) 0 _ (.start hfits)
  refine Option.ext fun e => ?_
  rw [Expr.parse_bare_iff, Expr.parse_bare_iff]
  exact hmirrors.complete_iff e

end Calculator
