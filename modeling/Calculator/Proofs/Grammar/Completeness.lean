import Calculator.Proofs.Grammar.Soundness

/-!
# What readings reach

A reading takes whatever is derived by the grammar within the bounds of its
rules, if what follows cannot belong to it. Operands with operators between them
lead to the place where the next operator is looked for.
-/

namespace Calculator

namespace Nonterminal

/-- The marks that may not follow, since the reading would go on with them. -/
def stops : Nonterminal → List Char
  | expression => Rank.sum.operandStops
  | term => Rank.product.operandStops
  | factor => ['^']
  | primary => ['^']
  | base => []

end Nonterminal

namespace Grammar

open Step

/-- Reading what is derived from the nonterminal leads from `s` to the tree `e` in `s'`. -/
def Leads (rules : Rules) (s : Reader) (e : Measured) (s' : Reader) : Nonterminal → Prop
  | .expression => chain rules .sum s = tail rules .sum e s'
  | .term => chain rules .product s = tail rules .product e s'
  | .factor => factor rules s = .ok e s'
  | .primary => primary rules s = .ok e s'
  | .base => primary rules s = .ok e s'

/-- The tree `e` is `t` up to columns, and `rest` is left in `s'`. -/
structure Reaches (s : Reader) (t : Expr) (rest : List Token) (e : Measured) (s' : Reader) :
    Prop where
  bare_eq : e.expr.bare = t.bare
  height_eq : e.height = t.height
  tokens_eq : s'.tokens = rest
  openFactors_eq : s'.openFactors = s.openFactors

/-- Tokens that are derived from the nonterminal within the bounds are read from every place
where they come next. -/
def Complete (rules : Rules) (nt : Nonterminal) (ts : List Token) (t : Expr) (n : Nat) : Prop :=
  withinLimit rules.limits.height t.height = true → ∀ s rest, s.tokens = ts ++ rest →
    withinLimit rules.limits.nesting (s.openFactors + n) = true →
    (∀ c ∈ nt.stops, Token.mark? rest ≠ some c) →
    ∃ e s', Leads rules s e s' nt ∧ Reaches s t rest e s'

variable {rules : Rules}

theorem Reaches.skipSpaces {s s' : Reader} {t : Expr} {rest : List Token} {e : Measured}
    (h : Reaches s t rest e s') : Reaches s t rest e s'.skipSpaces :=
  ⟨h.bare_eq, h.height_eq, by rw [Reader.tokens_skipSpaces, h.tokens_eq], h.openFactors_eq⟩

theorem operand_of_complete {rank : Rank} {ts rest : List Token} {t : Expr} {n : Nat}
    (h : Complete rules rank.operandNonterminal ts t n)
    (hheight : withinLimit rules.limits.height t.height = true) {s : Reader}
    (hts : s.tokens = ts ++ rest)
    (hn : withinLimit rules.limits.nesting (s.openFactors + n) = true)
    (hstops : ∀ c ∈ rank.operandStops, Token.mark? rest ≠ some c) :
    ∃ e s', operand rules rank s = .ok e s' ∧ Reaches s t rest e s' := by
  cases rank with
  | sum =>
    have hstops' : ∀ c ∈ Nonterminal.stops .term, Token.mark? rest ≠ some c := fun c hc =>
      hstops c (List.mem_append_right ['*', '/'] hc)
    obtain ⟨e, s', hleads, hreaches⟩ := h hheight s rest hts hn hstops'
    refine ⟨e, s'.skipSpaces, ?_, hreaches.skipSpaces⟩
    rw [operand_sum]
    refine Eq.trans hleads (tail_stop (Rank.operator?_eq_none_of_stops ?_))
    rw [hreaches.tokens_eq]
    exact hstops
  | product =>
    obtain ⟨e, s', hleads, hreaches⟩ := h hheight s rest hts hn hstops
    exact ⟨e, s', by rw [operand_product]; exact hleads, hreaches⟩

theorem chain_of_operand {rules : Rules} {rank : Rank} {s s' : Reader} {e : Measured}
    (h : operand rules rank s = .ok e s') : chain rules rank s = tail rules rank e s' := by
  rw [chain_eq, bind_apply, h]

/-- The node of an operation behind a left side that was read from `s₀` on. -/
theorem operation_of_reaches {operand : Step Measured} {op : BinaryOp} {k : Nat} (column : Nat)
    {us rest : List Token} {l r : Expr} {left : Measured} {s₀ s : Reader}
    (hleft : Reaches s₀ l (.mark op.symbol :: us ++ rest) left s)
    (hus : FollowsOperator us) (hne : us ≠ [])
    (hheight : withinLimit rules.limits.height (Expr.binary op l r k).height = true)
    (hoperand : ∃ right s', operand s.pass.skipSpaces = .ok right s' ∧
      Reaches s.pass.skipSpaces r rest right s') :
    ∃ node s', operation rules operand op column left s.pass = .ok node s' ∧
      Reaches s₀ (.binary op l r k) rest node s' := by
  obtain ⟨right, s', hright, hreaches⟩ := hoperand
  have htokens : s.pass.tokens = us ++ rest := Reader.tokens_pass hleft.tokens_eq
  refine ⟨⟨.binary op left.expr right.expr column, max left.height right.height + 1⟩, s',
    operation_ok.2 ⟨?_, right, hright, binary_ok.2 ⟨?_, rfl, rfl⟩⟩, ?_⟩
  · rw [htokens, mark?_append hne]
    exact followsOperator_iff.1 hus
  · rw [hleft.height_eq, hreaches.height_eq]
    exact hheight
  · refine ⟨?_, ?_, hreaches.tokens_eq, ?_⟩
    · simp only [Expr.bare, hleft.bare_eq, hreaches.bare_eq]
    · simp only [Expr.height, hleft.height_eq, hreaches.height_eq]
    · rw [hreaches.openFactors_eq, ← hleft.openFactors_eq]
      rfl

theorem complete_operand (rank : Rank) {ts : List Token} {t : Expr} {n : Nat}
    (h : Complete rules rank.operandNonterminal ts t n) :
    Complete rules rank.nonterminal ts t n := by
  intro hheight s rest hts hn hstops
  have hstops' : ∀ c ∈ rank.operandStops, Token.mark? rest ≠ some c := by
    cases rank <;> exact hstops
  obtain ⟨e, s', hs, hreaches⟩ := operand_of_complete h hheight hts hn hstops'
  refine ⟨e, s', ?_, hreaches⟩
  cases rank <;> exact chain_of_operand hs

theorem complete_operation (rank : Rank) {op : BinaryOp} {ts us : List Token} {l r : Expr}
    {m n : Nat} (column : Nat) (hop : Rank.ofOp? op = some rank)
    (hl : Complete rules rank.nonterminal ts l m) (hus : FollowsOperator us) (hne : us ≠ [])
    (hr : Complete rules rank.operandNonterminal us r n) :
    Complete rules rank.nonterminal (ts ++ .mark op.symbol :: us) (.binary op l r column)
      (max m n) := by
  intro hheight s rest hts hn hstops
  have hheight' := hheight
  simp only [Expr.height] at hheight'
  have hstops' : ∀ c ∈ rank.operandStops, Token.mark? rest ≠ some c := by
    cases rank <;> exact hstops
  have hmark : ∀ c ∈ rank.nonterminal.stops,
      Token.mark? (.mark op.symbol :: us ++ rest) ≠ some c := by
    rintro c hc ⟨⟩
    refine Rank.symbol_notMem_operandStops hop ?_
    cases rank <;> exact hc
  rw [List.append_assoc] at hts
  obtain ⟨left, s₁, hleads, hleft⟩ := hl (withinLimit_mono hheight' (by omega)) s _ hts
    (withinLimit_mono hn (by omega)) hmark
  have htokens : s₁.pass.skipSpaces.tokens = us ++ rest := by
    rw [Reader.tokens_skipSpaces]
    exact Reader.tokens_pass hleft.tokens_eq
  have hopen : s₁.pass.skipSpaces.openFactors = s.openFactors := hleft.openFactors_eq
  obtain ⟨node, s', hnode, hreaches⟩ := operation_of_reaches s₁.nextColumn hleft hus hne hheight
    (operand_of_complete hr (withinLimit_mono hheight' (by omega)) htokens
      (withinLimit_mono hn (by omega)) hstops')
  refine ⟨node, s', ?_, hreaches⟩
  have htail : tail rules rank left s₁ = tail rules rank node s' := by
    refine tail_step ?_ hnode
    rw [hleft.tokens_eq]
    exact Rank.operator?_eq_some_iff.2 ⟨rfl, hop⟩
  cases rank <;> exact Eq.trans hleads htail

/-- A factor is what is read while it counts as open. -/
theorem factor_of_signed {s s' : Reader} {t : Expr} {rest : List Token} {e : Measured}
    (hopen : withinLimit rules.limits.nesting (s.openFactors + 1) = true)
    (h : signed rules s.enter = .ok e s')
    (hreaches : Reaches s.enter t rest e s') :
    ∃ e s', Leads rules s e s' .factor ∧ Reaches s t rest e s' := by
  refine ⟨e, s'.leave, factor_ok.2 ⟨hopen, s', h, rfl⟩, ?_⟩
  refine ⟨hreaches.bare_eq, hreaches.height_eq, hreaches.tokens_eq, ?_⟩
  rw [Reader.openFactors_leave, hreaches.openFactors_eq]
  rfl

theorem complete_signed {ts : List Token} {t : Expr} {n : Nat} (sign : Sign) (column : Nat)
    (h : Complete rules .factor ts t n) :
    Complete rules .factor (.mark sign.symbol :: ts) (.unary sign t column) (n + 1) := by
  intro hheight s rest hts hn hstops
  have hheight' : withinLimit rules.limits.height (t.height + 1) = true := hheight
  let s₁ := s.enter.pass.note (.signed sign s.enter.nextColumn)
  have htokens : s₁.tokens = ts ++ rest := Reader.tokens_pass (s := s.enter) hts
  have hopen : s₁.openFactors = s.openFactors + 1 := rfl
  obtain ⟨e, s', hleads, hreaches⟩ := h (withinLimit_mono hheight' (Nat.le_succ _)) s₁ rest htokens
    (withinLimit_mono hn (by omega)) hstops
  have hsign : (Token.mark? s.enter.tokens).bind Sign.ofChar? = some sign := by
    rw [Reader.tokens_enter, hts]
    exact Sign.ofChar?_eq_some_iff.2 rfl
  have hnode : unary rules sign s.enter.nextColumn e s' =
      .ok ⟨.unary sign e.expr s.enter.nextColumn, e.height + 1⟩ s' := by
    refine unary_ok.2 ⟨?_, rfl, rfl⟩
    rw [hreaches.height_eq]
    exact hheight'
  refine factor_of_signed (withinLimit_mono hn (by omega))
    (signed_ok.2 (.signed sign e hsign hleads hnode)) ?_
  refine ⟨?_, ?_, hreaches.tokens_eq, hreaches.openFactors_eq⟩
  · simp only [Expr.bare, hreaches.bare_eq]
  · simp only [Expr.height, hreaches.height_eq]

theorem sign?_eq_none {ts rest : List Token} (hne : ts ≠ [])
    (h : ∀ sign : Sign, Token.mark? ts ≠ some sign.symbol) :
    (Token.mark? (ts ++ rest)).bind Sign.ofChar? = none := by
  rw [mark?_append hne]
  cases hsign : (Token.mark? ts).bind Sign.ofChar? with
  | none => rfl
  | some sign => exact absurd (mark?_of_sign? hsign) (h sign)

theorem complete_primary {ts : List Token} {t : Expr} {n : Nat}
    (h : Complete rules .primary ts t n) (hne : ts ≠ [])
    (hsign : ∀ sign : Sign, Token.mark? ts ≠ some sign.symbol) :
    Complete rules .factor ts t (n + 1) := by
  intro hheight s rest hts hn hstops
  have hopen : s.enter.openFactors = s.openFactors + 1 := rfl
  obtain ⟨e, s', hleads, hreaches⟩ := h hheight s.enter rest hts
    (withinLimit_mono hn (by omega)) hstops
  have hpower : power rules e s' = .ok e s'.skipSpaces := by
    refine power_ok.2 (.inr ⟨?_, rfl, rfl⟩)
    rw [hreaches.tokens_eq]
    exact hstops '^' (by decide)
  have hunsigned : (Token.mark? s.enter.tokens).bind Sign.ofChar? = none := by
    rw [Reader.tokens_enter, hts]
    exact sign?_eq_none hne hsign
  exact factor_of_signed (withinLimit_mono hn (by omega))
    (signed_ok.2 (.unsigned e s' hunsigned hleads hpower))
    hreaches.skipSpaces

theorem complete_power {ts us : List Token} {l r : Expr} {m n : Nat} (column : Nat)
    (hl : Complete rules .base ts l m) (hlne : ts ≠ [])
    (hsign : ∀ sign : Sign, Token.mark? ts ≠ some sign.symbol) (hus : FollowsOperator us)
    (hne : us ≠ []) (hr : Complete rules .factor us r n) :
    Complete rules .factor (ts ++ .mark '^' :: us) (.binary .pow l r column) (max m n + 1) := by
  intro hheight s rest hts hn hstops
  have hheight' := hheight
  simp only [Expr.height] at hheight'
  have hopen : s.enter.openFactors = s.openFactors + 1 := rfl
  rw [List.append_assoc] at hts
  obtain ⟨left, s₁, hleads, hleft⟩ :=
    hl (withinLimit_mono hheight' (by omega)) s.enter _ hts (withinLimit_mono hn (by omega))
      (by simp [Nonterminal.stops])
  have htokens : s₁.pass.skipSpaces.tokens = us ++ rest := by
    rw [Reader.tokens_skipSpaces]
    exact Reader.tokens_pass hleft.tokens_eq
  have hopen₁ : s₁.pass.skipSpaces.openFactors = s.openFactors + 1 := hleft.openFactors_eq
  obtain ⟨node, s', hnode, hreaches⟩ := operation_of_reaches s₁.nextColumn hleft hus hne hheight
    (hr (withinLimit_mono hheight' (by omega)) s₁.pass.skipSpaces rest htokens
      (withinLimit_mono hn (by omega)) hstops)
  have hunsigned : (Token.mark? s.enter.tokens).bind Sign.ofChar? = none := by
    rw [Reader.tokens_enter, hts]
    exact sign?_eq_none hlne hsign
  have hpower : power rules left s₁ = .ok node s' := by
    refine power_ok.2 (.inl ⟨?_, hnode⟩)
    rw [hleft.tokens_eq]
    rfl
  exact factor_of_signed (withinLimit_mono hn (by omega))
    (signed_ok.2 (.unsigned left s₁ hunsigned hleads hpower))
    hreaches

theorem complete_call {ts : List Token} {t : Expr} {n : Nat} (function : Function)
    (column : Nat) (h : Complete rules .factor ts t n) :
    Complete rules .primary (.word function.name.toList :: ts) (.call function t column) n := by
  intro hheight s rest hts hn hstops
  have hheight' : withinLimit rules.limits.height (t.height + 1) = true := hheight
  let s₁ := (s.passRun Char.isLower).note (.called function s.nextColumn)
  have htokens : s₁.tokens = ts ++ rest := Reader.tokens_passRun_word hts
  have hopen : s₁.openFactors = s.openFactors := rfl
  obtain ⟨e, s', hleads, hreaches⟩ := h (withinLimit_mono hheight' (Nat.le_succ _)) s₁ rest htokens
    (withinLimit_mono hn (by omega)) hstops
  have hname : Function.ofName? (String.ofList function.name.toList) = some function := by
    rw [String.ofList_toList]
    exact Function.ofName?_eq_some_iff.2 rfl
  refine ⟨_, s', primary_ok.2 (.call _ _ function e hts hname hleads
    (call_ok.2 ⟨?_, rfl, rfl⟩)), ?_⟩
  · rw [hreaches.height_eq]
    exact hheight'
  · refine ⟨?_, ?_, hreaches.tokens_eq, hreaches.openFactors_eq⟩
    · simp only [Expr.bare, hreaches.bare_eq]
    · simp only [Expr.height, hreaches.height_eq]

theorem complete_group {ts : List Token} {t : Expr} {n : Nat}
    (h : Complete rules .expression ts t n) :
    Complete rules .base (.mark '(' :: ts ++ [.mark ')']) t n := by
  intro hheight s rest hts hn hstops
  have htokens : s.pass.tokens = ts ++ .mark ')' :: rest :=
    Reader.tokens_pass (c := '(') (by rw [hts]; simp)
  obtain ⟨e, s₁, hleads, hreaches⟩ :=
    h hheight s.pass (.mark ')' :: rest) htokens hn fun c hc hmark => by
      cases hmark
      exact absurd hc (by decide)
  have htail : expression rules s.pass = .ok e s₁.skipSpaces := by
    refine Eq.trans hleads (tail_stop ?_)
    rw [hreaches.tokens_eq]
    rfl
  have hclosed : s₁.skipSpaces.tokens = .mark ')' :: rest := by
    rw [Reader.tokens_skipSpaces, hreaches.tokens_eq]
  refine ⟨e, s₁.skipSpaces.pass, primary_ok.2 (.group e s₁.skipSpaces (by rw [hts]; rfl) htail
    (close_ok.2 ⟨rfl, .inl ⟨by rw [hclosed]; rfl, rfl⟩⟩)), ?_⟩
  exact ⟨hreaches.bare_eq, hreaches.height_eq, Reader.tokens_pass hclosed,
    hreaches.openFactors_eq⟩

theorem complete_number {run : List Char} (column : Nat) (hrun : IsLiteral run) :
    Complete rules .base [.number run] (.number (literalValue run) column) 0 := by
  intro hheight s rest hts hn hstops
  have hvalue := (Numeral.read?_eq_some_iff hrun.all_numberChar).2 ⟨hrun, rfl⟩
  exact ⟨_, _, primary_ok.2 (.number run rest _ hts hvalue), rfl, rfl,
    Reader.tokens_passRun_number hts, rfl⟩

theorem complete_var {run : List Char} (column : Nat)
    (hrun : ∀ function : Function, run ≠ function.name.toList) :
    Complete rules .base [.word run] (.var (String.ofList run) column) 0 := by
  intro hheight s rest hts hn hstops
  have hname : Function.ofName? (String.ofList run) = none := by
    cases h : Function.ofName? (String.ofList run) with
    | none => rfl
    | some function =>
      refine absurd ?_ (hrun function)
      rw [← Function.ofName?_eq_some_iff.1 h, String.toList_ofList]
  exact ⟨_, _, primary_ok.2 (.var run rest hts hname), rfl, rfl,
    Reader.tokens_passRun_word hts, rfl⟩

end Grammar

theorem Derives.mark?_ne_sign {nt : Nonterminal} {ts : List Token} {t : Expr} {n : Nat}
    (h : Derives nt ts t n) (hnt : nt = .primary ∨ nt = .base) (sign : Sign) :
    Token.mark? ts ≠ some sign.symbol := by
  induction h with
  | term | sum | factor | product | signed | primary | power =>
    rcases hnt with hnt | hnt <;> cases hnt
  | base _ ih => exact ih (.inr rfl)
  | call | number | var => simp [Token.mark?]
  | group => cases sign <;> simp [Token.mark?, Sign.symbol]

namespace Grammar

/-- By induction on the derivation, with a case for each rule of the grammar. -/
theorem complete_of_derives {nt : Nonterminal} {ts : List Token} {t : Expr} {n : Nat}
    (h : Derives nt ts t n) : Complete rules nt ts t n := by
  induction h with
  | term _ ih => exact complete_operand .sum ih
  | sum column hop _ hus hr ihl ihr =>
    refine complete_operation .sum column ?_ ihl hus hr.ne_nil ihr
    rcases hop with rfl | rfl <;> rfl
  | factor _ ih => exact complete_operand .product ih
  | product column hop _ hus hr ihl ihr =>
    refine complete_operation .product column ?_ ihl hus hr.ne_nil ihr
    rcases hop with rfl | rfl <;> rfl
  | signed sign column _ ih => exact complete_signed sign column ih
  | primary h ih => exact complete_primary ih h.ne_nil (h.mark?_ne_sign (.inl rfl))
  | power column hl hus hr ihl ihr =>
    exact complete_power column ihl hl.ne_nil (hl.mark?_ne_sign (.inr rfl)) hus hr.ne_nil ihr
  | base _ ih =>
    intro hheight s rest hts hn _
    exact ih hheight s rest hts hn (by simp [Nonterminal.stops])
  | call function column _ ih => exact complete_call function column ih
  | number column hrun => exact complete_number column hrun
  | var column hrun => exact complete_var column hrun
  | group _ ih => exact complete_group ih

end Grammar

/-- A text that is derived within the bounds of the rules parses, and the derived tree is read. -/
theorem Expr.exists_parse_of_derives {rules : Rules} {source : String} {t : Expr} {n : Nat}
    (hn : withinLimit rules.limits.nesting n = true)
    (hheight : withinLimit rules.limits.height t.height = true)
    (h : Derives .expression (Token.ofText source.toList) t n) :
    ∃ e, Expr.parse rules source = .ok e ∧ e.bare = t.bare := by
  have htokens : (Reader.ofText source).tokens = Token.ofText source.toList ++ [] :=
    (List.append_nil _).symm
  have hopen : withinLimit rules.limits.nesting
      ((Reader.ofText source).openFactors + n) = true := by
    simpa [Reader.ofText] using hn
  obtain ⟨e, s', hleads, hreaches⟩ :=
    Grammar.complete_of_derives h hheight _ [] htokens hopen fun _ _ hmark => by cases hmark
  have hexpression : Grammar.expression rules (.ofText source) = .ok e s'.skipSpaces := by
    refine Eq.trans hleads (Grammar.tail_stop ?_)
    rw [hreaches.tokens_eq]
    rfl
  refine ⟨e.expr, Expr.parse_eq_ok_iff.2 ⟨e, s'.skipSpaces, hexpression, ?_, rfl⟩,
    hreaches.bare_eq⟩
  rw [Reader.tokens_skipSpaces, hreaches.tokens_eq]

end Calculator
