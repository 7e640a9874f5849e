import Calculator.Proofs.Grammar.Refusal
import Mathlib.Data.List.Basic

/-!
# What tokens pay for

Every node of a tree but the leaves is paid for by a token that was read, and so
is every factor that is open inside another. Along the calls of a reading the
tokens ahead and what they have paid for never become more. So a text with few
such tokens is never too deeply nested.
-/

namespace Calculator

namespace Token

/-- The token opens a factor inside the one that it stands in. -/
def opensFactor : Token → Bool
  | mark c => c == '(' || c == '+' || c == '-' || c == '^'
  | word run => (Function.ofName? (String.ofList run)).isSome
  | number _ => false

/-- The token makes a node over other nodes. -/
def makesNode : Token → Bool
  | mark c => (BinaryOp.ofChar? c).isSome
  | word run => (Function.ofName? (String.ofList run)).isSome
  | number _ => false

theorem makesNode_operator (op : BinaryOp) : makesNode (mark op.symbol) = true := by
  cases op <;> rfl

theorem makesNode_sign (sign : Sign) : makesNode (mark sign.symbol) = true := by
  cases sign <;> rfl

theorem opensFactor_sign (sign : Sign) : opensFactor (mark sign.symbol) = true := by
  cases sign <;> rfl

end Token

namespace Reader

/-- How many tokens ahead open a factor. -/
def openers (s : Reader) : Nat :=
  s.tokens.countP Token.opensFactor

/-- How many tokens ahead make a node. -/
def makers (s : Reader) : Nat :=
  s.tokens.countP Token.makesNode

variable {s s' : Reader}

@[simp] theorem openers_skipSpaces (s : Reader) : s.skipSpaces.openers = s.openers := by
  rw [openers, openers, tokens_skipSpaces]

@[simp] theorem makers_skipSpaces (s : Reader) : s.skipSpaces.makers = s.makers := by
  rw [makers, makers, tokens_skipSpaces]

@[simp] theorem openers_note (e : ParseEvent) (s : Reader) : (s.note e).openers = s.openers := rfl

@[simp] theorem makers_note (e : ParseEvent) (s : Reader) : (s.note e).makers = s.makers := rfl

theorem openers_le (h : s'.tokens <:+ s.tokens) : s'.openers ≤ s.openers :=
  h.sublist.countP_le

theorem makers_le (h : s'.tokens <:+ s.tokens) : s'.makers ≤ s.makers :=
  h.sublist.countP_le

theorem suffix_skipSpaces (s : Reader) : s.skipSpaces.tokens <:+ s.tokens :=
  ⟨[], tokens_skipSpaces s⟩

theorem suffix_pass {c : Char} (h : Token.mark? s.tokens = some c) :
    s.pass.tokens <:+ s.tokens := by
  rw [tokens_eq_cons h]
  exact List.suffix_cons _ _

theorem openers_pass {c : Char} (h : Token.mark? s.tokens = some c)
    (hc : Token.opensFactor (.mark c) = true) : s.openers = s.pass.openers + 1 := by
  rw [openers, tokens_eq_cons h, List.countP_cons_of_pos hc]
  rfl

theorem makers_pass {c : Char} (h : Token.mark? s.tokens = some c)
    (hc : Token.makesNode (.mark c) = true) : s.makers = s.pass.makers + 1 := by
  rw [makers, tokens_eq_cons h, List.countP_cons_of_pos hc]
  rfl

theorem suffix_passRun_word {run : List Char} {ts : List Token} (h : s.tokens = .word run :: ts) :
    (s.passRun Char.isLower).tokens <:+ s.tokens := by
  rw [tokens_passRun_word h, h]
  exact List.suffix_cons _ _

theorem suffix_passRun_number {run : List Char} {ts : List Token}
    (h : s.tokens = .number run :: ts) : (s.passRun isNumberChar).tokens <:+ s.tokens := by
  rw [tokens_passRun_number h, h]
  exact List.suffix_cons _ _

theorem openers_passRun {run : List Char} {ts : List Token} {function : Function}
    (h : s.tokens = .word run :: ts)
    (hname : Function.ofName? (String.ofList run) = some function) :
    s.openers = (s.passRun Char.isLower).openers + 1 := by
  rw [openers, openers, tokens_passRun_word h, h, List.countP_cons_of_pos]
  rw [Token.opensFactor, hname]
  rfl

theorem makers_passRun {run : List Char} {ts : List Token} {function : Function}
    (h : s.tokens = .word run :: ts)
    (hname : Function.ofName? (String.ofList run) = some function) :
    s.makers = (s.passRun Char.isLower).makers + 1 := by
  rw [makers, makers, tokens_passRun_word h, h, List.countP_cons_of_pos]
  rw [Token.makesNode, hname]
  rfl

end Reader

theorem Expr.height_pos (t : Expr) : 1 ≤ t.height := by
  cases t <;> simp [height]

namespace Grammar

open Step

namespace Call

/-- The height with which the call begins. -/
def base : Call → Nat
  | tail _ left => left.height
  | _ => 1

/-- The tree that the call begins with has the height that goes with it. -/
def Exact : Call → Prop
  | tail _ left => left.height = left.expr.height
  | _ => True

/-- How many open factors no token has paid for yet. -/
def slack : Call → Nat
  | signed => 1
  | primary => 1
  | _ => 0

theorem base_pos {c : Call} (h : c.Exact) : 1 ≤ c.base := by
  cases c with
  | tail rank left => exact Nat.le_trans left.expr.height_pos (Nat.le_of_eq h.symm)
  | _ => exact Nat.le_refl 1

theorem exact_operand (rank : Rank) : (operand rank).Exact := by
  cases rank <;> trivial

@[simp] theorem base_operand (rank : Rank) : (operand rank).base = 1 := by
  cases rank <;> rfl

@[simp] theorem slack_operand (rank : Rank) : (operand rank).slack = 0 := by
  cases rank <;> rfl

end Call

/-! ## What a call reads and builds -/

/-- What a call that begins in `s` has read and built when it ends in `s'`. -/
structure Built (rules : Rules) (c : Call) (s : Reader) (t : Measured) (s' : Reader) : Prop where
  suffix : s'.tokens <:+ s.tokens
  exact : t.height = t.expr.height
  base_le : c.base ≤ t.height
  height_le : t.height + s'.makers ≤ c.base + s.makers
  within : t.height = c.base ∨ withinLimit rules.limits.height t.height = true

/-- Whatever the call returns was built in this way. -/
def BuildsAt (rules : Rules) (c : Call) (s : Reader) : Prop :=
  c.Exact → ∀ t s', c.run rules s = .ok t s' → Built rules c s t s'

variable {rules : Rules} {c c' : Call} {s s' : Reader} {t left : Measured} {rank : Rank}

theorem Built.leaf {e : Expr} (hsuffix : s'.tokens <:+ s.tokens) (he : e.height = 1) :
    Built rules .primary s ⟨e, 1⟩ s' where
  suffix := hsuffix
  exact := he.symm
  base_le := Nat.le_refl 1
  height_le := Nat.add_le_add_left (Reader.makers_le hsuffix) 1
  within := .inl rfl

theorem Built.congr (h : Built rules c s t s') (hbase : c'.base = c.base) :
    Built rules c' s t s' := by
  obtain ⟨hsuffix, hexact, hle, hheight, hwithin⟩ := h
  rw [← hbase] at hle hheight hwithin
  exact ⟨hsuffix, hexact, hle, hheight, hwithin⟩

/-- A node over a tree that was built behind the token that pays for the node. -/
theorem Built.node {operand : Measured} {q : Reader} {e : Expr} {c₁ : Call}
    (h : Built rules c q operand s') (hc₁ : c₁.base = 1) (hc : c.base = 1)
    (hsuffix : q.tokens <:+ s.tokens) (hmakers : s.makers = q.makers + 1)
    (he : e.height = operand.expr.height + 1)
    (hheight : withinLimit rules.limits.height (operand.height + 1) = true) :
    Built rules c₁ s ⟨e, operand.height + 1⟩ s' := by
  have hle := h.height_le
  refine ⟨h.suffix.trans hsuffix, ?_, ?_, ?_, .inr hheight⟩
  · show operand.height + 1 = e.height
    rw [he, h.exact]
  · show c₁.base ≤ operand.height + 1
    omega
  · show operand.height + 1 + s'.makers ≤ c₁.base + s.makers
    omega

/-- An operation whose operator pays for its node, behind a left side built from `s₀` on. -/
theorem Built.operation {c₀ c₁ : Call} {s₀ q : Reader} {op : BinaryOp} {column : Nat}
    {right : Measured} (hleft : Built rules c₀ s₀ left s) (hc₀ : 1 ≤ c₀.base)
    (hright : Built rules c₁ q right s') (hc₁ : c₁.base = 1) (hsuffix : q.tokens <:+ s.tokens)
    (hmakers : s.makers = q.makers + 1)
    (hheight : withinLimit rules.limits.height (max left.height right.height + 1) = true) :
    Built rules c₀ s₀
      ⟨.binary op left.expr right.expr column, max left.height right.height + 1⟩ s' := by
  have hlel := hleft.height_le
  have hler := hright.height_le
  have hbase := hleft.base_le
  have hmakers' := Reader.makers_le (hright.suffix.trans hsuffix)
  have hmakers₀ := Reader.makers_le hleft.suffix
  have hq := Reader.makers_le hright.suffix
  refine ⟨(hright.suffix.trans hsuffix).trans hleft.suffix, ?_, ?_, ?_, .inr hheight⟩
  · simp only [Expr.height, hleft.exact, hright.exact]
  · show c₀.base ≤ max left.height right.height + 1
    omega
  · show max left.height right.height + 1 + s'.makers ≤ c₀.base + s₀.makers
    omega

/-- Where a tail begins, it has built its left side. -/
theorem Built.start (hexact : left.height = left.expr.height) :
    Built rules (.tail rank left) s left s where
  suffix := List.suffix_refl _
  exact := hexact
  base_le := Nat.le_refl _
  height_le := Nat.le_refl _
  within := .inl rfl

/-- What a tail builds behind its left side is built together with it. -/
theorem Built.tail {s₁ : Reader} (hleft : Built rules c s left s₁)
    (htail : Built rules (.tail rank left) s₁ t s') : Built rules c s t s' := by
  have hle := hleft.height_le
  have hle' := htail.height_le
  have hbase := hleft.base_le
  have hbase' := htail.base_le
  simp only [Call.base] at hle' hbase'
  refine ⟨htail.suffix.trans hleft.suffix, htail.exact, by omega, by omega, ?_⟩
  rcases htail.within with heq | hwithin
  · simp only [Call.base] at heq
    rw [heq]
    exact hleft.within
  · exact .inr hwithin

theorem builds_chain (ih : ∀ c s', Calls rules (.chain rank) s c s' → BuildsAt rules c s') :
    BuildsAt rules (.chain rank) s := by
  intro _ t s' h
  obtain ⟨left, s₁, hleft, h⟩ := chain_ok.1 h
  have hoperand := ih _ _ (.operand rank s) (Call.exact_operand rank) left s₁
    (by rwa [Call.run_operand])
  have hbuilt : Built rules (.chain rank) s left s₁ :=
    hoperand.congr (Call.base_operand rank).symm
  exact hbuilt.tail (ih _ _ (.tail hleft) hbuilt.exact t s' h)

theorem builds_operation {op : BinaryOp} (hexact : left.height = left.expr.height)
    (hop : (Token.mark? s.tokens).bind rank.operator? = some op)
    (hright : BuildsAt rules (.operand rank) s.pass.skipSpaces)
    (hnode : operation rules (operand rules rank) op s.nextColumn left s.pass = .ok t s') :
    Built rules (.tail rank left) s t s' := by
  obtain ⟨hmark, -⟩ := mark?_of_operator? hop
  obtain ⟨-, right, hrun, hbinary⟩ := operation_ok.1 hnode
  obtain ⟨hheight, rfl, -⟩ := binary_ok.1 hbinary
  have hr := hright (Call.exact_operand rank) right s' (by rwa [Call.run_operand])
  have hstart : Built rules (.tail rank left) s left s := .start hexact
  refine hstart.operation (Call.base_pos (c := .tail rank left) hexact) hr
    (Call.base_operand rank) ((Reader.suffix_skipSpaces _).trans (Reader.suffix_pass hmark)) ?_
    hheight
  rw [Reader.makers_skipSpaces]
  exact Reader.makers_pass hmark (Token.makesNode_operator op)

theorem builds_tail (ih : ∀ c s', Calls rules (.tail rank left) s c s' → BuildsAt rules c s') :
    BuildsAt rules (.tail rank left) s := by
  intro hexact t s' h
  cases tail_ok.1 h with
  | stop hop =>
    refine ⟨s.suffix_skipSpaces, hexact, Nat.le_refl _, ?_, .inl rfl⟩
    rw [Reader.makers_skipSpaces]
    exact Nat.le_refl _
  | step op node s₁ hop hnode htail =>
    have hright := ih _ _ (.right left hop (any_isOperatorChar_eq_false (operation_ok.1 hnode).1))
    have hnode' := builds_operation hexact hop hright hnode
    exact hnode'.tail (ih _ _ (.next hop hnode) hnode'.exact t s' htail)

theorem builds_factor (ih : ∀ c s', Calls rules .factor s c s' → BuildsAt rules c s') :
    BuildsAt rules .factor s := by
  intro _ t s' h
  obtain ⟨hlimit, s₁, hsigned, rfl⟩ := factor_ok.1 h
  have hbuilt := ih _ _ (.enter hlimit) trivial t s₁ hsigned
  exact ⟨hbuilt.suffix, hbuilt.exact, hbuilt.base_le, hbuilt.height_le, hbuilt.within⟩

theorem builds_signed (ih : ∀ c s', Calls rules .signed s c s' → BuildsAt rules c s') :
    BuildsAt rules .signed s := by
  intro _ t s' h
  cases signed_ok.1 h with
  | signed sign operand hsign hoperand hnode =>
    have hmark := mark?_of_sign? hsign
    obtain ⟨hheight, rfl, -⟩ := unary_ok.1 hnode
    have hbuilt := ih _ _ (.sign hsign) trivial operand s' hoperand
    exact hbuilt.node rfl rfl (Reader.suffix_pass hmark)
      (Reader.makers_pass hmark (Token.makesNode_sign sign)) rfl hheight
  | unsigned base s₁ hsign hbase hpower =>
    have hb : Built rules .signed s base s₁ :=
      (ih _ _ (.base hsign) trivial base s₁ hbase).congr rfl
    rcases power_ok.1 hpower with ⟨hmark, hoperation⟩ | ⟨-, rfl, rfl⟩
    · obtain ⟨hfollow, exponent, hexponent, hbinary⟩ := operation_ok.1 hoperation
      obtain ⟨hheight, rfl, -⟩ := binary_ok.1 hbinary
      have he := ih _ _ (.exponent hsign hbase hmark (any_isOperatorChar_eq_false hfollow))
        trivial exponent s' hexponent
      exact hb.operation (Nat.le_refl 1) he rfl
        ((Reader.suffix_skipSpaces _).trans (Reader.suffix_pass hmark))
        (by rw [Reader.makers_skipSpaces]; exact Reader.makers_pass hmark rfl) hheight
    · refine ⟨s₁.suffix_skipSpaces.trans hb.suffix, hb.exact, hb.base_le, ?_, hb.within⟩
      rw [Reader.makers_skipSpaces]
      exact hb.height_le

theorem builds_primary (ih : ∀ c s', Calls rules .primary s c s' → BuildsAt rules c s') :
    BuildsAt rules .primary s := by
  intro _ t s' h
  cases primary_ok.1 h with
  | group inner s₁ hmark hinner hclose =>
    obtain ⟨rfl, hends⟩ := close_ok.1 hclose
    have hbuilt := ih _ _ (.group hmark) trivial t s₁ hinner
    have hsuffix : s'.tokens <:+ s₁.tokens := by
      rcases hends with ⟨hclosed, rfl⟩ | ⟨-, -, rfl⟩
      · exact Reader.suffix_pass hclosed
      · exact s₁.suffix_skipSpaces
    have hpass := Reader.makers_le (Reader.suffix_pass hmark)
    have hmakers := Reader.makers_le hsuffix
    have hle := hbuilt.height_le
    refine ⟨(hsuffix.trans hbuilt.suffix).trans (Reader.suffix_pass hmark), hbuilt.exact,
      hbuilt.base_le, ?_, hbuilt.within⟩
    simp only [Call.base] at hle ⊢
    omega
  | number run ts value htokens hvalue => exact .leaf (Reader.suffix_passRun_number htokens) rfl
  | call run ts function argument htokens hname hargument hnode =>
    obtain ⟨hheight, rfl, -⟩ := call_ok.1 hnode
    have hbuilt := ih _ _ (.argument htokens hname) trivial argument s' hargument
    exact hbuilt.node rfl rfl (Reader.suffix_passRun_word htokens)
      (Reader.makers_passRun htokens hname) rfl hheight
  | var run ts htokens hname => exact .leaf (Reader.suffix_passRun_word htokens) rfl
  | missing hstrict hlacks => exact .leaf s.suffix_skipSpaces rfl

/-- By induction along the calls. -/
theorem builds_run (rules : Rules) (c : Call) (s : Reader) : BuildsAt rules c s := by
  induction c, s using Calls.induction rules with
  | h c s ih =>
    cases c with
    | chain rank => exact builds_chain ih
    | tail rank left => exact builds_tail ih
    | factor => exact builds_factor ih
    | signed => exact builds_signed ih
    | primary => exact builds_primary ih

theorem built_of_operand (h : operand rules rank s = .ok t s') :
    Built rules (.operand rank) s t s' :=
  builds_run rules (.operand rank) s (Call.exact_operand rank) t s' (by rwa [Call.run_operand])

theorem built_of_factor (h : factor rules s = .ok t s') : Built rules .factor s t s' :=
  builds_run rules .factor s trivial t s' h

theorem built_of_primary (h : primary rules s = .ok t s') : Built rules .primary s t s' :=
  builds_run rules .primary s trivial t s' h

/-! ## What is paid along the calls -/

theorem Calls.suffix (h : Calls rules c s c' s') : s'.tokens <:+ s.tokens := by
  cases h with
  | operand rank => exact List.suffix_refl _
  | tail hleft => exact (built_of_operand hleft).suffix
  | right left hop hfollow =>
    exact (Reader.suffix_skipSpaces _).trans (Reader.suffix_pass (mark?_of_operator? hop).1)
  | next hop hnode =>
    obtain ⟨-, right, hright, -⟩ := operation_ok.1 hnode
    exact ((built_of_operand hright).suffix.trans (Reader.suffix_skipSpaces _)).trans
      (Reader.suffix_pass (mark?_of_operator? hop).1)
  | enter hlimit => exact List.suffix_refl _
  | sign hsign => exact Reader.suffix_pass (mark?_of_sign? hsign)
  | base hsign => exact List.suffix_refl _
  | exponent hsign hbase hmark hfollow =>
    exact ((Reader.suffix_skipSpaces _).trans (Reader.suffix_pass hmark)).trans
      (built_of_primary hbase).suffix
  | group hmark => exact Reader.suffix_pass hmark
  | argument htokens hname => exact Reader.suffix_passRun_word htokens

/-- What a call begins with, and what the tokens ahead can still add to it, never become more. -/
theorem Calls.makers_le (h : Calls rules c s c' s') (hc : c.Exact) :
    c'.Exact ∧ c'.base + s'.makers ≤ c.base + s.makers := by
  have hbase := Call.base_pos hc
  have hmakers := Reader.makers_le h.suffix
  have hfresh : c'.base = 1 → c'.base + s'.makers ≤ c.base + s.makers := by omega
  cases h with
  | operand rank => exact ⟨Call.exact_operand rank, hfresh (Call.base_operand rank)⟩
  | tail hleft =>
    have hbuilt := built_of_operand hleft
    have hle := hbuilt.height_le
    rw [Call.base_operand] at hle
    exact ⟨hbuilt.exact, hle⟩
  | right left hop hfollow => exact ⟨Call.exact_operand _, hfresh (Call.base_operand _)⟩
  | next hop hnode =>
    have hbuilt := builds_operation hc hop (builds_run rules _ _) hnode
    exact ⟨hbuilt.exact, hbuilt.height_le⟩
  | enter | sign | base | exponent | group | argument => exact ⟨trivial, hfresh rfl⟩

/-- The open factors, and those that the tokens ahead can still open, never become more. -/
theorem Calls.openers_le (h : Calls rules c s c' s') :
    c.opens + s'.openers + c.slack ≤ s.openers + c'.slack := by
  have hle := Reader.openers_le h.suffix
  cases h with
  | operand rank =>
    rw [Call.slack_operand]
    exact Nat.le_of_eq (Nat.zero_add _)
  | tail hleft => simpa [Call.opens, Call.slack] using hle
  | right left hop hfollow =>
    rw [Call.slack_operand]
    simpa [Call.opens, Call.slack] using hle
  | next hop hnode => simpa [Call.opens, Call.slack] using hle
  | enter hlimit => exact Nat.le_of_eq (Nat.add_comm 1 s.openers)
  | sign hsign =>
    have hpaid := Reader.openers_pass (mark?_of_sign? hsign) (Token.opensFactor_sign _)
    simp only [Call.opens, Call.slack, Reader.openers_note]
    omega
  | base hsign => exact Nat.le_of_eq (congrArg (· + 1) (Nat.zero_add _))
  | exponent hsign hbase hmark hfollow =>
    have hpaid := Reader.openers_pass hmark rfl
    have hbefore := Reader.openers_le (built_of_primary hbase).suffix
    simp only [Call.opens, Call.slack, Reader.openers_skipSpaces]
    omega
  | group hmark =>
    have hpaid := Reader.openers_pass hmark rfl
    simp only [Call.opens, Call.slack]
    omega
  | argument htokens hname =>
    have hpaid := Reader.openers_passRun htokens hname
    simp only [Call.opens, Call.slack, Reader.openers_note]
    omega

namespace Reached

variable {n : Nat}

theorem makers_le (h : Reached rules c s n c' s') (hc : c.Exact) :
    c'.Exact ∧ c'.base + s'.makers ≤ c.base + s.makers := by
  induction h with
  | here c s => exact ⟨hc, Nat.le_refl _⟩
  | through h hreached ih =>
    obtain ⟨hc₁, hle₁⟩ := h.makers_le hc
    obtain ⟨hc', hle'⟩ := ih hc₁
    exact ⟨hc', Nat.le_trans hle' hle₁⟩

theorem openers_le (h : Reached rules c s n c' s') :
    n + s'.openers + c.slack ≤ s.openers + c'.slack := by
  induction h with
  | here c s => exact Nat.le_of_eq (by omega)
  | through h hreached ih =>
    have hle := h.openers_le
    omega

end Reached

/-! ## Too deeply nested -/

theorem Joins.le_makers {m : Nat} {q : Reader} (h : Joins rules c s m q) (hc : c.Exact) :
    m ≤ c.base + s.makers := by
  have hbase := Call.base_pos hc
  cases h with
  | operation hop hright =>
    have hle := (built_of_operand hright).height_le
    have hpaid := Reader.makers_pass (mark?_of_operator? hop).1 (Token.makesNode_operator _)
    rw [Call.base_operand, Reader.makers_skipSpaces] at hle
    simp only [Call.base] at hbase ⊢
    omega
  | sign hsign hoperand =>
    have hle := (built_of_factor hoperand).height_le
    have hpaid := Reader.makers_pass (mark?_of_sign? hsign) (Token.makesNode_sign _)
    simp only [Call.base, Reader.makers_note] at hle ⊢
    omega
  | power hsign hprimary hmark hexponent =>
    have hle := (built_of_primary hprimary).height_le
    have hle' := (built_of_factor hexponent).height_le
    have hbefore := Reader.makers_le (built_of_primary hprimary).suffix
    have hpaid := Reader.makers_pass hmark (c := '^') rfl
    simp only [Call.base, Reader.makers_skipSpaces] at hle hle' ⊢
    omega
  | call htokens hname hargument =>
    have hle := (built_of_factor hargument).height_le
    have hpaid := Reader.makers_passRun htokens hname
    simp only [Call.base, Reader.makers_note] at hle ⊢
    omega

end Grammar

open Grammar in
/-- A text is not too deeply nested if few of its tokens open factors and few make nodes. -/
theorem Expr.kind_ne_of_few {rules : Rules} {source : String} {e : ParseError}
    (hnesting : withinLimit rules.limits.nesting
      ((Token.ofText source.toList).countP Token.opensFactor + 1) = true)
    (hheight : withinLimit rules.limits.height
      ((Token.ofText source.toList).countP Token.makesNode + 1) = true)
    (h : Expr.parse rules source = .error e) : e.kind ≠ .tooDeeplyNested := by
  intro hkind
  obtain ⟨n, c, s, hreached, hrefuses⟩ := Expr.exists_refuses_of_parse h (by simp [hkind])
  rcases hrefuses.beyond_of_tooDeeplyNested hkind with ⟨rfl, hlimit⟩ | ⟨m, q, hjoins, hlimit⟩
  · have hopen : s.openFactors = 0 + n := hreached.openFactors_eq
    have hpaid : n + s.openers ≤ (Token.ofText source.toList).countP Token.opensFactor :=
      hreached.openers_le
    rw [withinLimit_mono hnesting (by omega)] at hlimit
    cases hlimit
  · obtain ⟨hc, hpaid⟩ := hreached.makers_le trivial
    have hstart : Call.base (.chain .sum) + (Reader.ofText source).makers =
        (Token.ofText source.toList).countP Token.makesNode + 1 := Nat.add_comm _ _
    have hle := hjoins.le_makers hc
    rw [withinLimit_mono hheight (by omega)] at hlimit
    cases hlimit

end Calculator
