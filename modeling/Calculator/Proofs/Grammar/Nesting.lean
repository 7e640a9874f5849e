import Calculator.Proofs.Grammar.Budget
import Calculator.Proofs.Grammar.Tightening

/-!
# Nesting within bounds

The bounds refuse a text for nothing but what an unbounded reading of it does:
it opens a factor too many at once, or builds too high a tree. Whatever was read
on the way to a tree is no higher than the tree, so that the tree alone has to
be within its bound.
-/

namespace Calculator

/-- A reading of the text never has more than `limit` factors open at once. -/
def NestsWithin (rules : Rules) (source : String) (limit : Nat) : Prop :=
  ∀ n c s, Grammar.Reached rules (.chain .sum) (.ofText source) n c s → n ≤ limit

namespace Grammar

open Step

variable {tight loose : Rules} {c c' : Call} {s s' q : Reader} {t : Measured} {n : Nat}

/-- What a tail reads behind a node is no lower than the node. -/
theorem height_le_of_tail {rules : Rules} {rank : Rank} {op : BinaryOp} {left node : Measured}
    (hexact : left.height = left.expr.height)
    (hop : (Token.mark? s.tokens).bind rank.operator? = some op)
    (hnode : operation rules (operand rules rank) op s.nextColumn left s.pass = .ok node s')
    (htail : tail rules rank node s' = .ok t q) : node.height ≤ t.height := by
  have hbuilt := builds_operation hexact hop (builds_run rules _ _) hnode
  exact (builds_run rules (.tail rank node) s' hbuilt.exact t q htail).base_le

section Successful

variable (h : tight.Tighter loose)
include h

theorem operand_loose_of_operand {rank : Rank} (hrun : operand tight rank s = .ok t s') :
    operand loose rank s = .ok t s' := by
  rw [← Call.run_operand] at hrun ⊢
  exact run_loose_of_run h hrun

theorem factor_loose_of_factor (hrun : factor tight s = .ok t s') :
    factor loose s = .ok t s' :=
  run_loose_of_run h (c := .factor) hrun

theorem primary_loose_of_primary (hrun : primary tight s = .ok t s') :
    primary loose s = .ok t s' :=
  run_loose_of_run h (c := .primary) hrun

theorem operation_loose_of_operation {rank : Rank} {op : BinaryOp} {column : Nat}
    {left : Measured}
    (hrun : operation tight (operand tight rank) op column left s = .ok t s') :
    operation loose (operand loose rank) op column left s = .ok t s' := by
  have hnarrows : Narrows tight loose (operation tight (operand tight rank) op column left s)
      (operation loose (operand loose rank) op column left s) := by
    refine narrows_operation h op column left fun _ => ?_
    have hoperand := narrows_run h (.operand rank) s.skipSpaces
    rwa [NarrowsAt, Call.run_operand, Call.run_operand] at hoperand
  rw [hrun] at hnarrows
  exact hnarrows.eq_of_ok

/-- A call that succeeds under tighter rules makes the same calls as under looser ones. They all
succeed under the tighter rules, with trees that are no higher. -/
theorem Calls.run_of_run (hcalls : Calls loose c s c' s') (hc : c.Exact)
    (hrun : c.run tight s = .ok t q) :
    ∃ t' q', c'.run tight s' = .ok t' q' ∧ t'.height ≤ t.height := by
  cases hcalls with
  | operand rank =>
    obtain ⟨left, s₁, hleft, htail⟩ := chain_ok.1 hrun
    have hbuilt := builds_run tight (.tail rank left) s₁ (built_of_operand hleft).exact t q htail
    exact ⟨left, s₁, by rwa [Call.run_operand], hbuilt.base_le⟩
  | tail hleft =>
    obtain ⟨left, s₁, hleft', htail⟩ := chain_ok.1 hrun
    rw [operand_loose_of_operand h hleft'] at hleft
    cases hleft
    exact ⟨t, q, htail, Nat.le_refl _⟩
  | right left hop hfollow =>
    obtain ⟨node, s₁, hnode, htail⟩ := (tail_ok_of_operator hop).1 hrun
    obtain ⟨-, right, hright, hbinary⟩ := operation_ok.1 hnode
    have hle := height_le_of_tail hc hop hnode htail
    obtain ⟨-, rfl, -⟩ := binary_ok.1 hbinary
    exact ⟨right, s₁, by rwa [Call.run_operand],
      Nat.le_trans (Nat.le_succ_of_le (Nat.le_max_right _ _)) hle⟩
  | next hop hnode =>
    obtain ⟨node, s₁, hnode', htail⟩ := (tail_ok_of_operator hop).1 hrun
    rw [operation_loose_of_operation h hnode'] at hnode
    cases hnode
    exact ⟨t, q, htail, Nat.le_refl _⟩
  | enter hlimit =>
    obtain ⟨-, s₁, hsigned, -⟩ := factor_ok.1 hrun
    exact ⟨t, s₁, hsigned, Nat.le_refl _⟩
  | sign hsign =>
    obtain ⟨operand, s₁, hoperand, hnode⟩ := (signed_ok_of_sign hsign).1 hrun
    obtain ⟨-, rfl, -⟩ := unary_ok.1 hnode
    exact ⟨operand, s₁, hoperand, Nat.le_succ _⟩
  | base hsign =>
    obtain ⟨base, s₁, hbase, hpower⟩ := (signed_ok_of_unsigned hsign).1 hrun
    refine ⟨base, s₁, hbase, ?_⟩
    rcases power_ok.1 hpower with ⟨-, hoperation⟩ | ⟨-, rfl, -⟩
    · obtain ⟨-, exponent, -, hbinary⟩ := operation_ok.1 hoperation
      obtain ⟨-, rfl, -⟩ := binary_ok.1 hbinary
      exact Nat.le_succ_of_le (Nat.le_max_left _ _)
    · exact Nat.le_refl _
  | exponent hsign hbase hmark hfollow =>
    obtain ⟨base, s₁, hbase', hpower⟩ := (signed_ok_of_unsigned hsign).1 hrun
    rw [primary_loose_of_primary h hbase'] at hbase
    cases hbase
    obtain ⟨-, exponent, hexponent, hbinary⟩ := operation_ok.1 ((power_ok_of_mark hmark).1 hpower)
    obtain ⟨-, rfl, -⟩ := binary_ok.1 hbinary
    exact ⟨exponent, q, hexponent, Nat.le_succ_of_le (Nat.le_max_right _ _)⟩
  | group hmark =>
    obtain ⟨inner, s₁, hinner, hclose⟩ := (primary_ok_of_group hmark).1 hrun
    obtain ⟨rfl, -⟩ := close_ok.1 hclose
    exact ⟨t, s₁, hinner, Nat.le_refl _⟩
  | argument htokens hname =>
    obtain ⟨argument, s₁, hargument, hnode⟩ := (primary_ok_of_call htokens hname).1 hrun
    obtain ⟨-, rfl, -⟩ := call_ok.1 hnode
    exact ⟨argument, s₁, hargument, Nat.le_succ _⟩

omit h in
/-- A call that succeeds opens no factor beyond the bound. -/
theorem Calls.within_nesting (hcalls : Calls loose c s c' s') (hrun : c.run tight s = .ok t q)
    (hopen : withinLimit tight.limits.nesting s.openFactors = true) :
    withinLimit tight.limits.nesting s'.openFactors = true := by
  rw [hcalls.reads_on.2]
  cases c with
  | factor => exact (factor_ok.1 hrun).1
  | chain | tail | signed | primary => exact hopen

/-- Whatever is reached under the looser rules by a call that succeeds under the tighter ones
succeeds under these, with a tree that is no higher, and has no factor open beyond the bound. -/
theorem Reached.run_of_run (hreached : Reached loose c s n c' s') (hc : c.Exact)
    (hrun : c.run tight s = .ok t q)
    (hopen : withinLimit tight.limits.nesting s.openFactors = true) :
    (∃ t' q', c'.run tight s' = .ok t' q' ∧ t'.height ≤ t.height) ∧
      withinLimit tight.limits.nesting s'.openFactors = true := by
  induction hreached generalizing t q with
  | here c s => exact ⟨⟨t, q, hrun, Nat.le_refl _⟩, hopen⟩
  | through hcalls hreached ih =>
    obtain ⟨t₁, q₁, hrun₁, hle₁⟩ := hcalls.run_of_run h hc hrun
    obtain ⟨⟨t', q', hrun', hle'⟩, hopen'⟩ :=
      ih (hcalls.makers_le hc).1 hrun₁ (hcalls.within_nesting hrun hopen)
    exact ⟨⟨t', q', hrun', Nat.le_trans hle' hle₁⟩, hopen'⟩

/-- A call that is made under the tighter rules is made under the looser ones. -/
theorem Calls.mono (hcalls : Calls tight c s c' s') : Calls loose c s c' s' := by
  cases hcalls with
  | operand rank => exact .operand rank s
  | tail hleft => exact .tail (operand_loose_of_operand h hleft)
  | right left hop hfollow => exact .right left hop hfollow
  | next hop hnode => exact .next hop (operation_loose_of_operation h hnode)
  | enter hlimit => exact .enter (h.nesting _ hlimit)
  | sign hsign => exact .sign hsign
  | base hsign => exact .base hsign
  | exponent hsign hbase hmark hfollow =>
    exact .exponent hsign (primary_loose_of_primary h hbase) hmark hfollow
  | group hmark => exact .group hmark
  | argument htokens hname => exact .argument htokens hname

theorem Reached.mono (hreached : Reached tight c s n c' s') : Reached loose c s n c' s' := by
  induction hreached with
  | here c s => exact .here c s
  | through hcalls hreached ih => exact .through (hcalls.mono h) ih

/-- The node that a call joins is part of the tree with which it succeeds. -/
theorem Joins.le_height {m : Nat} (hjoins : Joins tight c s m s') (hc : c.Exact)
    (hrun : c.run loose s = .ok t q) : m ≤ t.height := by
  cases hjoins with
  | operation hop hright =>
    obtain ⟨node, s₁, hnode, htail⟩ := (tail_ok_of_operator hop).1 hrun
    have hle := height_le_of_tail hc hop hnode htail
    obtain ⟨-, right', hright', hbinary⟩ := operation_ok.1 hnode
    obtain ⟨-, rfl, -⟩ := binary_ok.1 hbinary
    rw [operand_loose_of_operand h hright] at hright'
    cases hright'
    exact hle
  | sign hsign hoperand =>
    obtain ⟨operand', s₁, hoperand', hnode⟩ := (signed_ok_of_sign hsign).1 hrun
    obtain ⟨-, rfl, -⟩ := unary_ok.1 hnode
    rw [factor_loose_of_factor h hoperand] at hoperand'
    cases hoperand'
    exact Nat.le_refl _
  | power hsign hbase hmark hexponent =>
    obtain ⟨base', s₁, hbase', hpower⟩ := (signed_ok_of_unsigned hsign).1 hrun
    rw [primary_loose_of_primary h hbase] at hbase'
    cases hbase'
    obtain ⟨-, exponent', hexponent', hbinary⟩ :=
      operation_ok.1 ((power_ok_of_mark hmark).1 hpower)
    obtain ⟨-, rfl, -⟩ := binary_ok.1 hbinary
    rw [factor_loose_of_factor h hexponent] at hexponent'
    cases hexponent'
    exact Nat.le_refl _
  | call htokens hname hargument =>
    obtain ⟨argument', s₁, hargument', hnode⟩ := (primary_ok_of_call htokens hname).1 hrun
    obtain ⟨-, rfl, -⟩ := call_ok.1 hnode
    rw [factor_loose_of_factor h hargument] at hargument'
    cases hargument'
    exact Nat.le_refl _

end Successful

end Grammar

namespace Expr

open Grammar

variable {strict : Bool} {limits : Limits} {source : String} {t : Expr}

/-- A text that parses within the bounds has a tree within its bound, and is read without too
many factors open. -/
theorem within_of_parse (hone : withinLimit limits.height 1 = true)
    (h : Expr.parse ⟨strict, limits⟩ source = .ok t) :
    withinLimit limits.height t.height = true ∧
      ∀ n c s, Reached ⟨strict, .unlimited⟩ (.chain .sum) (.ofText source) n c s →
        withinLimit limits.nesting n = true := by
  obtain ⟨m, s', hrun, -, rfl⟩ := Expr.parse_eq_ok_iff.1 h
  have hbuilt := builds_run ⟨strict, limits⟩ (.chain .sum) (.ofText source) trivial m s' hrun
  refine ⟨?_, fun n c s hreached => ?_⟩
  · rw [← hbuilt.exact]
    rcases hbuilt.within with hleaf | hwithin
    · rw [hleaf]
      exact hone
    · exact hwithin
  · have hzero : withinLimit limits.nesting 0 = true := by cases limits.nesting <;> rfl
    have hopen : s.openFactors = 0 + n := hreached.openFactors_eq
    have hwithin := (hreached.run_of_run (Rules.bounded_tighter_unlimited strict limits)
      trivial hrun hzero).2
    rwa [hopen, Nat.zero_add] at hwithin

/-- A text that parses without bounds parses within them if its tree is within its bound and it
is read without too many factors open. -/
theorem parse_of_within (h : Expr.parse ⟨strict, .unlimited⟩ source = .ok t)
    (hheight : withinLimit limits.height t.height = true)
    (hnesting : ∀ n c s, Reached ⟨strict, .unlimited⟩ (.chain .sum) (.ofText source) n c s →
      withinLimit limits.nesting n = true) :
    Expr.parse ⟨strict, limits⟩ source = .ok t := by
  have htighter := Rules.bounded_tighter_unlimited strict limits
  rcases parse_narrows htighter source with hsame | ⟨e, he, hadds, -⟩
  · rw [hsame, h]
  -- Otherwise some call is refused that the unbounded reading makes as well.
  exfalso
  have hkind := Rules.eq_of_adds_bounded hadds
  obtain ⟨n, c, s, hreached, hrefuses⟩ := exists_refuses_of_parse he (by simp [hkind])
  have hreached' := hreached.mono htighter
  rcases hrefuses.beyond_of_tooDeeplyNested hkind with ⟨rfl, hlimit⟩ | ⟨k, r, hjoins, hlimit⟩
  · have hopen : s.openFactors = 0 + n := hreached.openFactors_eq
    have henter : withinLimit limits.nesting (n + 1) = true :=
      hnesting _ _ _ (hreached'.step (.enter rfl))
    rw [hopen, Nat.zero_add, henter] at hlimit
    cases hlimit
  · obtain ⟨m, s', hrun, -, rfl⟩ := Expr.parse_eq_ok_iff.1 h
    have hexact := (builds_run ⟨strict, .unlimited⟩ (.chain .sum) (.ofText source) trivial m s'
      hrun).exact
    obtain ⟨⟨t', q', hrun', hle⟩, -⟩ :=
      hreached'.run_of_run (.refl ⟨strict, .unlimited⟩) trivial hrun rfl
    have hk := hjoins.le_height htighter (hreached.makers_le trivial).1 hrun'
    rw [withinLimit_mono hheight (by omega)] at hlimit
    cases hlimit

end Expr

open Grammar in
/-- The bounds only replace results by refusals. A text with a tree keeps it exactly if the tree
is no higher than 1024 and its reading never has more than 128 factors open; an error that a text
has without the bounds does not stand before its refusal. Texts with few operators, parentheses
and functions are never refused. -/
theorem parse_limits_only_refuse (strict : Bool) (source : String) :
    (Expr.parse ⟨strict, .standard⟩ source = Expr.parse ⟨strict, .unlimited⟩ source ∨
        ∃ column, Expr.parse ⟨strict, .standard⟩ source = .error ⟨.tooDeeplyNested, column⟩) ∧
      (∀ t, Expr.parse ⟨strict, .unlimited⟩ source = .ok t →
        (Expr.parse ⟨strict, .standard⟩ source = .ok t ↔
          t.height ≤ 1024 ∧ NestsWithin ⟨strict, .unlimited⟩ source 128)) ∧
      (∀ e column, Expr.parse ⟨strict, .unlimited⟩ source = .error e →
        Expr.parse ⟨strict, .standard⟩ source = .error ⟨.tooDeeplyNested, column⟩ →
        column ≤ e.column) ∧
      ((Token.ofText source.toList).countP Token.opensFactor ≤ 127 →
        (Token.ofText source.toList).countP Token.makesNode ≤ 1023 →
        ∀ column, Expr.parse ⟨strict, .standard⟩ source ≠ .error ⟨.tooDeeplyNested, column⟩) := by
  have htighter := Rules.bounded_tighter_unlimited strict .standard
  have hnarrows := Expr.parse_narrows htighter source
  refine ⟨?_, fun t ht => ⟨fun h => ?_, fun h => ?_⟩, fun e column he h => ?_,
    fun hopen hmake column h => ?_⟩
  · rcases hnarrows with hsame | ⟨e, he, hadds, -⟩
    · exact .inl hsame
    · exact .inr ⟨e.column, by rw [he, ← Rules.eq_of_adds_bounded hadds]⟩
  · obtain ⟨hheight, hnesting⟩ := Expr.within_of_parse rfl h
    exact ⟨Limits.within_height.1 hheight, fun n c s hreached =>
      Limits.within_nesting.1 (hnesting n c s hreached)⟩
  · exact Expr.parse_of_within ht (Limits.within_height.2 h.1) fun n c s hreached =>
      Limits.within_nesting.2 (h.2 n c s hreached)
  · rcases hnarrows with hsame | ⟨e', he', -, hcolumn⟩
    · rw [hsame] at h
      exact absurd rfl (Expr.kind_ne_of_parse_unlimited h rfl)
    · rw [h] at he'
      cases he'
      exact hcolumn e he
  · exact Expr.kind_ne_of_few (Limits.within_nesting.2 (Nat.succ_le_succ hopen))
      (Limits.within_height.2 (Nat.succ_le_succ hmake)) h rfl

end Calculator
