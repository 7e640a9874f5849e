import Calculator.Proofs.Grammar.Settled
import Calculator.Proofs.Grammar.Sites
import Mathlib.Control.Monad.Basic
import Mathlib.Data.List.Forall2

/-!
# Nodes and their tokens

The nodes of a tree come in the order of the text. Every node stands on a token
of its own, and no token but spaces and parentheses is without a node. Only a
zero for a missing operand has no token; it stands where the operand is missing.
-/

namespace Calculator

namespace Expr

/-- The nodes of a tree from left to right, each with what is below it. A sign or a function
comes before its operand. -/
def nodes : Expr → List Expr
  | number value column => [number value column]
  | var name column => [var name column]
  | unary sign operand column => unary sign operand column :: operand.nodes
  | binary op left right column => left.nodes ++ binary op left right column :: right.nodes
  | call function argument column => call function argument column :: argument.nodes

/-- The node stands on the token and is named by it. -/
inductive Sits : Expr → Token × Nat → Prop where
  | number {run : List Char} {value : Float} (column : Nat) (h : Numeral.read? run = some value) :
      Sits (.number value column) (.number run, column)
  | var (run : List Char) (column : Nat) :
      Sits (.var (String.ofList run) column) (.word run, column)
  | unary (sign : Sign) (operand : Expr) (column : Nat) :
      Sits (.unary sign operand column) (.mark sign.symbol, column)
  | binary (op : BinaryOp) (left right : Expr) (column : Nat) :
      Sits (.binary op left right column) (.mark op.symbol, column)
  | call (function : Function) (argument : Expr) (column : Nat) :
      Sits (.call function argument column) (.word function.name.toList, column)

theorem Sits.column_eq {t : Expr} {site : Token × Nat} (h : t.Sits site) : t.column = site.2 := by
  cases h <;> rfl

/-- The node is a zero at a column where no number stands. -/
def isVacant (source : String) : Expr → Bool
  | number value column =>
      decide (value = 0.0) && !(source.toList[column - 1]?).any isNumberChar
  | _ => false

end Expr

namespace Grammar

open Step

variable {rules : Rules} {source : String} {s s' : Reader} {xs ys : List Expr} {t : Measured}

/-- The reader has come to its place in the text. -/
def In (source : String) (s : Reader) : Prop :=
  (Reader.ofText source).cursor.Reaches s.cursor

theorem In.getElem? (h : In source s) :
    source.toList[s.cursor.column - 1]? = s.cursor.current? := by
  obtain ⟨read, hrest, hposition⟩ := h
  have hcolumn : s.cursor.column - 1 = read.length := hposition.trans (Nat.zero_add _)
  have hsource : source.toList = read ++ s.cursor.rest := hrest
  rw [hcolumn, hsource, List.getElem?_append_right (Nat.le_refl _), Nat.sub_self,
    Cursor.current?, List.head?_eq_getElem?]

/-- The nodes for what is read from one cursor to the other. -/
structure Sited (source : String) (rules : Rules) (c c' : Cursor) (xs : List Expr) : Prop where
  column_le : c.column ≤ c'.column
  columns : ∀ x ∈ xs, c.column ≤ x.column ∧ x.column ≤ c'.column
  pairwise : xs.Pairwise fun x y => x.column ≤ y.column
  sits : ∃ read, c.sites = read ++ c'.sites ∧
    List.Forall₂ Expr.Sits (xs.filter fun x => !x.isVacant source) read
  vacant : rules.strict = true → ∀ x ∈ xs, x.isVacant source = false

namespace Sited

theorem skip {c c' : Cursor} (hreaches : c.Reaches c') (hsites : c.sites = c'.sites) :
    Sited source rules c c' [] where
  column_le := Nat.succ_le_succ hreaches.position_le
  columns := fun _ hx => absurd hx List.not_mem_nil
  pairwise := .nil
  sits := ⟨[], hsites, .nil⟩
  vacant := fun _ _ hx => absurd hx List.not_mem_nil

theorem skipSpaces (s : Reader) : Sited source rules s.cursor s.skipSpaces.cursor [] :=
  skip s.cursor.reaches_skipSpaces s.sites_skipSpaces.symm

theorem append {c c₁ c' : Cursor} (h : Sited source rules c c₁ xs)
    (h' : Sited source rules c₁ c' ys) : Sited source rules c c' (xs ++ ys) where
  column_le := Nat.le_trans h.column_le h'.column_le
  columns := by
    intro x hx
    rcases List.mem_append.1 hx with hx | hx
    · obtain ⟨hle, hle'⟩ := h.columns x hx
      exact ⟨hle, Nat.le_trans hle' h'.column_le⟩
    · obtain ⟨hle, hle'⟩ := h'.columns x hx
      exact ⟨Nat.le_trans h.column_le hle, hle'⟩
  pairwise := by
    refine List.pairwise_append.2 ⟨h.pairwise, h'.pairwise, fun x hx y hy => ?_⟩
    exact Nat.le_trans (h.columns x hx).2 (h'.columns y hy).1
  sits := by
    obtain ⟨read, hsites, hsits⟩ := h.sits
    obtain ⟨read', hsites', hsits'⟩ := h'.sits
    refine ⟨read ++ read', ?_, ?_⟩
    · rw [hsites, hsites', List.append_assoc]
    · rw [List.filter_append]
      exact List.rel_append hsits hsits'
  vacant := by
    intro hstrict x hx
    rcases List.mem_append.1 hx with hx | hx
    · exact h.vacant hstrict x hx
    · exact h'.vacant hstrict x hx

/-- A node on the next token. -/
theorem node {x : Expr} {token : Token} {c' : Cursor}
    (hreaches : s.skipSpaces.cursor.Reaches c')
    (hsites : s.cursor.sites = (token, s.nextColumn) :: c'.sites)
    (hsits : x.Sits (token, s.nextColumn)) (hvacant : x.isVacant source = false) :
    Sited source rules s.cursor c' [x] := by
  have hspaces := s.cursor.reaches_skipSpaces
  have hcolumn : x.column = s.nextColumn := hsits.column_eq
  refine ⟨Nat.succ_le_succ (hspaces.trans hreaches).position_le, ?_, List.pairwise_singleton _ _,
    ?_, ?_⟩
  · intro y hy
    rw [List.mem_singleton.1 hy, hcolumn]
    exact ⟨Nat.succ_le_succ hspaces.position_le, Nat.succ_le_succ hreaches.position_le⟩
  · refine ⟨[(token, s.nextColumn)], hsites, ?_⟩
    rw [List.filter_cons_of_pos (by simp [hvacant])]
    exact .cons hsits .nil
  · intro _ y hy
    rw [List.mem_singleton.1 hy, hvacant]

/-- A node on an operator or a sign. -/
theorem mark {x : Expr} {c : Char} (hmark : Token.mark? s.tokens = some c)
    (hnodal : (Token.mark c).isNodal = true) (hsits : x.Sits (.mark c, s.nextColumn))
    (hvacant : x.isVacant source = false) : Sited source rules s.cursor s.pass.cursor [x] :=
  node s.skipSpaces.cursor.reaches_advance (Reader.sites_mark hmark hnodal) hsits hvacant

theorem number {run : List Char} {ts : List Token} {value : Float} (hin : In source s)
    (htokens : s.tokens = .number run :: ts) (hvalue : Numeral.read? run = some value) :
    Sited source rules s.cursor (s.passRun isNumberChar).cursor
      [.number value s.nextColumn] := by
  refine node (s.skipSpaces.cursor.reaches_skipWhile _) (Reader.sites_number htokens)
    (.number _ hvalue) ?_
  have hin' : In source s.skipSpaces := hin.trans s.cursor.reaches_skipSpaces
  obtain ⟨-, c, hlook, hc⟩ := Reader.look_of_number htokens
  rw [Expr.isVacant, Reader.nextColumn, hin'.getElem?, hlook, Option.any_some, hc]
  exact Bool.and_false _

theorem word {x : Expr} {run : List Char} {ts : List Token} (htokens : s.tokens = .word run :: ts)
    (hsits : x.Sits (.word run, s.nextColumn)) (hvacant : x.isVacant source = false) :
    Sited source rules s.cursor (s.passRun Char.isLower).cursor [x] :=
  node (s.skipSpaces.cursor.reaches_skipWhile _) (Reader.sites_word htokens) hsits hvacant

/-- A missing operand stands on no token. -/
theorem missing (hin : In source s) (hstrict : rules.strict = false)
    (hlacks : LacksOperand s.tokens) :
    Sited source rules s.cursor s.skipSpaces.cursor [.number 0.0 s.nextColumn] := by
  have hvacant : (Expr.number 0.0 s.nextColumn).isVacant source = true := by
    have hin' : In source s.skipSpaces := hin.trans s.cursor.reaches_skipSpaces
    have hnumber : (s.skipSpaces.cursor.current?).any isNumberChar = false := by
      rw [lacksOperand_tokens_iff] at hlacks
      cases hlook : s.skipSpaces.cursor.current? with
      | none => rfl
      | some c =>
        have hmark := (hlacks c hlook).1
        simp only [isMarkChar, Bool.and_eq_true, Bool.not_eq_true'] at hmark
        exact hmark.1
    rw [Expr.isVacant, Reader.nextColumn, hin'.getElem?, hnumber]
    simp
  have hcolumn := Nat.succ_le_succ s.cursor.reaches_skipSpaces.position_le
  refine ⟨hcolumn, ?_, List.pairwise_singleton _ _, ?_, ?_⟩
  · intro y hy
    rw [List.mem_singleton.1 hy]
    exact ⟨hcolumn, Nat.le_refl _⟩
  · refine ⟨[], s.sites_skipSpaces.symm, ?_⟩
    rw [List.filter_cons_of_neg (by simp [hvacant])]
    exact .nil
  · intro h
    rw [hstrict] at h
    cases h

end Sited

/-! ## Calls -/

/-- The nodes that a call is given. -/
def Call.given : Call → List Expr
  | tail _ left => left.expr.nodes
  | _ => []

theorem Call.given_operand (rank : Rank) : (Call.operand rank).given = [] := by
  cases rank <;> rfl

/-- What a call reads are the nodes that it adds. -/
def Adds (source : String) (rules : Rules) (given : List Expr) (step : Step Measured)
    (s : Reader) : Prop :=
  In source s → ∀ t s', step s = .ok t s' →
    ∃ xs, t.expr.nodes = given ++ xs ∧ Sited source rules s.cursor s'.cursor xs

def AddsAt (source : String) (rules : Rules) (c : Call) (s : Reader) : Prop :=
  Adds source rules c.given (c.run rules) s

theorem AddsAt.of_calls {c c' : Call} (h : AddsAt source rules c' s')
    (hcalls : Calls rules c s c' s') (hin : In source s) {q : Reader}
    (hrun : c'.run rules s' = .ok t q) :
    ∃ xs, t.expr.nodes = c'.given ++ xs ∧ Sited source rules s'.cursor q.cursor xs :=
  h (hin.trans hcalls.reads_on.1) t q hrun

/-- An operator and its right side. -/
theorem sited_operation {operand : Step Measured} {op : BinaryOp} {left : Measured}
    (hmark : Token.mark? s.tokens = some op.symbol)
    (h : operation rules operand op s.nextColumn left s.pass = .ok t s')
    (hright : ∀ right, operand s.pass.skipSpaces = .ok right s' →
      Sited source rules s.pass.skipSpaces.cursor s'.cursor right.expr.nodes) :
    ∃ xs, t.expr.nodes = left.expr.nodes ++ xs ∧
      Sited source rules s.cursor s'.cursor xs := by
  obtain ⟨-, right, hoperand, hnode⟩ := operation_ok.1 h
  obtain ⟨-, rfl, -⟩ := binary_ok.1 hnode
  have hoperator : Sited source rules s.cursor s.pass.cursor
      [.binary op left.expr right.expr s.nextColumn] :=
    .mark hmark (by cases op <;> rfl) (.binary op _ _ _) rfl
  exact ⟨_, rfl, hoperator.append ((Sited.skipSpaces s.pass).append (hright right hoperand))⟩

theorem adds_chain {rank : Rank}
    (ih : ∀ c s', Calls rules (.chain rank) s c s' → AddsAt source rules c s') :
    Adds source rules [] (chain rules rank) s := by
  intro hin t s' h
  obtain ⟨left, s₁, hleft, htail⟩ := chain_ok.1 h
  have hcalls : Calls rules (.chain rank) s (.tail rank left) s₁ := .tail hleft
  rw [← Call.run_operand] at hleft
  obtain ⟨xs, hxs, hsited⟩ := (ih _ _ (.operand rank s)).of_calls (.operand rank s) hin hleft
  obtain ⟨ys, hys, hsited'⟩ := (ih _ _ hcalls).of_calls hcalls hin htail
  refine ⟨xs ++ ys, ?_, hsited.append hsited'⟩
  rw [hys, Call.given, hxs, Call.given_operand]
  rfl

theorem adds_tail {rank : Rank} {left : Measured}
    (ih : ∀ c s', Calls rules (.tail rank left) s c s' → AddsAt source rules c s') :
    Adds source rules left.expr.nodes (tail rules rank left) s := by
  intro hin t s' h
  cases tail_ok.1 h with
  | stop hop => exact ⟨[], (List.append_nil _).symm, .skipSpaces s⟩
  | step op node s₁ hop hnode htail =>
    have hnext : Calls rules (.tail rank left) s (.tail rank node) s₁ := .next hop hnode
    obtain ⟨xs, hxs, hsited⟩ := sited_operation (mark?_of_operator? hop).1 hnode
      fun right hright => by
        have hcalls : Calls rules (.tail rank left) s (.operand rank) s.pass.skipSpaces :=
          .right left hop (any_isOperatorChar_eq_false (operation_ok.1 hnode).1)
        rw [← Call.run_operand] at hright
        obtain ⟨xs, hxs, hsited⟩ := (ih _ _ hcalls).of_calls hcalls hin hright
        rw [Call.given_operand, List.nil_append] at hxs
        rwa [hxs]
    obtain ⟨ys, hys, hsited'⟩ := (ih _ _ hnext).of_calls hnext hin htail
    refine ⟨xs ++ ys, ?_, hsited.append hsited'⟩
    rw [hys, Call.given, hxs, List.append_assoc]

theorem adds_factor
    (ih : ∀ c s', Calls rules .factor s c s' → AddsAt source rules c s') :
    Adds source rules [] (factor rules) s := by
  intro hin t s' h
  obtain ⟨hlimit, s₁, hsigned, rfl⟩ := factor_ok.1 h
  exact ih _ _ (.enter hlimit) hin t s₁ hsigned

theorem adds_signed
    (ih : ∀ c s', Calls rules .signed s c s' → AddsAt source rules c s') :
    Adds source rules [] (signed rules) s := by
  intro hin t s' h
  cases signed_ok.1 h with
  | signed sign operand hsign hoperand hnode =>
    have hcalls : Calls rules .signed s .factor (s.pass.note (.signed sign s.nextColumn)) :=
      .sign hsign
    obtain ⟨xs, hxs, hsited⟩ := (ih _ _ hcalls).of_calls hcalls hin hoperand
    obtain ⟨-, rfl, -⟩ := unary_ok.1 hnode
    have hnode : Sited source rules s.cursor s.pass.cursor
        [.unary sign operand.expr s.nextColumn] :=
      .mark (mark?_of_sign? hsign) (by cases sign <;> rfl) (.unary sign _ _) rfl
    refine ⟨_, ?_, hnode.append hsited⟩
    rw [Expr.nodes, hxs]
    rfl
  | unsigned base s₁ hsign hbase hpower =>
    obtain ⟨xs, hxs, hsited⟩ := (ih _ _ (.base hsign)).of_calls (.base hsign) hin hbase
    rcases power_ok.1 hpower with ⟨hmark, hpower⟩ | ⟨-, rfl, rfl⟩
    · obtain ⟨ys, hys, hsited'⟩ := sited_operation hmark hpower
        fun exponent hexponent => by
          have hcalls : Calls rules .signed s .factor s₁.pass.skipSpaces :=
            .exponent hsign hbase hmark (any_isOperatorChar_eq_false (operation_ok.1 hpower).1)
          obtain ⟨ys, hys, hsited'⟩ := (ih _ _ hcalls).of_calls hcalls hin hexponent
          have hys' : exponent.expr.nodes = ys := hys
          rwa [hys']
      refine ⟨xs ++ ys, ?_, hsited.append hsited'⟩
      rw [hys, hxs]
      rfl
    · have hspaces : Sited source rules s₁.cursor s₁.skipSpaces.cursor [] := .skipSpaces s₁
      refine ⟨xs ++ [], ?_, hsited.append hspaces⟩
      rw [hxs, List.append_nil]
      rfl

theorem adds_primary
    (ih : ∀ c s', Calls rules .primary s c s' → AddsAt source rules c s') :
    Adds source rules [] (primary rules) s := by
  intro hin t s' h
  cases primary_ok.1 h with
  | group inner s₁ hmark hinner hclose =>
    have hcalls : Calls rules .primary s (.chain .sum) s.pass := .group hmark
    obtain ⟨xs, hxs, hsited⟩ := (ih _ _ hcalls).of_calls hcalls hin hinner
    have hopen : Sited source rules s.cursor s.pass.cursor [] :=
      .skip s.continues_pass.reaches (Reader.sites_skip hmark rfl)
    have hclosed : Sited source rules s₁.cursor s'.cursor [] := by
      obtain ⟨-, ⟨hmark', rfl⟩ | ⟨-, -, rfl⟩⟩ := close_ok.1 hclose
      · exact .skip s₁.continues_pass.reaches (Reader.sites_skip hmark' rfl)
      · exact .skipSpaces s₁
    obtain rfl := (close_ok.1 hclose).1
    refine ⟨[] ++ (xs ++ []), ?_, hopen.append (hsited.append hclosed)⟩
    rw [hxs, List.append_nil]
    rfl
  | number run ts value htokens hvalue => exact ⟨_, rfl, .number hin htokens hvalue⟩
  | call run ts function argument htokens hname hargument hnode =>
    have hcalls : Calls rules .primary s .factor
      ((s.passRun Char.isLower).note (.called function s.nextColumn)) := .argument htokens hname
    obtain ⟨xs, hxs, hsited⟩ := (ih _ _ hcalls).of_calls hcalls hin hargument
    obtain ⟨-, rfl, -⟩ := call_ok.1 hnode
    have hrun : run = function.name.toList := by
      rw [← Function.ofName?_eq_some_iff.1 hname, String.toList_ofList]
    subst hrun
    have hnode : Sited source rules s.cursor (s.passRun Char.isLower).cursor
        [.call function argument.expr s.nextColumn] := .word htokens (.call function _ _) rfl
    refine ⟨_, ?_, hnode.append hsited⟩
    rw [Expr.nodes, hxs]
    rfl
  | var run ts htokens hname => exact ⟨_, rfl, .word htokens (.var run _) rfl⟩
  | missing hstrict hlacks => exact ⟨_, rfl, .missing hin hstrict hlacks⟩

/-- By induction along the calls. -/
theorem adds_run (source : String) (rules : Rules) (c : Call) (s : Reader) :
    AddsAt source rules c s := by
  induction c, s using Calls.induction rules with
  | h c s ih =>
    cases c with
    | chain rank => exact adds_chain ih
    | tail rank left => exact adds_tail ih
    | factor => exact adds_factor ih
    | signed => exact adds_signed ih
    | primary => exact adds_primary ih

end Grammar

namespace Expr

variable {source : String} {t : Expr}

theorem sited_of_parse {rules : Rules} (h : Expr.parse rules source = .ok t) :
    ∃ c, c.sites = [] ∧ Grammar.Sited source rules (Reader.ofText source).cursor c t.nodes := by
  obtain ⟨m, s, hrun, hend, rfl⟩ := Expr.parse_eq_ok_iff.1 h
  obtain ⟨xs, hxs, hsited⟩ :=
    Grammar.adds_run source rules (.chain .sum) _ (Cursor.Reaches.refl _) m s hrun
  refine ⟨s.cursor, Reader.sites_eq_nil hend, ?_⟩
  rw [hxs]
  exact hsited

theorem pairwise_column {xs : List Expr} {sites : List (Token × Nat)}
    (h : List.Forall₂ Sits xs sites) (hsites : sites.Pairwise fun a b => a.2 < b.2) :
    (xs.map column).Pairwise (· < ·) := by
  have hcolumns : xs.map column = sites.map Prod.snd := by
    induction h with
    | nil => rfl
    | cons hsits _ ih =>
      rw [List.map_cons, List.map_cons, hsits.column_eq, ih (List.pairwise_cons.1 hsites).2]
  rw [hcolumns, List.pairwise_map]
  exact hsites

end Expr

/-- The nodes of a tree are the tokens of the text but for spaces and parentheses, in the same
order. Without the strict rules there is a zero besides for each missing operand. -/
theorem parse_nodes_sit (strict : Bool) {source : String} {t : Expr}
    (h : Expr.parse ⟨strict, .standard⟩ source = .ok t) :
    (strict = true →
        List.Forall₂ Expr.Sits t.nodes (Token.sites source) ∧
          (t.nodes.map Expr.column).Pairwise (· < ·)) ∧
      (strict = false →
        List.Forall₂ Expr.Sits (t.nodes.filter fun x => !x.isVacant source) (Token.sites source) ∧
          ((t.nodes.filter fun x => !x.isVacant source).map Expr.column).Pairwise (· < ·) ∧
          (t.nodes.map Expr.column).Pairwise (· ≤ ·)) := by
  obtain ⟨c, hend, hsited⟩ := Expr.sited_of_parse h
  obtain ⟨read, hread, hsits⟩ := hsited.sits
  have hsites : Token.sites source = read := by
    rw [hend, List.append_nil] at hread
    exact hread
  subst hsites
  have hincreasing := Expr.pairwise_column hsits (Token.pairwise_sites source)
  constructor
  · intro hstrict
    have hkept : t.nodes.filter (fun x => !x.isVacant source) = t.nodes := by
      refine List.filter_eq_self.2 fun x hx => ?_
      rw [hsited.vacant hstrict x hx]
      rfl
    rw [hkept] at hsits hincreasing
    exact ⟨hsits, hincreasing⟩
  · intro _
    exact ⟨hsits, hincreasing, List.pairwise_map.2 hsited.pairwise⟩

theorem parse_nodes_sit_product :
    (∃ t, Expr.parse ⟨true, .standard⟩ "2 * (x) + y" = .ok t ∧
      List.Forall₂ Expr.Sits t.nodes (Token.sites "2 * (x) + y")) ∧
    ∃ t, Expr.parse ⟨false, .standard⟩ "2 * () + y" = .ok t ∧
      t.nodes.map (Expr.isVacant "2 * () + y") = [false, false, true, false, false] ∧
      List.Forall₂ Expr.Sits (t.nodes.filter fun x => !x.isVacant "2 * () + y")
        (Token.sites "2 * () + y") := by
  have hstrict : Expr.parse ⟨true, .standard⟩ "2 * (x) + y" =
      .ok (.binary .add (.binary .mul (.number 2.0 1) (.var "x" 6) 3) (.var "y" 11) 9) := by
    decide +kernel
  have hlenient : Expr.parse ⟨false, .standard⟩ "2 * () + y" =
      .ok (.binary .add (.binary .mul (.number 2.0 1) (.number 0.0 6) 3) (.var "y" 10) 8) := by
    decide +kernel
  refine ⟨⟨_, hstrict, ((parse_nodes_sit true hstrict).1 rfl).1⟩, _, hlenient, ?_, ?_⟩
  · decide +kernel
  · exact ((parse_nodes_sit false hlenient).2 rfl).1

end Calculator
