import Calculator.Proofs.Expr.Variables
import Calculator.Proofs.Grammar.Budget
import Calculator.Proofs.Grammar.Scanning

/-!
# What every grammar function keeps

However a grammar function ends, it leaves as many factors open as it found, and
its reader stands further on in the same text. A tree that it returns has the
height that is returned with it, and its variables are words that name no
function. Behind the tree stands nothing that the function would have read on.
-/

namespace Calculator

namespace Cursor

/-- The place in a text behind its first `n` characters. -/
def inside (source : String) (n : Nat) : Cursor :=
  ⟨source.toList.drop n, n⟩

theorem Reaches.exists_inside {source : String} {n : Nat} {c : Cursor}
    (h : (inside source n).Reaches c) (hn : n ≤ source.length) :
    ∃ m, c = inside source m ∧ n ≤ m ∧ m ≤ source.length := by
  obtain ⟨text, hrest, hposition⟩ := h
  replace hrest : source.toList.drop n = text ++ c.rest := hrest
  replace hposition : c.position = n + text.length := hposition
  refine ⟨c.position, ?_, ?_, ?_⟩
  · rw [inside, hposition, ← List.drop_drop, hrest, List.drop_left, ← hposition]
  · rw [hposition]
    exact Nat.le_add_right _ _
  · have hlength := congrArg List.length hrest
    rw [List.length_drop, List.length_append, String.length_toList] at hlength
    omega

end Cursor

namespace Reader

/-- The reader is at the end of the text, or at a character that is no space and none of
`stops`. -/
def Clear (stops : List Char) (s : Reader) : Prop :=
  ∀ c ∈ s.cursor.current?, c ≠ ' ' ∧ c ∉ stops

theorem Settled.clear {stops : List Char} {s : Reader} (h : s.Settled stops)
    (hstops : ∀ c ∈ stops, isMarkChar c = true) : s.Clear stops := by
  intro c hc
  have hlook : s.skipSpaces.cursor.current? = some c := by rwa [h.skipSpaces_eq]
  constructor
  · rintro rfl
    exact s.current?_skipSpaces_ne_space hlook
  · intro hmem
    exact h.mark_ne c hmem ((s.look_eq_iff (hstops c hmem)).1 hlook)

end Reader

theorem Rank.isMarkChar_of_mem_stops (rank : Rank) : ∀ c ∈ rank.stops, isMarkChar c = true := by
  cases rank with
  | sum => exact List.all_eq_true.1 rfl
  | product => exact List.all_eq_true.1 rfl

/-! ## Names of variables -/

/-- A word of lowercase letters that names no function. -/
structure IsVariableName (name : String) : Prop where
  ne_empty : name ≠ ""
  isLower : ∀ c ∈ name.toList, c.isLower = true
  ofName?_eq_none : Function.ofName? name = none

theorem isVariableName_of_word {s : Reader} {run : List Char} {ts : List Token}
    (htokens : s.tokens = .word run :: ts)
    (hname : Function.ofName? (String.ofList run) = none) :
    IsVariableName (String.ofList run) := by
  obtain ⟨hrun, c, hlook, hc⟩ := Reader.look_of_word htokens
  rw [Cursor.rest_eq_cons hlook, List.takeWhile_cons_of_pos hc] at hrun
  refine ⟨?_, ?_, hname⟩
  · intro hempty
    have hnil : run = [] := by rw [← String.toList_ofList (l := run), hempty, String.toList_empty]
    rw [hrun] at hnil
    cases hnil
  · rw [String.toList_ofList, hrun]
    exact Token.of_mem_cons_takeWhile hc

/-- Every variable of the tree can be written. -/
def Expr.Named (t : Expr) : Prop :=
  ∀ leaf ∈ t.occurrences, IsVariableName leaf.1

theorem Expr.named_binary {op : BinaryOp} {left right : Expr} {column : Nat} :
    (binary op left right column).Named ↔ left.Named ∧ right.Named :=
  List.forall_mem_append

namespace Grammar

open Step

variable {rules : Rules} {c c' : Call} {s s' : Reader} {t left : Measured}

/-- The tree that the call begins with has such variables. -/
def Call.Named : Call → Prop
  | tail _ left => left.expr.Named
  | _ => True

theorem Call.named_operand (rank : Rank) : (operand rank).Named := by
  cases rank <;> trivial

/-- Whatever the call returns has such variables. -/
def NamesAt (rules : Rules) (c : Call) (s : Reader) : Prop :=
  c.Named → ∀ t s', c.run rules s = .ok t s' → t.expr.Named

theorem named_operation {operand : Step Measured} {op : BinaryOp} {column : Nat}
    (hleft : left.expr.Named)
    (hright : ∀ right, operand s.skipSpaces = .ok right s' → right.expr.Named)
    (h : operation rules operand op column left s = .ok t s') : t.expr.Named := by
  obtain ⟨-, right, hoperand, hnode⟩ := operation_ok.1 h
  obtain ⟨-, rfl, -⟩ := binary_ok.1 hnode
  exact Expr.named_binary.2 ⟨hleft, hright right hoperand⟩

theorem names_chain {rank : Rank}
    (ih : ∀ c s', Calls rules (.chain rank) s c s' → NamesAt rules c s') :
    NamesAt rules (.chain rank) s := by
  intro _ t s' h
  obtain ⟨left, s₁, hleft, htail⟩ := chain_ok.1 h
  have hnamed := ih _ _ (.operand rank s) (Call.named_operand rank) left s₁
    (by rwa [Call.run_operand])
  exact ih _ _ (.tail hleft) hnamed t s' htail

theorem names_tail {rank : Rank}
    (ih : ∀ c s', Calls rules (.tail rank left) s c s' → NamesAt rules c s') :
    NamesAt rules (.tail rank left) s := by
  intro hleft t s' h
  cases tail_ok.1 h with
  | stop hop => exact hleft
  | step op node s₁ hop hnode htail =>
    have hfollow := any_isOperatorChar_eq_false (operation_ok.1 hnode).1
    have hnamed : node.expr.Named := named_operation hleft (fun right hright =>
      ih _ _ (.right left hop hfollow) (Call.named_operand rank) right s₁
        (by rwa [Call.run_operand])) hnode
    exact ih _ _ (.next hop hnode) hnamed t s' htail

theorem names_factor (ih : ∀ c s', Calls rules .factor s c s' → NamesAt rules c s') :
    NamesAt rules .factor s := by
  intro _ t s' h
  obtain ⟨hlimit, s₁, hsigned, -⟩ := factor_ok.1 h
  exact ih _ _ (.enter hlimit) trivial t s₁ hsigned

theorem names_signed (ih : ∀ c s', Calls rules .signed s c s' → NamesAt rules c s') :
    NamesAt rules .signed s := by
  intro _ t s' h
  cases signed_ok.1 h with
  | signed sign operand hsign hoperand hnode =>
    obtain ⟨-, rfl, -⟩ := unary_ok.1 hnode
    exact ih _ _ (.sign hsign) trivial operand s' hoperand
  | unsigned base s₁ hsign hbase hpower =>
    have hnamed := ih _ _ (.base hsign) trivial base s₁ hbase
    rcases power_ok.1 hpower with ⟨hmark, hoperation⟩ | ⟨-, rfl, -⟩
    · refine named_operation hnamed (fun exponent hexponent => ?_) hoperation
      have hfollow := any_isOperatorChar_eq_false (operation_ok.1 hoperation).1
      exact ih _ _ (.exponent hsign hbase hmark hfollow) trivial exponent s' hexponent
    · exact hnamed

theorem names_primary (ih : ∀ c s', Calls rules .primary s c s' → NamesAt rules c s') :
    NamesAt rules .primary s := by
  intro _ t s' h
  cases primary_ok.1 h with
  | group inner s₁ hmark hinner hclose =>
    obtain ⟨rfl, -⟩ := close_ok.1 hclose
    exact ih _ _ (.group hmark) trivial t s₁ hinner
  | number run ts value htokens hvalue => exact fun _ hleaf => absurd hleaf List.not_mem_nil
  | call run ts function argument htokens hname hargument hnode =>
    obtain ⟨-, rfl, -⟩ := call_ok.1 hnode
    exact ih _ _ (.argument htokens hname) trivial argument s' hargument
  | var run ts htokens hname =>
    intro leaf hleaf
    rw [List.mem_singleton.1 hleaf]
    exact isVariableName_of_word htokens hname
  | missing hstrict hlacks => exact fun _ hleaf => absurd hleaf List.not_mem_nil

/-- By induction along the calls. -/
theorem names_run (rules : Rules) (c : Call) (s : Reader) : NamesAt rules c s := by
  induction c, s using Calls.induction rules with
  | h c s ih =>
    cases c with
    | chain rank => exact names_chain ih
    | tail rank left => exact names_tail ih
    | factor => exact names_factor ih
    | signed => exact names_signed ih
    | primary => exact names_primary ih

/-! ## Open factors -/

/-- No call opens a factor beyond the bound. -/
theorem Calls.nests (h : Calls rules c s c' s')
    (hopen : withinLimit rules.limits.nesting s.openFactors = true) :
    withinLimit rules.limits.nesting s'.openFactors = true := by
  have hopens := h.reads_on.2
  cases h with
  | enter hlimit => exact hlimit
  | operand | tail | right | next | sign | base | exponent | group | argument =>
    rw [hopens]
    exact hopen

theorem Reached.nests {n : Nat} (h : Reached rules c s n c' s')
    (hopen : withinLimit rules.limits.nesting s.openFactors = true) :
    withinLimit rules.limits.nesting s'.openFactors = true := by
  induction h with
  | here c s => exact hopen
  | through hcalls _ ih => exact ih (hcalls.nests hopen)

/-- The factor that is closed behind a call was opened before it. -/
theorem openFactors_signed_enter (rules : Rules) (s : Reader) :
    (final (signed rules s.enter)).openFactors = s.openFactors + 1 :=
  (Call.signed.continues_run rules s.enter).openFactors

/-! ## The frame -/

/-- What a call keeps that begins in `s`, however it ends, and what it returns if it returns
anything. -/
structure Framed (source : String) (s : Reader)
    (result : EStateM.Result ParseError Reader Measured) : Prop where
  openFactors_eq : (final result).openFactors = s.openFactors
  exists_inside : ∃ n, (final result).cursor = .inside source n ∧
    s.cursor.position ≤ n ∧ n ≤ source.length
  returned : ∀ t s', result = .ok t s' →
    t.height = t.expr.height ∧ t.height ≤ 1024 ∧ t.expr.Named

theorem framed_run {strict : Bool} {source : String} {n : Nat} (hs : s.cursor = .inside source n)
    (hn : n ≤ source.length) (hexact : c.Exact) (hbase : c.base = 1) (hnamed : c.Named) :
    Framed source s (c.run ⟨strict, .standard⟩ s) := by
  have hcontinues := c.continues_run ⟨strict, .standard⟩ s
  refine ⟨hcontinues.openFactors, ?_, fun t s' h => ⟨?_, ?_, ?_⟩⟩
  · have hreaches := hcontinues.reaches
    rw [hs] at hreaches ⊢
    exact hreaches.exists_inside hn
  · exact (builds_run _ c s hexact t s' h).exact
  · rcases (builds_run _ c s hexact t s' h).within with hleaf | hwithin
    · rw [hleaf, hbase]
      decide
    · exact Limits.within_height.1 hwithin
  · exact names_run _ c s hnamed t s' h

end Grammar

open Grammar Step in
/-- Every grammar function leaves the open factors as they were and stays in the text, under
strict rules and others, with a tree and with an error. Its trees have their heights within the
bound and variables that can be written, and end where the function cannot read on. No factor is
closed that was not open, and none is opened beyond the bound. -/
theorem grammar_framed (strict : Bool) {source : String} {s : Reader} {n : Nat}
    (hs : s.cursor = .inside source n) (hn : n ≤ source.length) (hopen : s.openFactors ≤ 128) :
    let rules : Rules := ⟨strict, .standard⟩
    (Framed source s (expression rules s) ∧ Framed source s (term rules s) ∧
        Framed source s (factor rules s) ∧ Framed source s (primary rules s)) ∧
      (∀ t s', expression rules s = .ok t s' → s'.Clear ['+', '-', '*', '/', '^']) ∧
      (∀ t s', term rules s = .ok t s' → s'.Clear ['*', '/', '^']) ∧
      (∀ t s', factor rules s = .ok t s' → s'.Clear ['^']) ∧
      (∀ q : Reader, (final (signed rules q.enter)).openFactors = q.openFactors + 1) ∧
      ∀ c k c' q, Reached rules c s k c' q → q.openFactors ≤ 128 := by
  intro rules
  have hclear : ∀ rank t s', chain rules rank s = .ok t s' → s'.Clear rank.stops := by
    intro rank t s' h
    exact (settled_of_chain h).clear rank.isMarkChar_of_mem_stops
  refine ⟨⟨?_, ?_, ?_, ?_⟩, hclear .sum, hclear .product, fun t s' h => ?_, ?_, ?_⟩
  · exact framed_run (c := .chain .sum) hs hn trivial rfl trivial
  · exact framed_run (c := .chain .product) hs hn trivial rfl trivial
  · exact framed_run (c := .factor) hs hn trivial rfl trivial
  · exact framed_run (c := .primary) hs hn trivial rfl trivial
  · exact (settled_of_factor h).clear (List.all_eq_true.1 rfl)
  · exact openFactors_signed_enter rules
  · intro c k c' q hreached
    exact Limits.within_nesting.1 (hreached.nests (Limits.within_nesting.2 hopen))

/-- A reader before the parenthesis of a text, in the course of a deeper reading. -/
def Reader.midway (openFactors : Nat) : Reader :=
  { cursor := .inside "7 / (sin x ^ 2 + " 4, openFactors }

open Grammar Step in
/-- From the same place the exponent is too deep if one more factor is open. What is left out at
the end is no error under permissive rules. -/
theorem grammar_framed_midway :
    4 ≤ "7 / (sin x ^ 2 + ".length ∧ (Reader.midway 125).openFactors ≤ 128 ∧
      (∃ e s', expression ⟨false, .standard⟩ (.midway 125) = .error e s' ∧
        s'.openFactors = 125) ∧
      ∃ t s', expression ⟨false, .standard⟩ (.midway 124) = .ok t s' ∧
        t.expr.occurrences = [("x", 10)] ∧ t.height = t.expr.height ∧ t.expr.Named ∧
        s'.openFactors = 124 ∧ s'.Clear ['+', '-', '*', '/', '^'] := by
  have hlength : 4 ≤ "7 / (sin x ^ 2 + ".length := by decide
  have hdeep := grammar_framed false (s := .midway 125) rfl hlength (by decide)
  have hflat := grammar_framed false (s := .midway 124) rfl hlength (by decide)
  have hnone : ((expression ⟨false, .standard⟩).run' (.midway 125)).isNone = true := by
    decide +kernel
  have hnames : ((expression ⟨false, .standard⟩).run' (.midway 124)).map (·.expr.occurrences) =
      some [("x", 10)] := by
    decide +kernel
  delta EStateM.run' EStateM.run at hnone hnames
  refine ⟨hlength, by decide, ?_, ?_⟩
  · have hopen := hdeep.1.1.openFactors_eq
    cases h : expression ⟨false, .standard⟩ (.midway 125) with
    | ok t s' =>
      rw [h] at hnone
      cases hnone
    | error e s' =>
      rw [h] at hopen
      exact ⟨e, s', rfl, hopen⟩
  · have hopen := hflat.1.1.openFactors_eq
    cases h : expression ⟨false, .standard⟩ (.midway 124) with
    | error e s' =>
      rw [h] at hnames
      cases hnames
    | ok t s' =>
      rw [h] at hnames hopen
      obtain ⟨hheight, -, hnamed⟩ := hflat.1.1.returned t s' h
      exact ⟨t, s', rfl, Option.some.inj hnames, hheight, hnamed, hopen, hflat.2.1 t s' h⟩

end Calculator
