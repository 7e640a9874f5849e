import Calculator.Proofs.Session.Resolution
import Mathlib.Data.List.Find
import Mathlib.Data.List.TakeWhile

/-!
# Scripted evaluations

An evaluation beside a script asks for the missing variables up to the first for
which the table of the script has no number. What it comes to depends only on the
values that the variables have or would get, so it is the same when some of them
have got theirs from the table before.
-/

namespace Calculator

theorem takeWhile_filter_of_imp {α : Type} {p q : α → Bool} {l : List α}
    (h : ∀ a ∈ l, q a = false → p a = true) :
    (l.filter q).takeWhile p = (l.takeWhile p).filter q := by
  induction l with
  | nil => rfl
  | cons a l ih =>
    have ih := ih fun b hb => h b (List.mem_cons_of_mem a hb)
    cases hq : q a with
    | false => simp [hq, h a List.mem_cons_self hq, ih]
    | true => cases hp : p a <;> simp [hq, hp, ih]

/-- Answers by name. -/
abbrev Table := Std.ExtTreeMap String String

namespace Table

variable (table : Table)

/-- The number that the table has for a name, if it has one. -/
def value? (name : String) : Option Float :=
  table[name]?.bind answerValue?

def grants (leaf : String × Nat) : Bool :=
  (table.value? leaf.1).isSome

/-- The missing variables before the first for which the table has no number. -/
def granted (b : Bindings) (t : Expr) : List (String × Nat) :=
  (t.missing b).takeWhile table.grants

/-- The first missing variable for which the table has no number. -/
def refused? (b : Bindings) (t : Expr) : Option (String × Nat) :=
  (t.missing b).find? fun leaf => !table.grants leaf

/-- The names that an evaluation of the tree asks for. -/
def asked (b : Bindings) (t : Expr) : List String :=
  (table.granted b t ++ (table.refused? b t).toList).map Prod.fst

/-- The bindings together with the numbers of the table for the names. -/
def bindAll (b : Bindings) : List String → Bindings
  | [] => b
  | name :: names =>
    match table.value? name with
    | some x => bindAll (b.insert name x) names
    | none => bindAll b names

/-- The bindings after an evaluation of the tree. -/
def settled (b : Bindings) (t : Expr) : Bindings :=
  table.bindAll b ((table.granted b t).map Prod.fst)

/-- Why a variable without a number has no value. -/
def refusal (leaf : String × Nat) : EvalError :=
  match table[leaf.1]? with
  | some answer => .invalidValue leaf.1 answer leaf.2
  | none => .unresolved leaf.1 (Fault.noScriptedValue leaf.1).message leaf.2

/-- What an evaluation of the tree comes to. -/
inductive Gives (b : Bindings) (t : Expr) : Except EvalError Float → Prop where
  | value {x : Float} (hnone : table.refused? b t = none)
      (hx : t.value? (table.settled b t) = some x) : Gives b t (.ok x)
  | error {leaf : String × Nat} (hleaf : table.refused? b t = some leaf) :
      Gives b t (.error (table.refusal leaf))

/-- The second bindings are the first with the numbers of the table for some more names. -/
def Fills (b b' : Bindings) : Prop :=
  ∀ name, b'[name]? = b[name]? ∨ b[name]? = none ∧ b'[name]? = table.value? name

variable {table} {b b' b'' : Bindings} {t u : Expr} {name : String} {names : List String}

/-! ## Bindings -/

theorem getElem?_bindAll (b : Bindings) (names : List String) (name : String) :
    (table.bindAll b names)[name]? =
      if name ∈ names then (table.value? name).or b[name]? else b[name]? := by
  induction names generalizing b with
  | nil => rfl
  | cons first names ih =>
    rw [bindAll]
    cases hfirst : table.value? first with
    | none =>
      simp only [ih, List.mem_cons]
      by_cases hname : name = first
      · simp [hname, hfirst]
      · simp [hname]
    | some x =>
      simp only [ih, List.mem_cons, Std.ExtTreeMap.getElem?_insert, Std.compare_eq_iff_eq]
      by_cases hname : name = first
      · simp [hname, hfirst]
      · simp [hname, Ne.symm hname]

theorem isSome_value?_of_mem_granted (h : name ∈ (table.granted b t).map Prod.fst) :
    (table.value? name).isSome = true := by
  obtain ⟨leaf, hleaf, rfl⟩ := List.mem_map.1 h
  exact List.mem_takeWhile_imp (p := table.grants) hleaf

theorem getElem?_eq_none_of_mem_granted (h : name ∈ (table.granted b t).map Prod.fst) :
    b[name]? = none := by
  have hmissing : name ∈ (t.missing b).map Prod.fst :=
    ((List.takeWhile_sublist _).map Prod.fst).subset h
  exact (Expr.mem_names_missing.1 hmissing).2

theorem getElem?_settled (b : Bindings) (t : Expr) (name : String) :
    (table.settled b t)[name]? =
      if name ∈ (table.granted b t).map Prod.fst then table.value? name else b[name]? := by
  rw [settled, getElem?_bindAll]
  by_cases hname : name ∈ (table.granted b t).map Prod.fst
  · rw [if_pos hname, if_pos hname, Option.or_of_isSome (isSome_value?_of_mem_granted hname)]
  · rw [if_neg hname, if_neg hname]

theorem getElem?_settled_of_refused?_eq_none (hnone : table.refused? b t = none)
    (hname : name ∈ t.occurrences.map Prod.fst) :
    (table.settled b t)[name]? = b[name]?.or (table.value? name) := by
  rw [getElem?_settled]
  cases hb : b[name]? with
  | some x =>
    rw [if_neg fun hmem => ?_, Option.some_or]
    rw [getElem?_eq_none_of_mem_granted hmem] at hb
    cases hb
  | none =>
    have hgranted : table.granted b t = t.missing b :=
      List.takeWhile_eq_self_iff.2 fun leaf hleaf => by
        simpa using List.find?_eq_none.1 hnone leaf hleaf
    rw [hgranted, if_pos (Expr.mem_names_missing.2 ⟨hname, hb⟩), Option.none_or]

namespace Fills

theorem refl (b : Bindings) : table.Fills b b := fun _ => .inl rfl

theorem trans (h : table.Fills b b') (h' : table.Fills b' b'') : table.Fills b b'' := by
  intro name
  rcases h name with hb' | ⟨hb, hb'⟩ <;> rcases h' name with hb'' | ⟨hnone, hb''⟩
  · exact .inl (hb''.trans hb')
  · exact .inr ⟨hb' ▸ hnone, hb''⟩
  · exact .inr ⟨hb, hb''.trans hb'⟩
  · exact .inr ⟨hb, hb''⟩

theorem settled (b : Bindings) (t : Expr) : table.Fills b (table.settled b t) := by
  intro name
  rw [getElem?_settled]
  by_cases hname : name ∈ (table.granted b t).map Prod.fst
  · exact .inr ⟨getElem?_eq_none_of_mem_granted hname, if_pos hname⟩
  · exact .inl (if_neg hname)

/-- The value that a name has or would get does not change. -/
theorem or_value? (h : table.Fills b b') (name : String) :
    b'[name]?.or (table.value? name) = b[name]?.or (table.value? name) := by
  rcases h name with hb' | ⟨hb, hb'⟩
  · rw [hb']
  · rw [hb, hb', Option.none_or, Option.or_self]

theorem isSome_of_bound (h : table.Fills b b') (hbound : b.contains name = true) :
    b'.contains name = true := by
  rcases h name with hb' | ⟨hb, -⟩
  · rw [Std.ExtTreeMap.contains_eq_isSome_getElem?, hb',
      ← Std.ExtTreeMap.contains_eq_isSome_getElem?, hbound]
  · rw [Std.ExtTreeMap.contains_eq_isSome_getElem?, hb] at hbound
    cases hbound

/-- What is missing afterwards is what was missing before, without the names that were filled. -/
theorem missing_eq (h : table.Fills b b') (t : Expr) :
    t.missing b' = (t.missing b).filter fun leaf => !b'.contains leaf.1 := by
  rw [Expr.missing, Expr.missing, ← firsts_filter fun name => !b'.contains name, Bindings.unbound,
    Bindings.unbound, List.filter_filter]
  congr 1
  refine List.filter_congr fun leaf _ => ?_
  cases hbound : b.contains leaf.1 with
  | true => rw [h.isSome_of_bound hbound]; rfl
  | false => simp

theorem grants_of_missing (h : table.Fills b b') {leaf : String × Nat} (hleaf : leaf ∈ t.missing b)
    (hbound : b'.contains leaf.1 = true) : table.grants leaf = true := by
  have hunbound : b.contains leaf.1 = false :=
    Expr.missing_names_notMem (List.mem_map_of_mem hleaf)
  rw [Std.ExtTreeMap.contains_eq_isSome_getElem?] at hbound hunbound
  rcases h leaf.1 with hb' | ⟨-, hb'⟩
  · rw [hb', hunbound] at hbound
    cases hbound
  · rw [grants, ← hb', hbound]

theorem granted_eq (h : table.Fills b b') (t : Expr) :
    table.granted b' t = (table.granted b t).filter fun leaf => !b'.contains leaf.1 := by
  rw [granted, granted, h.missing_eq, takeWhile_filter_of_imp]
  intro leaf hleaf hbound
  exact h.grants_of_missing hleaf (by simpa using hbound)

theorem refused?_eq (h : table.Fills b b') (t : Expr) :
    table.refused? b' t = table.refused? b t := by
  rw [refused?, refused?, h.missing_eq, List.find?_filter]
  refine List.find?_congr fun leaf hleaf => ?_
  cases hbound : b'.contains leaf.1 with
  | true => simp [h.grants_of_missing hleaf hbound]
  | false => simp

theorem gives {r : Except EvalError Float} (h : table.Fills b b') (hr : table.Gives b t r) :
    table.Gives b' t r := by
  cases hr with
  | value hnone hx =>
    refine .value (by rw [h.refused?_eq, hnone]) (Eq.trans ?_ hx)
    refine Expr.value?_congr fun name hname => ?_
    rw [getElem?_settled_of_refused?_eq_none hnone hname,
      getElem?_settled_of_refused?_eq_none (by rw [h.refused?_eq, hnone]) hname, h.or_value?]
  | error hleaf => exact .error (by rw [h.refused?_eq, hleaf])

end Fills

theorem Gives.unique {r r' : Except EvalError Float} (h : table.Gives b t r)
    (h' : table.Gives b t r') : r = r' := by
  cases h with
  | value hnone hx =>
    cases h' with
    | value _ hx' => rw [Option.some.inj (hx.symm.trans hx')]
    | error hleaf => rw [hnone] at hleaf; cases hleaf
  | error hleaf =>
    cases h' with
    | value hnone _ => rw [hnone] at hleaf; cases hleaf
    | error hleaf' => rw [Option.some.inj (hleaf.symm.trans hleaf')]

/-! ## Two evaluations in either order -/

theorem nodup_granted (b : Bindings) (t : Expr) : ((table.granted b t).map Prod.fst).Nodup :=
  (nodup_names_firsts _).sublist ((List.takeWhile_sublist _).map Prod.fst)

theorem contains_settled (hunbound : b[name]? = none) :
    (table.settled b t).contains name = true ↔ name ∈ (table.granted b t).map Prod.fst := by
  rw [Std.ExtTreeMap.contains_eq_isSome_getElem?, getElem?_settled]
  by_cases hname : name ∈ (table.granted b t).map Prod.fst
  · rw [if_pos hname]
    exact iff_of_true (isSome_value?_of_mem_granted hname) hname
  · rw [if_neg hname, hunbound]
    exact iff_of_false Bool.false_ne_true hname

/-- What is granted to a second tree is what would be granted to it without the first tree, less
what was granted to that. -/
theorem mem_granted_settled :
    name ∈ (table.granted (table.settled b t) u).map Prod.fst ↔
      name ∈ (table.granted b u).map Prod.fst ∧ name ∉ (table.granted b t).map Prod.fst := by
  rw [(Fills.settled b t).granted_eq u]
  constructor
  · intro h
    obtain ⟨leaf, hleaf, rfl⟩ := List.mem_map.1 h
    obtain ⟨hleaf, hfree⟩ := List.mem_filter.1 hleaf
    have hname := List.mem_map_of_mem (f := Prod.fst) hleaf
    refine ⟨hname, fun ht => ?_⟩
    rw [(contains_settled (getElem?_eq_none_of_mem_granted hname)).2 ht] at hfree
    cases hfree
  · rintro ⟨hname, ht⟩
    have hunbound := getElem?_eq_none_of_mem_granted hname
    obtain ⟨leaf, hleaf, rfl⟩ := List.mem_map.1 hname
    refine List.mem_map_of_mem (List.mem_filter.2 ⟨hleaf, ?_⟩)
    rw [Bool.not_eq_true', Bool.eq_false_iff]
    exact fun hbound => ht ((contains_settled hunbound).1 hbound)

theorem settled_comm (b : Bindings) (t u : Expr) :
    table.settled (table.settled b t) u = table.settled (table.settled b u) t := by
  refine Std.ExtTreeMap.ext_getElem? fun name => ?_
  simp only [getElem?_settled, mem_granted_settled]
  by_cases ht : name ∈ (table.granted b t).map Prod.fst <;>
    by_cases hu : name ∈ (table.granted b u).map Prod.fst <;> simp only [ht, hu] <;> simp

theorem granted_append_perm (b : Bindings) (t u : Expr) :
    ((table.granted b t).map Prod.fst ++ (table.granted (table.settled b t) u).map Prod.fst).Perm
      ((table.granted b u).map Prod.fst ++ (table.granted (table.settled b u) t).map Prod.fst) := by
  have hnodup : ∀ t u, ((table.granted b t).map Prod.fst ++
      (table.granted (table.settled b t) u).map Prod.fst).Nodup := fun t u =>
    List.nodup_append.2 ⟨nodup_granted b t, nodup_granted _ u, fun name ht other hu hname =>
      (mem_granted_settled.1 hu).2 (hname ▸ ht)⟩
  refine (List.perm_ext_iff_of_nodup (hnodup t u) (hnodup u t)).2 fun name => ?_
  simp only [List.mem_append, mem_granted_settled, or_and_left, Classical.em, and_true]
  exact or_comm

theorem asked_append_perm (b : Bindings) (t u : Expr) :
    (table.asked b t ++ table.asked (table.settled b t) u).Perm
      (table.asked b u ++ table.asked (table.settled b u) t) := by
  have hsplit : ∀ t u, (table.asked b t ++ table.asked (table.settled b t) u).Perm
      (((table.granted b t).map Prod.fst ++
          (table.granted (table.settled b t) u).map Prod.fst) ++
        ((table.refused? b t).toList.map Prod.fst ++ (table.refused? b u).toList.map Prod.fst)) := by
    intro t u
    rw [asked, asked, (Fills.settled b t).refused?_eq u, List.map_append, List.map_append,
      List.append_assoc, List.append_assoc]
    exact (List.perm_append_comm_assoc _ _ _).append_left _
  exact (hsplit t u).trans
    (((granted_append_perm b t u).append List.perm_append_comm).trans (hsplit u t).symm)

/-! ## Runs beside a script with the table -/

variable {requests : List String} {s' : Script}

theorem value?_of_answer {answer : String} {x : Float}
    (hanswer : Script.answer ⟨table, requests⟩ name = .ok answer)
    (hvalue : answerValue? answer = some x) : table.value? name = some x := by
  rw [Script.answer] at hanswer
  cases hname : table[name]? with
  | none => rw [hname] at hanswer; cases hanswer
  | some other =>
    rw [hname] at hanswer
    cases hanswer
    rw [value?, hname, Option.bind_some, hvalue]

theorem of_answers {answers : List (String × Float)}
    (h : Answers Script.resolver ⟨table, requests⟩ answers s') :
    s' = ⟨table, requests ++ answers.map Prod.fst⟩ ∧
      ∀ p ∈ answers, table.value? p.1 = some p.2 := by
  generalize hs : (⟨table, requests⟩ : Script) = s at h
  induction h generalizing requests with
  | nil s =>
    rw [← hs, List.map_nil, List.append_nil]
    exact ⟨rfl, fun p hp => nomatch hp⟩
  | @cons s s₁ s₂ name answer x answers hask hvalue _ ih =>
    subst hs
    obtain ⟨hanswer, rfl⟩ := Prod.mk.inj hask
    obtain ⟨rfl, hvalues⟩ := ih rfl
    rw [List.append_assoc]
    exact ⟨rfl, List.forall_mem_cons.2 ⟨value?_of_answer hanswer hvalue, hvalues⟩⟩

theorem of_refuses {leaf : String × Nat} {e : EvalError}
    (h : Refuses Script.resolver ⟨table, requests⟩ leaf e s') :
    s' = ⟨table, requests ++ [leaf.1]⟩ ∧ table.value? leaf.1 = none ∧ e = table.refusal leaf := by
  cases h with
  | @unresolved name column fault _ hask =>
    obtain ⟨hanswer, rfl⟩ := Prod.mk.inj hask
    rw [Script.answer] at hanswer
    rw [value?, refusal]
    cases hname : table[name]? with
    | none => rw [hname] at hanswer; cases hanswer; exact ⟨rfl, rfl, rfl⟩
    | some other => rw [hname] at hanswer; cases hanswer
  | @invalidValue name answer column _ hask hvalue =>
    obtain ⟨hanswer, rfl⟩ := Prod.mk.inj hask
    rw [Script.answer] at hanswer
    rw [value?, refusal]
    cases hname : table[name]? with
    | none => rw [hname] at hanswer; cases hanswer
    | some other => rw [hname] at hanswer; cases hanswer; exact ⟨rfl, hvalue, rfl⟩

theorem insertMany_eq_bindAll {answers : List (String × Float)}
    (h : ∀ p ∈ answers, table.value? p.1 = some p.2) (b : Bindings) :
    b.insertMany answers = table.bindAll b (answers.map Prod.fst) := by
  induction answers generalizing b with
  | nil => exact Std.ExtTreeMap.insertMany_nil
  | cons p answers ih =>
    obtain ⟨hp, h⟩ := List.forall_mem_cons.1 h
    rw [Std.ExtTreeMap.insertMany_cons, ih h, List.map_cons, bindAll, hp]

theorem grants_of_answers {answers : List (String × Float)} {leaves : List (String × Nat)}
    (h : ∀ p ∈ answers, table.value? p.1 = some p.2)
    (hnames : answers.map Prod.fst = leaves.map Prod.fst) :
    ∀ leaf ∈ leaves, table.grants leaf = true := by
  intro leaf hleaf
  have hname : leaf.1 ∈ answers.map Prod.fst := hnames ▸ List.mem_map_of_mem hleaf
  obtain ⟨p, hp, hfst⟩ := List.mem_map.1 hname
  rw [grants, ← hfst, h p hp]
  rfl

theorem find?_grants_eq_none {leaves : List (String × Nat)}
    (h : ∀ leaf ∈ leaves, table.grants leaf = true) :
    leaves.find? (fun leaf => !table.grants leaf) = none :=
  List.find?_eq_none.2 fun leaf hleaf => by simp [h leaf hleaf]

/-- The outcomes of resolving the variables of a tree, said without the run. -/
theorem of_resolved {r : Except EvalError Float}
    (h : Resolved Script.resolver t b ⟨table, requests⟩ r b' s') :
    s' = ⟨table, requests ++ table.asked b t⟩ ∧ b' = table.settled b t ∧ table.Gives b t r := by
  cases h with
  | @computed answers _ x hnames hanswers hvalue =>
    obtain ⟨rfl, hvalues⟩ := of_answers hanswers
    have hgrants := grants_of_answers hvalues hnames
    have hgranted : table.granted b t = t.missing b := List.takeWhile_eq_self_iff.2 hgrants
    have hrefused : table.refused? b t = none := find?_grants_eq_none hgrants
    have hsettled : table.settled b t = b.insertMany answers := by
      rw [insertMany_eq_bindAll hvalues, settled, hgranted, hnames]
    refine ⟨?_, hsettled.symm, .value hrefused (hsettled ▸ hvalue)⟩
    rw [asked, hgranted, hrefused, hnames, Option.toList_none, List.append_nil]
  | @stopped leaves rest leaf answers s₁ _ e hmissing hnames hanswers hrefuses =>
    obtain ⟨rfl, hvalues⟩ := of_answers hanswers
    obtain ⟨rfl, hnone, rfl⟩ := of_refuses hrefuses
    have hgrants := grants_of_answers hvalues hnames
    have hleaf : table.grants leaf = false := by
      rw [grants, hnone]
      rfl
    have hgranted : table.granted b t = leaves := by
      rw [granted, hmissing, List.takeWhile_append_of_pos hgrants, List.takeWhile_cons, hleaf,
        if_neg Bool.false_ne_true, List.append_nil]
    have hrefused : table.refused? b t = some leaf := by
      rw [refused?, hmissing, List.find?_append, find?_grants_eq_none hgrants, List.find?_cons,
        hleaf]
      rfl
    refine ⟨?_, ?_, .error hrefused⟩
    · rw [asked, hgranted, hrefused, List.map_append, ← hnames, List.append_assoc]
      rfl
    · rw [insertMany_eq_bindAll hvalues, settled, hgranted, hnames]

theorem run_value (table : Table) (t : Expr) (session : Session) (requests : List String) :
    ∃ r session',
      ((Evaluation.value Script.resolver t).run.run session).run ⟨table, requests⟩ =
        ((r, session'), ⟨table, requests ++ table.asked session.bindings t⟩) ∧
      session'.bindings = table.settled session.bindings t ∧ session'.rules = session.rules ∧
      table.Gives session.bindings t r := by
  obtain ⟨r, session', s', hrun⟩ : ∃ r session' s',
      ((Evaluation.value Script.resolver t).run.run session).run ⟨table, requests⟩ =
        ((r, session'), s') := ⟨_, _, _, rfl⟩
  obtain ⟨rfl, hbindings, hgives⟩ := of_resolved (Arrives.resolved hrun)
  have hrules : session'.rules = session.rules := by
    rw [← Evaluation.keepsRules_value Script.resolver t session ⟨table, requests⟩, hrun]
  exact ⟨r, session', hrun, hbindings, hrules, hgives⟩

end Table

end Calculator
