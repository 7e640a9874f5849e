import Calculator.CommandLine.Options
import Calculator.Proofs.Session.Independence

/-!
# Values given beforehand

A value that is given for a name before a session is the value that the same text
would give as an answer. Nothing but the request for the name tells the one from
the other.
-/

namespace Calculator

/-! ## Assignments -/

theorem parseAssignment_eq {name : String} (answer : String) (hname : name ≠ "")
    (hlower : ∀ c ∈ name.toList, c.isLower = true) :
    parseAssignment (name ++ "=" ++ answer) =
      match answerValue? answer with
      | some x => .ok (name, x)
      | none => .error (.badValue name answer) := by
  have htext : (name ++ "=" ++ answer).toList = name.toList ++ '=' :: answer.toList := by
    simp
  have hne : ∀ c ∈ name.toList, (c != '=') = true := by
    intro c hc
    have hlower := hlower c hc
    rw [bne_iff_ne]
    rintro rfl
    cases hlower
  have hgood : ¬(name == "" || !name.toList.all Char.isLower) = true := by
    have hall : name.toList.all Char.isLower = true := List.all_eq_true.2 hlower
    simpa [hall] using hname
  have htake : (name.toList ++ '=' :: answer.toList).takeWhile (· != '=') = name.toList := by
    simp [List.takeWhile_append_of_pos hne]
  have hdrop : (name.toList ++ '=' :: answer.toList).dropWhile (· != '=') =
      '=' :: answer.toList := by
    simp [List.dropWhile_append_of_pos hne]
  rw [parseAssignment, htext, htake, hdrop, String.ofList_toList]
  dsimp only
  rw [String.ofList_toList]
  exact if_neg hgood

namespace Table

variable {table : Table} {rules : Rules} {b : Bindings} {name : String} {x : Float}

/-- A variable alone gets the value of its name. -/
theorem result_var (hunbound : b[name]? = none) (column : Nat) :
    table.result rules b (.tree (.var name column)) = .ok x ↔ table.value? name = some x := by
  have hgives : table.Gives b (.var name column)
      (table.result rules b (.tree (.var name column))) :=
    givesBy_result b (.tree (.var name column))
  have hmem : name ∈ (Expr.var name column).occurrences.map Prod.fst := List.mem_singleton_self _
  constructor
  · intro h
    rw [h] at hgives
    cases hgives with
    | value hnone hx =>
      rw [Expr.value?, getElem?_settled_of_refused?_eq_none hnone hmem, hunbound] at hx
      exact hx
  · intro h
    have hmissing := Expr.missing_var_of_unbound column hunbound
    have hnone : table.refused? b (.var name column) = none := by
      rw [refused?, hmissing]
      simp [grants, h]
    refine hgives.unique (.value hnone ?_)
    rw [Expr.value?, getElem?_settled_of_refused?_eq_none hnone hmem, hunbound, h]
    rfl

/-! ## A name that has its value already -/

section Insert

variable {t : Expr} {entry : Entry}

theorem getElem?_insert_of_ne {other : String} (h : other ≠ name) :
    (b.insert name x)[other]? = b[other]? := by
  rw [Std.ExtTreeMap.getElem?_insert, if_neg fun heq => h (Std.compare_eq_iff_eq.1 heq).symm]

theorem fills_insert (hvalue : table.value? name = some x)
    (hb : b[name]? = none ∨ b[name]? = some x) : table.Fills b (b.insert name x) := by
  intro other
  by_cases hother : other = name
  · subst hother
    rw [Std.ExtTreeMap.getElem?_insert_self, hvalue]
    exact hb.elim (fun hb => .inr ⟨hb, rfl⟩) fun hb => .inl hb.symm
  · exact .inl (getElem?_insert_of_ne hother)

theorem granted_insert (hvalue : table.value? name = some x)
    (hb : b[name]? = none ∨ b[name]? = some x) (t : Expr) :
    table.granted (b.insert name x) t = (table.granted b t).filter fun leaf => leaf.1 ≠ name := by
  rw [(fills_insert hvalue hb).granted_eq t]
  refine List.filter_congr fun leaf hleaf => ?_
  have hunbound : b[leaf.1]? = none := getElem?_eq_none_of_mem_granted (List.mem_map_of_mem hleaf)
  rw [Std.ExtTreeMap.contains_eq_isSome_getElem?]
  by_cases hname : leaf.1 = name
  · simp [hname]
  · simp [getElem?_insert_of_ne hname, hname, hunbound]

/-- A name for which the table has a number is asked for if it is granted. -/
theorem mem_asked_iff (hvalue : table.value? name = some x) :
    name ∈ table.asked b t ↔ name ∈ (table.granted b t).map Prod.fst := by
  rw [asked, List.map_append, List.mem_append, or_iff_left]
  intro hmem
  obtain ⟨leaf, hleaf, rfl⟩ := List.mem_map.1 hmem
  have hrefused := List.find?_some (Option.mem_toList.1 hleaf)
  simp [grants, hvalue] at hrefused

theorem asked_insert (hvalue : table.value? name = some x)
    (hb : b[name]? = none ∨ b[name]? = some x) (t : Expr) :
    table.asked (b.insert name x) t = (table.asked b t).filter (· ≠ name) := by
  rw [asked, asked, granted_insert hvalue hb, (fills_insert hvalue hb).refused?_eq t,
    List.map_append, List.map_append, List.filter_append, List.filter_map]
  congr 1
  refine (List.filter_eq_self.2 fun other hother => ?_).symm
  obtain ⟨leaf, hleaf, rfl⟩ := List.mem_map.1 hother
  have hrefused := List.find?_some (Option.mem_toList.1 hleaf)
  rw [decide_eq_true_eq]
  intro hname
  simp [grants, hname, hvalue] at hrefused

theorem getElem?_settled_self (hvalue : table.value? name = some x) (b : Bindings) (t : Expr) :
    (table.settled b t)[name]? = if name ∈ table.asked b t then some x else b[name]? := by
  simp only [getElem?_settled, mem_asked_iff hvalue, hvalue]

theorem settled_insert (hvalue : table.value? name = some x)
    (hb : b[name]? = none ∨ b[name]? = some x) (t : Expr) :
    table.settled (b.insert name x) t = (table.settled b t).insert name x := by
  refine Std.ExtTreeMap.ext_getElem? fun other => ?_
  by_cases hother : other = name
  · subst hother
    simp [getElem?_settled_self hvalue]
  · have hmem : other ∈ (table.granted (b.insert name x) t).map Prod.fst ↔
        other ∈ (table.granted b t).map Prod.fst := by
      rw [granted_insert hvalue hb]
      simp [hother]
    simp only [getElem?_insert_of_ne hother, getElem?_settled, hmem]

theorem askedBy_insert (hvalue : table.value? name = some x)
    (hb : b[name]? = none ∨ b[name]? = some x) (entry : Entry) :
    table.askedBy rules (b.insert name x) entry =
      (table.askedBy rules b entry).filter (· ≠ name) := by
  rw [askedBy, askedBy]
  cases entry.read rules with
  | ok t => exact asked_insert hvalue hb t
  | error e => rfl

theorem settledBy_insert (hvalue : table.value? name = some x)
    (hb : b[name]? = none ∨ b[name]? = some x) (entry : Entry) :
    table.settledBy rules (b.insert name x) entry =
      (table.settledBy rules b entry).insert name x := by
  rw [settledBy, settledBy]
  cases entry.read rules with
  | ok t => exact settled_insert hvalue hb t
  | error e => rfl

theorem getElem?_settledBy_self (hvalue : table.value? name = some x) (b : Bindings)
    (entry : Entry) :
    (table.settledBy rules b entry)[name]? =
      if name ∈ table.askedBy rules b entry then some x else b[name]? := by
  rw [settledBy, askedBy]
  cases entry.read rules with
  | ok t => exact getElem?_settled_self hvalue b t
  | error e => simp

theorem getElem?_settledAll_self (hvalue : table.value? name = some x) (b : Bindings)
    (entries : List Entry) :
    (table.settledAll rules b entries)[name]? =
      if name ∈ table.askedAll rules b entries then some x else b[name]? := by
  induction entries generalizing b with
  | nil => rfl
  | cons entry entries ih =>
    rw [settledAll_cons, ih, getElem?_settledBy_self hvalue]
    simp only [askedAll, List.mem_append]
    by_cases hnow : name ∈ table.askedBy rules b entry <;> simp [hnow]

/-- What the expressions in turn do with a name that has its value already is what they do
without it, but for the requests for the name. -/
theorem all_insert (hvalue : table.value? name = some x)
    (hb : b[name]? = none ∨ b[name]? = some x) (entries : List Entry) :
    table.settledAll rules (b.insert name x) entries =
        (table.settledAll rules b entries).insert name x ∧
      table.askedAll rules (b.insert name x) entries =
        (table.askedAll rules b entries).filter (· ≠ name) := by
  induction entries generalizing b with
  | nil => exact ⟨rfl, rfl⟩
  | cons entry entries ih =>
    have hb' : (table.settledBy rules b entry)[name]? = none ∨
        (table.settledBy rules b entry)[name]? = some x := by
      rw [getElem?_settledBy_self hvalue]
      by_cases hnow : name ∈ table.askedBy rules b entry
      · exact .inr (if_pos hnow)
      · rwa [if_neg hnow]
    obtain ⟨hsettled, hasked⟩ := ih hb'
    constructor
    · rw [settledAll_cons, settledAll_cons, settledBy_insert hvalue hb, hsettled]
    · rw [askedAll, askedAll, settledBy_insert hvalue hb, askedBy_insert hvalue hb, hasked,
        List.filter_append]

end Insert

/-- A text is accepted as the value of a name beforehand if it is accepted as an answer, with the
same number. A session that has the number beforehand differs from one that gets it as an answer in
nothing but the requests for the name. -/
theorem parseAssignment_like_answer {name answer : String} (hname : name ≠ "")
    (hlower : ∀ c ∈ name.toList, c.isLower = true) {table : Table}
    (hanswer : table[name]? = some answer) :
    (∀ rules column x, parseAssignment (name ++ "=" ++ answer) = .ok (name, x) ↔
      table.result rules ∅ (.tree (.var name column)) = .ok x) ∧
    ∀ x, parseAssignment (name ++ "=" ++ answer) = .ok (name, x) →
      ∀ (rules : Rules) (bindings : Bindings) (entries : List Entry), bindings[name]? = none →
        let early := table.series rules (bindings.insert name x) entries
        let late := table.series rules bindings entries
        early.results = late.results ∧
          early.requests = late.requests.filter (· ≠ name) ∧
          (∀ other, other ≠ name → early.bindings[other]? = late.bindings[other]?) ∧
          late.bindings[name]? = if name ∈ late.requests then some x else none := by
  have hassignment : ∀ x, parseAssignment (name ++ "=" ++ answer) = .ok (name, x) ↔
      table.value? name = some x := by
    intro x
    rw [parseAssignment_eq answer hname hlower, value?, hanswer, Option.bind_some]
    cases answerValue? answer <;> simp
  constructor
  · intro rules column x
    rw [hassignment, result_var Std.ExtTreeMap.getElem?_empty]
  · intro x hx rules bindings entries hunbound
    have hvalue := (hassignment x).1 hx
    obtain ⟨hsettled, hasked⟩ :
        table.settledAll rules (bindings.insert name x) entries = _ ∧
          table.askedAll rules _ _ = _ :=
      all_insert hvalue (.inl hunbound) entries
    have hresult : table.result rules (bindings.insert name x) = table.result rules bindings :=
      funext fun entry => (fills_insert hvalue (.inl hunbound)).eq_result (givesBy_result _ entry)
    simp only [series_eq, hsettled, hasked, hresult]
    refine ⟨trivial, trivial, fun other hother => getElem?_insert_of_ne hother, ?_⟩
    rw [getElem?_settledAll_self hvalue, hunbound]

/-- The answer ` 2 ` for `r`. -/
def radiusTable : Table :=
  .ofList [("r", " 2 ")]

theorem parseAssignment_like_answer_radius :
    let early := radiusTable.series .permissive ((∅ : Bindings).insert "r" 2.0)
      [.text "r ^ r", .text "r + s"]
    let late := radiusTable.series .permissive ∅ [.text "r ^ r", .text "r + s"]
    (parseAssignment ("r" ++ "=" ++ " 2 ") = .ok ("r", 2.0) ∧
      radiusTable.result .permissive ∅ (.tree (.var "r" 1)) = .ok 2.0) ∧
      early.results = late.results ∧ early.requests = late.requests.filter (· ≠ "r") ∧
      (∀ other, other ≠ "r" → early.bindings[other]? = late.bindings[other]?) ∧
      late.bindings["r"]? = if "r" ∈ late.requests then some 2.0 else none := by
  have hname : "r" ≠ "" := by decide
  have hlower : ∀ c ∈ "r".toList, c.isLower = true := List.all_eq_true.1 (by decide)
  have hanswer : radiusTable["r"]? = some " 2 " := by decide +kernel
  have haccepted : parseAssignment ("r" ++ "=" ++ " 2 ") = .ok ("r", 2.0) := by decide +kernel
  obtain ⟨hiff, hseries⟩ := parseAssignment_like_answer hname hlower hanswer
  refine ⟨⟨haccepted, (hiff .permissive 1 2.0).1 haccepted⟩, ?_⟩
  exact hseries 2.0 haccepted .permissive ∅ _ Std.ExtTreeMap.getElem?_empty

end Table

end Calculator
