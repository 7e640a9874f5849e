import Calculator.Proofs.Expr.Bare
import Calculator.Session.Variables

/-!
# Variables of a tree

The variables at the leaves of a tree, those of them that have no value yet, and
the value of a tree whose variables all have one. A tree may stand for a variable
of another tree: the value of the whole is then the value of the other tree where
the variable has the value of the first.
-/

namespace Calculator

/-- Each name with the first of its columns. -/
def firsts : List (String × Nat) → List (String × Nat)
  | [] => []
  | leaf :: leaves => leaf :: (firsts leaves).filter fun other => other.1 ≠ leaf.1

/-- The leaves whose name is not bound. -/
def Bindings.unbound (b : Bindings) (leaves : List (String × Nat)) : List (String × Nat) :=
  leaves.filter fun leaf => !b.contains leaf.1

namespace Expr

/-- The variables at the leaves from left to right, with their columns. -/
def occurrences : Expr → List (String × Nat)
  | number _ _ => []
  | var name column => [(name, column)]
  | unary _ operand _ => operand.occurrences
  | binary _ left right _ => left.occurrences ++ right.occurrences
  | call _ argument _ => argument.occurrences

/-- The variables without a value, in the order in which they first occur. -/
def missing (b : Bindings) (t : Expr) : List (String × Nat) :=
  firsts (b.unbound t.occurrences)

/-- The value of a tree, if all its variables have one. -/
def value? (b : Bindings) : Expr → Option Float
  | number value _ => some value
  | var name _ => b[name]?
  | unary sign operand _ => (operand.value? b).map sign.apply
  | binary op left right _ => do
      let x ← left.value? b
      let y ← right.value? b
      return op.apply x y
  | call function argument _ => (argument.value? b).map function.apply

/-- The tree with `u` at every leaf that is the variable `x`. -/
def substitute (x : String) (u : Expr) : Expr → Expr
  | number value column => number value column
  | var name column => if name = x then u else var name column
  | unary sign operand column => unary sign (substitute x u operand) column
  | binary op left right column =>
      binary op (substitute x u left) (substitute x u right) column
  | call function argument column => call function (substitute x u argument) column

end Expr

/-! ## First occurrences -/

theorem firsts_filter (p : String → Bool) (leaves : List (String × Nat)) :
    firsts (leaves.filter fun leaf => p leaf.1) = (firsts leaves).filter fun leaf => p leaf.1 := by
  induction leaves with
  | nil => rfl
  | cons leaf leaves ih =>
    cases hp : p leaf.1 with
    | true =>
      simp only [List.filter_cons, hp, if_true, firsts, ih, List.filter_filter]
      exact congrArg _ (List.filter_congr fun other _ => Bool.and_comm _ _)
    | false =>
      simp only [List.filter_cons, hp, Bool.false_eq_true, if_false, firsts, ih,
        List.filter_filter]
      refine List.filter_congr fun other _ => ?_
      by_cases hname : other.1 = leaf.1
      · simp [hname, hp]
      · simp [hname]

theorem mem_of_mem_firsts {leaf : String × Nat} {leaves : List (String × Nat)}
    (h : leaf ∈ firsts leaves) : leaf ∈ leaves := by
  induction leaves with
  | nil => exact h
  | cons first leaves ih =>
    rcases List.mem_cons.1 h with rfl | h
    · exact List.mem_cons_self
    · exact List.mem_cons_of_mem first (ih (List.mem_filter.1 h).1)

theorem mem_names_firsts {name : String} {leaves : List (String × Nat)} :
    name ∈ (firsts leaves).map Prod.fst ↔ name ∈ leaves.map Prod.fst := by
  induction leaves with
  | nil => rfl
  | cons leaf leaves ih =>
    simp only [firsts, List.map_cons, List.mem_cons, ← ih]
    by_cases hname : name = leaf.1
    · simp [hname]
    · simp only [hname, false_or, List.mem_map, List.mem_filter]
      constructor
      · rintro ⟨other, ⟨hmem, -⟩, rfl⟩
        exact ⟨other, hmem, rfl⟩
      · rintro ⟨other, hmem, rfl⟩
        exact ⟨other, ⟨hmem, by simpa using hname⟩, rfl⟩

theorem firsts_append (xs ys : List (String × Nat)) :
    firsts (xs ++ ys) =
      firsts xs ++ firsts (ys.filter fun leaf => !(xs.map Prod.fst).contains leaf.1) := by
  induction xs with
  | nil => exact congrArg firsts (List.filter_eq_self.2 fun _ _ => rfl).symm
  | cons x xs ih =>
    rw [List.cons_append, firsts, ih, firsts, List.filter_append, List.cons_append]
    congr 2
    rw [← firsts_filter fun name => decide (name ≠ x.1), List.filter_filter]
    congr 1
    refine List.filter_congr fun leaf _ => ?_
    by_cases hname : leaf.1 = x.1 <;> simp [hname]

/-- No name occurs twice among the first occurrences. -/
theorem nodup_names_firsts (leaves : List (String × Nat)) :
    ((firsts leaves).map Prod.fst).Nodup := by
  induction leaves with
  | nil => exact List.nodup_nil
  | cons leaf leaves ih =>
    rw [firsts, List.map_cons, List.nodup_cons]
    refine ⟨?_, ih.sublist (List.filter_sublist.map _)⟩
    intro hmem
    obtain ⟨other, hother, hname⟩ := List.mem_map.1 hmem
    simpa [hname] using (List.mem_filter.1 hother).2

/-! ## Missing variables -/

namespace Expr

variable {b : Bindings} {t l r : Expr}

theorem mem_occurrences_of_mem_missing {leaf : String × Nat} (h : leaf ∈ t.missing b) :
    leaf ∈ t.occurrences :=
  (List.mem_filter.1 (mem_of_mem_firsts h)).1

theorem missing_names_notMem {name : String} (h : name ∈ (t.missing b).map Prod.fst) :
    b.contains name = false := by
  obtain ⟨leaf, hleaf, rfl⟩ := List.mem_map.1 (mem_names_firsts.1 h)
  simpa [Bindings.unbound] using (List.mem_filter.1 hleaf).2

theorem mem_names_missing {name : String} :
    name ∈ (t.missing b).map Prod.fst ↔ name ∈ t.occurrences.map Prod.fst ∧ b[name]? = none := by
  have hunbound : ∀ name, b[name]? = none ↔ b.contains name = false := fun name => by
    rw [Std.ExtTreeMap.contains_eq_isSome_getElem?, Option.isSome_eq_false_iff,
      Option.isNone_iff_eq_none]
  rw [missing, mem_names_firsts, Bindings.unbound, hunbound]
  simp only [List.mem_map, List.mem_filter, Bool.not_eq_true']
  constructor
  · rintro ⟨leaf, ⟨hleaf, hbound⟩, rfl⟩
    exact ⟨⟨leaf, hleaf, rfl⟩, hbound⟩
  · rintro ⟨⟨leaf, hleaf, rfl⟩, hbound⟩
    exact ⟨leaf, ⟨hleaf, hbound⟩, rfl⟩

theorem missing_var_of_bound {name : String} {x : Float} (column : Nat) (h : b[name]? = some x) :
    (var name column).missing b = [] := by
  have hbound : b.contains name = true := by
    rw [Std.ExtTreeMap.contains_eq_isSome_getElem?, h]
    rfl
  simp only [missing, occurrences, Bindings.unbound, List.filter_cons, hbound]
  rfl

theorem missing_var_of_unbound {name : String} (column : Nat) (h : b[name]? = none) :
    (var name column).missing b = [(name, column)] := by
  have hunbound : b.contains name = false := by
    rw [Std.ExtTreeMap.contains_eq_isSome_getElem?, h]
    rfl
  simp only [missing, occurrences, Bindings.unbound, List.filter_cons, hunbound]
  rfl

/-- What is missing in an operation is what is missing on the left, and then what is still
missing on the right once the left side has got its values. -/
theorem missing_binary (op : BinaryOp) (column : Nat) {answers : List (String × Float)}
    (h : answers.map Prod.fst = (l.missing b).map Prod.fst) :
    (binary op l r column).missing b = l.missing b ++ r.missing (b.insertMany answers) := by
  rw [missing, occurrences, Bindings.unbound, List.filter_append, firsts_append, missing, missing]
  congr 2
  rw [List.filter_filter, Bindings.unbound]
  refine List.filter_congr fun leaf _ => ?_
  rw [Std.ExtTreeMap.contains_insertMany_list, h, Bool.not_or, Bool.and_comm]
  congr 2
  rw [Bool.eq_iff_iff, List.contains_iff_mem, List.contains_iff_mem, missing, mem_names_firsts]
  rfl

theorem prefix_missing_binary (op : BinaryOp) (column : Nat) :
    l.missing b <+: (binary op l r column).missing b := by
  rw [missing, missing, occurrences, Bindings.unbound, Bindings.unbound, List.filter_append,
    firsts_append]
  exact List.prefix_append _ _

/-! ## Values -/

/-- The value of a tree depends on the values of its variables only. -/
theorem value?_congr {b' : Bindings}
    (h : ∀ name ∈ t.occurrences.map Prod.fst, b'[name]? = b[name]?) : t.value? b' = t.value? b := by
  induction t with
  | number value column => rfl
  | var name column => exact h name (List.mem_singleton_self name)
  | unary sign operand column ih => rw [value?, value?, ih h]
  | binary op left right column ihl ihr =>
    simp only [occurrences, List.map_append, List.mem_append] at h
    rw [value?, value?, ihl fun name hname => h name (.inl hname),
      ihr fun name hname => h name (.inr hname)]
  | call function argument column ih => rw [value?, value?, ih h]

/-- Values for other names do not change the value of a tree. -/
theorem value?_insertMany {x : Float} {answers : List (String × Float)}
    (hx : t.value? b = some x)
    (hnew : ∀ name ∈ answers.map Prod.fst, b.contains name = false) :
    t.value? (b.insertMany answers) = some x := by
  induction t generalizing x with
  | number value column => exact hx
  | var name column =>
    have hbound : b.contains name = true := by
      rw [Std.ExtTreeMap.contains_eq_isSome_getElem?, show b[name]? = some x from hx]
      rfl
    have hother : (answers.map Prod.fst).contains name = false := by
      rw [Bool.eq_false_iff]
      intro hmem
      rw [hnew name (List.contains_iff_mem.1 hmem)] at hbound
      cases hbound
    exact (Std.ExtTreeMap.getElem?_insertMany_list_of_contains_eq_false hother).trans hx
  | unary sign operand column ih =>
    obtain ⟨y, hy, rfl⟩ := Option.map_eq_some_iff.1 hx
    exact Option.map_eq_some_iff.2 ⟨y, ih hy, rfl⟩
  | binary op left right column ihl ihr =>
    obtain ⟨y, hy, h⟩ := Option.bind_eq_some_iff.1 hx
    obtain ⟨z, hz, h⟩ := Option.bind_eq_some_iff.1 h
    simp only [value?, ihl hy, ihr hz]
    exact h
  | call function argument column ih =>
    obtain ⟨y, hy, rfl⟩ := Option.map_eq_some_iff.1 hx
    exact Option.map_eq_some_iff.2 ⟨y, ih hy, rfl⟩

/-- A tree has a value if all its variables have one. -/
theorem exists_value?_of_bound {b : Bindings} {t : Expr}
    (h : ∀ name ∈ t.occurrences.map Prod.fst, b.contains name = true) :
    ∃ y, t.value? b = some y := by
  induction t with
  | number value column => exact ⟨value, rfl⟩
  | var name column =>
    have hbound := h name (List.mem_singleton_self name)
    rw [Std.ExtTreeMap.contains_eq_isSome_getElem?] at hbound
    exact Option.isSome_iff_exists.1 hbound
  | unary sign operand column ih =>
    obtain ⟨y, hy⟩ := ih h
    exact ⟨sign.apply y, by rw [value?, hy, Option.map_some]⟩
  | binary op left right column ihl ihr =>
    obtain ⟨y, hy⟩ := ihl fun name hname =>
      h name (by rw [occurrences, List.map_append]; exact List.mem_append_left _ hname)
    obtain ⟨z, hz⟩ := ihr fun name hname =>
      h name (by rw [occurrences, List.map_append]; exact List.mem_append_right _ hname)
    exact ⟨op.apply y z, by simp only [value?, hy, hz]; rfl⟩
  | call function argument column ih =>
    obtain ⟨y, hy⟩ := ih h
    exact ⟨function.apply y, by rw [value?, hy, Option.map_some]⟩

/-- Columns have no part in the value of a tree. -/
theorem value?_bare (b : Bindings) (t : Expr) : t.bare.value? b = t.value? b := by
  induction t with
  | number value column => rfl
  | var name column => rfl
  | unary sign operand column ih => simp only [bare, value?, ih]
  | binary op left right column ihl ihr => simp only [bare, value?, ihl, ihr]
  | call function argument column ih => simp only [bare, value?, ih]

theorem value?_eq_of_bare_eq {t u : Expr} (h : t.bare = u.bare) (b : Bindings) :
    t.value? b = u.value? b := by
  rw [← value?_bare b t, h, value?_bare]

theorem value?_substitute {u : Expr} {b : Bindings} {v : Float} (x : String)
    (hu : u.value? b = some v) (t : Expr) :
    (substitute x u t).value? b = t.value? (b.insert x v) := by
  induction t with
  | number value column => rfl
  | var name column =>
    rw [substitute, value?, Std.ExtTreeMap.getElem?_insert]
    by_cases hname : name = x
    · rw [if_pos hname, if_pos (Std.compare_eq_iff_eq.2 hname.symm), hu]
    · rw [if_neg hname, if_neg fun h => hname (Std.compare_eq_iff_eq.1 h).symm, value?]
  | unary sign operand column ih => simp only [substitute, value?, ih]
  | binary op left right column ihl ihr => simp only [substitute, value?, ihl, ihr]
  | call function argument column ih => simp only [substitute, value?, ih]

end Expr

end Calculator
