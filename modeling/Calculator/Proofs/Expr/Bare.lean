import Calculator.Expr

/-!
# Trees without columns

Two trees are equal up to columns if they are the same tree once every column is
forgotten.
-/

namespace Calculator.Expr

/-- The tree with all its columns set to zero. -/
def bare : Expr → Expr
  | number value _ => number value 0
  | var name _ => var name 0
  | unary sign operand _ => unary sign operand.bare 0
  | binary op left right _ => binary op left.bare right.bare 0
  | call function argument _ => call function argument.bare 0

theorem height_bare (t : Expr) : t.bare.height = t.height := by
  induction t with
  | number value column => rfl
  | var name column => rfl
  | unary sign operand column ih => simp [bare, height, ih]
  | binary op left right column ihl ihr => simp [bare, height, ihl, ihr]
  | call function argument column ih => simp [bare, height, ih]

theorem height_eq_of_bare_eq {t u : Expr} (h : t.bare = u.bare) : t.height = u.height := by
  rw [← height_bare t, h, height_bare]

theorem eq_number_of_bare {t : Expr} {value : Float} {column : Nat}
    (h : t.bare = (number value column).bare) : ∃ k, t = number value k := by
  cases t <;> simp only [bare, number.injEq, reduceCtorEq] at h
  next x k => exact ⟨k, by rw [h.1]⟩

theorem eq_var_of_bare {t : Expr} {name : String} {column : Nat}
    (h : t.bare = (var name column).bare) : ∃ k, t = var name k := by
  cases t <;> simp only [bare, var.injEq, reduceCtorEq] at h
  next x k => exact ⟨k, by rw [h.1]⟩

theorem eq_unary_of_bare {t operand : Expr} {sign : Sign} {column : Nat}
    (h : t.bare = (unary sign operand column).bare) :
    ∃ u k, t = unary sign u k ∧ u.bare = operand.bare := by
  cases t <;> simp only [bare, unary.injEq, reduceCtorEq] at h
  next s u k => exact ⟨u, k, by rw [h.1], h.2.1⟩

theorem eq_binary_of_bare {t left right : Expr} {op : BinaryOp} {column : Nat}
    (h : t.bare = (binary op left right column).bare) :
    ∃ l r k, t = binary op l r k ∧ l.bare = left.bare ∧ r.bare = right.bare := by
  cases t <;> simp only [bare, binary.injEq, reduceCtorEq] at h
  next o l r k => exact ⟨l, r, k, by rw [h.1], h.2.1, h.2.2.1⟩

theorem eq_call_of_bare {t argument : Expr} {function : Function} {column : Nat}
    (h : t.bare = (call function argument column).bare) :
    ∃ u k, t = call function u k ∧ u.bare = argument.bare := by
  cases t <;> simp only [bare, call.injEq, reduceCtorEq] at h
  next f u k => exact ⟨u, k, by rw [h.1], h.2.1⟩

end Calculator.Expr
