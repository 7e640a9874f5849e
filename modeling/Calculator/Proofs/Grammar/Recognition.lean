import Calculator.Proofs.Grammar.Completeness

/-!
# The language of strict parsing

Strict parsing takes exactly the texts that the grammar derives within the two
bounds, and builds the derived tree.
-/

namespace Calculator

variable {source : String} {t : Expr}

theorem derives_of_parse {e : Expr} (h : Expr.parse .strictly source = .ok e) :
    ∃ n ≤ 128, e.height ≤ 1024 ∧ Derives .expression (Token.ofText source.toList) e n := by
  obtain ⟨m, s', hexpression, hend, rfl⟩ := Expr.parse_eq_ok_iff.1 h
  have haccepts := Grammar.sound_expression _ m s' hexpression
  obtain ⟨ts, n, hts, hd, hn⟩ := haccepts.derives
  refine ⟨n, by simpa [Reader.ofText] using hn, ?_, ?_⟩
  · rw [← haccepts.height_eq]
    exact haccepts.height_le
  · rw [hend, List.append_nil] at hts
    have htokens : (Reader.ofText source).tokens = Token.ofText source.toList := rfl
    rw [← htokens, hts]
    exact hd

theorem parse_of_derives {n : Nat} (hn : n ≤ 128) (hheight : t.height ≤ 1024)
    (h : Derives .expression (Token.ofText source.toList) t n) :
    ∃ e, Expr.parse .strictly source = .ok e ∧ e.bare = t.bare :=
  Expr.exists_parse_of_derives (Limits.within_nesting.2 hn) (Limits.within_height.2 hheight) h

/-- A text parses to a tree, up to columns, if and only if the grammar derives the tree from its
tokens within the two bounds. -/
theorem parse_strictly_iff_derives (source : String) (t : Expr) :
    (∃ e, Expr.parse .strictly source = .ok e ∧ e.bare = t.bare) ↔
      ∃ n ≤ 128, t.height ≤ 1024 ∧
        Derives .expression (Token.ofText source.toList) t n := by
  constructor
  · rintro ⟨e, h, hbare⟩
    obtain ⟨n, hn, hheight, hd⟩ := derives_of_parse h
    refine ⟨n, hn, ?_, hd.congr hbare.symm⟩
    rw [← Expr.height_eq_of_bare_eq hbare]
    exact hheight
  · rintro ⟨n, hn, hheight, hd⟩
    exact parse_of_derives hn hheight hd

/-! ## Sums of ones -/

/-- The sum of `k + 1` ones. -/
def onesText (k : Nat) : String :=
  .ofList ('1' :: (List.replicate k ['+', '1']).flatten)

def oneTree : Expr :=
  .number (literalValue ['1']) 0

def onesTree : Nat → Expr
  | 0 => oneTree
  | k + 1 => .binary .add (onesTree k) oneTree 0

theorem height_onesTree (k : Nat) : (onesTree k).height = k + 1 := by
  induction k with
  | zero => rfl
  | succ k ih => simp [onesTree, oneTree, Expr.height, ih]

theorem ofText_onesText (k : Nat) :
    Token.ofText (onesText k).toList =
      .number ['1'] :: (List.replicate k [.mark '+', .number ['1']]).flatten := by
  have hone : ∀ k, Token.ofText ('1' :: (List.replicate k ['+', '1']).flatten) =
      .number ['1'] :: Token.ofText (List.replicate k ['+', '1']).flatten := by
    intro k
    rw [Token.ofText_number rfl]
    cases k <;> rfl
  rw [onesText, String.toList_ofList, hone]
  congr 1
  induction k with
  | zero => simp [Token.ofText, Token.scan, Token.visible]
  | succ k ih =>
    simp only [List.replicate_succ, List.flatten_cons, List.cons_append, List.nil_append]
    rw [Token.ofText_mark rfl (by decide), hone, ih]

theorem isLiteral_one : IsLiteral ['1'] where
  all_numberChar := by
    intro c hc
    rw [List.mem_singleton.1 hc]
    rfl
  exists_digit := ⟨'1', List.mem_singleton_self _, rfl⟩
  count_point_le := by decide

/-- A sum of ones is derived, however long it is. -/
theorem derives_ones (k : Nat) :
    Derives .expression (Token.ofText (onesText k).toList) (onesTree k) 1 := by
  have hone : Derives .term [.number ['1']] oneTree 1 :=
    .factor (.primary (.base (.number 0 isLiteral_one)))
  rw [ofText_onesText]
  induction k with
  | zero => exact .term hone
  | succ k ih =>
    have hfollows : FollowsOperator [.number ['1']] := fun _ _ hmark => by cases hmark
    rw [List.replicate_succ', List.flatten_concat]
    exact .sum 0 (.inl rfl) ih hfollows hone

/-- The grammar does not bound the height of a tree. The sum of 1025 ones is derived, and its
tree is too high. -/
theorem not_parse_iff_derives_ones :
    ¬ ((∃ e, Expr.parse .strictly (onesText 1024) = .ok e ∧ e.bare = (onesTree 1024).bare) ↔
      ∃ n ≤ 128,
        Derives .expression (Token.ofText (onesText 1024).toList) (onesTree 1024) n) := by
  intro h
  obtain ⟨e, hparse, hbare⟩ := h.2 ⟨1, by decide, derives_ones 1024⟩
  obtain ⟨-, -, hheight, -⟩ := derives_of_parse hparse
  rw [Expr.height_eq_of_bare_eq hbare, height_onesTree] at hheight
  exact absurd hheight (by decide)

end Calculator
