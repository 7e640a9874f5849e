import Calculator.Proofs.Grammar.Pretty
import Calculator.Proofs.Grammar.Tightening

/-!
# Reading displayed trees back

The text of a tree puts every operator with its operands in parentheses, and so
shows the tree, with one exception. The argument of a call takes the sign of a
power that follows it: where a call is raised to a power, the argument is raised
in its place. So the text reads back as the tree exactly if no call is raised.
-/

namespace Calculator

namespace Expr

def isCall : Expr → Bool
  | call _ _ _ => true
  | _ => false

/-- No call in the tree is the left side of a power. -/
def RaisesNoCall : Expr → Prop
  | number _ _ => True
  | var _ _ => True
  | unary _ operand _ => operand.RaisesNoCall
  | binary op left right _ =>
      ¬ (op = .pow ∧ left.isCall = true) ∧ left.RaisesNoCall ∧ right.RaisesNoCall
  | call _ argument _ => argument.RaisesNoCall

/-- The tree as its text shows it: where a call is raised, its argument is raised. -/
def reread : Expr → Expr
  | number value k => number value k
  | var name k => var name k
  | unary sign operand k => unary sign operand.reread k
  | binary .pow (call function argument j) right k =>
      call function (binary .pow argument.reread right.reread k) j
  | binary op left right k => binary op left.reread right.reread k
  | call function argument k => call function argument.reread k

theorem reread_eq_self {t : Expr} (h : t.RaisesNoCall) : t.reread = t := by
  induction t using reread.induct with
  | case1 value k => rfl
  | case2 name k => rfl
  | case3 sign operand k ih => rw [reread, ih h]
  | case4 function argument j right k => exact absurd ⟨rfl, rfl⟩ h.1
  | case5 op left right k hne ihl ihr => rw [reread, ihl h.2.1, ihr h.2.2]; exact hne
  | case6 function argument k ih => rw [reread, ih h]

theorem raisesNoCall_of_bare_reread {t : Expr} (h : t.reread.bare = t.bare) :
    t.RaisesNoCall := by
  induction t using reread.induct with
  | case1 value k => trivial
  | case2 name k => trivial
  | case3 sign operand k ih =>
    rw [reread, bare, bare, unary.injEq] at h
    exact ih h.2.1
  | case4 function argument j right k => cases h
  | case5 op left right k hne ihl ihr =>
    rw [reread, bare, bare, binary.injEq] at h
    · refine ⟨?_, ihl h.2.1, ihr h.2.2.1⟩
      rintro ⟨rfl, hcall⟩
      cases left with
      | call function argument j => exact hne function argument j rfl rfl
      | number | var | unary | binary => cases hcall
    · exact hne
  | case6 function argument k ih =>
    rw [reread, bare, bare, call.injEq] at h
    exact ih h.2.1

/-! ## What a text shows -/

variable {t l r : Expr} {k : Nat}

/-- The place in the grammar where the tree that the text shows is derived. -/
def shownPlace (t : Expr) : Nonterminal :=
  if t.isCall then .primary else .base

/-- What the text of the tree shows is derived from it. Few factors are nested in the derivation
if no call is raised. -/
def Shows (t : Expr) : Prop :=
  ∃ n, Derives t.shownPlace (Token.ofText t.text.toList) t.reread n ∧
    (t.RaisesNoCall → n + 2 ≤ 2 * t.height)

theorem Shows.primary (h : t.Shows) :
    ∃ n, Derives .primary (Token.ofText t.text.toList) t.reread n ∧
      (t.RaisesNoCall → n + 2 ≤ 2 * t.height) := by
  obtain ⟨n, hd, hn⟩ := h
  refine ⟨n, ?_, hn⟩
  cases hcall : t.isCall with
  | true => simpa [shownPlace, hcall] using hd
  | false => exact .base (by simpa [shownPlace, hcall] using hd)

theorem Shows.followsOperator (h : t.Shows) : FollowsOperator (Token.ofText t.text.toList) := by
  obtain ⟨n, hd, -⟩ := h.primary
  exact hd.followsOperator fun sign => hd.mark?_ne_sign (.inl rfl) sign

/-- What the text shows is shown by the text in parentheses too, wherever it stands. -/
theorem Shows.enclosed (h : t.Shows) :
    ∃ n, Derives .base (Token.ofText (enclose true t.text).toList) t.reread n ∧
      (t.RaisesNoCall → n + 1 ≤ 2 * t.height) := by
  obtain ⟨n, hd, hn⟩ := h.primary
  refine ⟨n + 1, ?_, hn⟩
  rw [Token.ofText_enclosed]
  exact .group hd.toExpression

theorem shows_unary (sign : Sign) (h : t.Shows) : (unary sign t k).Shows := by
  obtain ⟨n, hd, hn⟩ := h.primary
  refine ⟨n + 2, ?_, fun hraises => ?_⟩
  · rw [text_unary, Token.ofText_enclosed, Token.ofText_signed]
    exact .group (.term (.factor (.signed sign k (.primary hd))))
  · have := hn hraises
    simp only [height]
    omega

theorem shows_operation {rank : Rank} {op : BinaryOp} (hop : Rank.ofOp? op = some rank)
    (hl : l.Shows) (hr : r.Shows) : (binary op l r k).Shows := by
  have hreread : (binary op l r k).reread = binary op l.reread r.reread k := by
    cases op <;> cases hop <;> rfl
  have hclimb : rank.nonterminal.climb = 0 := by cases rank <;> rfl
  obtain ⟨m, hdl, hm⟩ := hl.primary
  obtain ⟨n, hdr, hn⟩ := hr.primary
  have hd := Derives.operation k hop (hdl.toOperand rank).operand hr.followsOperator
    (hdr.toOperand rank)
  refine ⟨max (m + 1) (n + 1) + rank.nonterminal.climb, ?_, fun hraises => ?_⟩
  · rw [text_binary, hreread, Token.ofText_enclosed, Token.ofText_operation]
    exact .group hd.toExpression
  · have hm := hm hraises.2.1
    have hn := hn hraises.2.2
    simp only [height]
    omega

theorem shows_pow (hl : l.Shows) (hr : r.Shows) (hcall : l.isCall = false) :
    (binary .pow l r k).Shows := by
  have hreread : (binary .pow l r k).reread = binary .pow l.reread r.reread k := by
    cases l with
    | call => cases hcall
    | number | var | unary | binary => rfl
  obtain ⟨m, hdl, hm⟩ := hl
  obtain ⟨n, hdr, hn⟩ := hr.primary
  have hplace : l.shownPlace = .base := by rw [shownPlace, hcall]; rfl
  rw [hplace] at hdl
  refine ⟨max m (n + 1) + 1, ?_, fun hraises => ?_⟩
  · rw [text_binary, hreread, Token.ofText_enclosed, Token.ofText_operation]
    exact .group (.term (.factor (.power k hdl hr.followsOperator (.primary hdr))))
  · have hm := hm hraises.2.1
    have hn := hn hraises.2.2
    simp only [height]
    omega

/-- The argument of the call is raised in its place. -/
theorem shows_pow_call (function : Function) (j : Nat) (ht : t.Shows) (hr : r.Shows) :
    (binary .pow (call function t j) r k).Shows := by
  obtain ⟨m, hdt, -⟩ := ht.enclosed
  obtain ⟨n, hdr, -⟩ := hr.primary
  refine ⟨max m (n + 1) + 1 + 1, ?_, fun hraises => absurd ⟨rfl, rfl⟩ hraises.1⟩
  rw [text_binary, Token.ofText_enclosed, Token.ofText_operation, text_call, Token.ofText_applied]
  exact .group (.term (.factor (.primary
    (.call function j (.power k hdt hr.followsOperator (.primary hdr))))))

theorem shows_call (function : Function) (h : t.Shows) : (call function t k).Shows := by
  obtain ⟨n, hd, hn⟩ := h.enclosed
  refine ⟨n + 1, ?_, fun hraises => ?_⟩
  · rw [text_call, Token.ofText_applied]
    exact .call function k (.primary (.base hd))
  · have := hn hraises
    simp only [height]
    omega

/-- By induction along `reread`, which looks two levels down where a call is raised. -/
theorem shows_of_writable (h : t.Writable) : t.Shows := by
  induction t using reread.induct with
  | case1 value k => exact ⟨0, .written_number h k, fun _ => Nat.le_refl 2⟩
  | case2 name k => exact ⟨0, .written_var h.1 h.2.1 h.2.2 k, fun _ => Nat.le_refl 2⟩
  | case3 sign operand k ih => exact shows_unary sign (ih h)
  | case4 function argument j right k ihargument ihright =>
    exact shows_pow_call function j (ihargument h.1) (ihright h.2)
  | case5 op left right k hne ihl ihr =>
    have hl := ihl h.1
    have hr := ihr h.2
    cases op with
    | add | sub | mul | div => exact shows_operation rfl hl hr
    | pow =>
      refine shows_pow hl hr ?_
      cases left with
      | call function argument j => exact absurd rfl (hne function argument j rfl)
      | number | var | unary | binary => rfl
  | case6 function argument k ih => exact shows_call function (ih h)

end Expr

/-- A tree that is not too high reads back from its text, under strict and permissive rules
alike, exactly if no call in it is raised to a power. -/
theorem parse_text_iff (strict : Bool) {t : Expr} (h : t.Writable) (hheight : t.height ≤ 64) :
    (∃ e, Expr.parse ⟨strict, .standard⟩ t.text = .ok e ∧ e.bare = t.bare) ↔ t.RaisesNoCall := by
  obtain ⟨n, hd, hn⟩ := (Expr.shows_of_writable h).primary
  constructor
  · rintro ⟨e, he, hbare⟩
    -- The bounds may refuse the text, but cannot make it show another tree.
    have hunlimited : ∃ e', Expr.parse ⟨strict, .unlimited⟩ t.text = .ok e' ∧
        e'.bare = t.reread.bare :=
      Expr.exists_parse_of_derives rfl rfl hd.toExpression
    obtain ⟨e', he', hbare'⟩ := hunlimited
    have hloose := Expr.parse_loose_of_parse
      (Rules.bounded_tighter_unlimited strict .standard) he
    rw [he'] at hloose
    cases hloose
    exact Expr.raisesNoCall_of_bare_reread (hbare'.symm.trans hbare)
  · intro hraises
    rw [Expr.reread_eq_self hraises] at hd
    have hnesting := hn hraises
    refine Expr.exists_parse_of_derives (Limits.within_nesting.2 ?_)
      (Limits.within_height.2 (by omega)) hd.toExpression
    show n + 1 ≤ 128
    omega

/-- A square root that is raised, which is displayed as `(sqrt(4) ^ 2)`. -/
def raisedRoot : Expr :=
  .binary .pow (.call .sqrt (.number (Binary64.ofBits 0x4010000000000000) 0) 0)
    (.number (Binary64.ofBits 0x4000000000000000) 0) 0

/-- The text of the raised root is read as the root of a power. -/
theorem not_parse_text_raisedRoot :
    ¬ ∃ e, Expr.parse ⟨true, .standard⟩ raisedRoot.text = .ok e ∧
      e.bare = raisedRoot.bare := by
  intro h
  have hwritable : raisedRoot.Writable :=
    ⟨Expr.writable_ofBits (by decide) 0, Expr.writable_ofBits (by decide) 0⟩
  exact ((parse_text_iff true hwritable (by decide)).1 h).1 ⟨rfl, rfl⟩

end Calculator
