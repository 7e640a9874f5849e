import Calculator.Proofs.Grammar.Writing

/-!
# Texts with few parentheses

A tree is written with parentheses only where the grammar needs them. It is then
derived from its text at its own place in the grammar, or, in parentheses, from
any place. So the text parses, and as that tree: operators bind and group as
they should.
-/

namespace Calculator

namespace Expr

/-- The tree is a number or a variable. -/
def isLeaf : Expr → Bool
  | number _ _ => true
  | var _ _ => true
  | _ => false

def isUnary : Expr → Bool
  | unary _ _ _ => true
  | _ => false

/-- The tree is a sum or a difference. -/
def isSum : Expr → Bool
  | binary .add _ _ _ => true
  | binary .sub _ _ _ => true
  | _ => false

/-- The tree is a product or a quotient. -/
def isProduct : Expr → Bool
  | binary .mul _ _ _ => true
  | binary .div _ _ _ => true
  | _ => false

def beginsWithSign (text : String) : Bool :=
  (text.toList.head?.bind Sign.ofChar?).isSome

/-- Whether the left side of the operator stands in parentheses. -/
def enclosesLeft : BinaryOp → Expr → Bool
  | .add, _ => false
  | .sub, _ => false
  | .mul, l => l.isSum
  | .div, l => l.isSum
  | .pow, l => !l.isLeaf

/-- Whether the right side of the operator, with its text, stands in parentheses. -/
def enclosesRight : BinaryOp → Expr → String → Bool
  | .add, r, text => r.isSum || beginsWithSign text
  | .sub, r, text => r.isSum || beginsWithSign text
  | .mul, r, _ => r.isUnary || r.isSum || r.isProduct
  | .div, r, _ => r.isUnary || r.isSum || r.isProduct
  | .pow, r, _ => r.isUnary || r.isSum || r.isProduct

/-- The text of a tree with parentheses only where they are needed. -/
def pretty : Expr → String
  | number value _ => Numeral.write value
  | var name _ => name
  | unary sign operand _ =>
      sign.symbol.toString ++ enclose (operand.isSum || operand.isProduct) operand.pretty
  | binary op left right _ =>
      enclose (enclosesLeft op left) left.pretty ++ " " ++ op.symbol.toString ++ " " ++
        enclose (enclosesRight op right right.pretty) right.pretty
  | call function argument _ =>
      function.name ++ " " ++ enclose (argument.isSum || argument.isProduct) argument.pretty

/-- The place in the grammar where the tree is derived without parentheses. -/
def place : Expr → Nonterminal
  | number _ _ => .base
  | var _ _ => .base
  | unary _ _ _ => .factor
  | binary .add _ _ _ => .expression
  | binary .sub _ _ _ => .expression
  | binary .mul _ _ _ => .term
  | binary .div _ _ _ => .term
  | binary .pow _ _ _ => .factor
  | call _ _ _ => .primary

theorem place_ne_expression {t : Expr} (h : t.isSum = false) : t.place ≠ .expression := by
  cases t with
  | binary op l r k => cases op <;> simp_all [isSum, place]
  | number | var | unary | call => simp [place]

theorem place_ne_term {t : Expr} (h : t.isProduct = false) : t.place ≠ .term := by
  cases t with
  | binary op l r k => cases op <;> simp_all [isProduct, place]
  | number | var | unary | call => simp [place]

theorem place_of_isLeaf {t : Expr} (h : t.isLeaf = true) : t.place = .base := by
  cases t with
  | number | var => rfl
  | unary | binary | call => cases h

end Expr

/-! ## Places in the grammar -/

/-- How many factors are opened on the way up from the place. -/
def Nonterminal.climb : Nonterminal → Nat
  | base => 1
  | primary => 1
  | factor => 0
  | term => 0
  | expression => 0

namespace Derives

variable {nt : Nonterminal} {ts : List Token} {t : Expr} {n : Nat}

theorem toFactor (h : Derives nt ts t n) (hterm : nt ≠ .term) (hexpression : nt ≠ .expression) :
    Derives .factor ts t (n + nt.climb) := by
  cases nt with
  | base => exact .primary (.base h)
  | primary => exact .primary h
  | factor => exact h
  | term => exact absurd rfl hterm
  | expression => exact absurd rfl hexpression

theorem toTerm (h : Derives nt ts t n) (hexpression : nt ≠ .expression) :
    Derives .term ts t (n + nt.climb) := by
  by_cases hterm : nt = .term
  · subst hterm
    exact h
  · exact .factor (h.toFactor hterm hexpression)

theorem toExpression (h : Derives nt ts t n) : Derives .expression ts t (n + nt.climb) := by
  by_cases hexpression : nt = .expression
  · subst hexpression
    exact h
  · exact .term (h.toTerm hexpression)

/-- An operand of any rank. -/
theorem toOperand (h : Derives .primary ts t n) (rank : Rank) :
    Derives rank.operandNonterminal ts t (n + 1) := by
  cases rank with
  | sum => exact .factor (.primary h)
  | product => exact .primary h

theorem followsOperator_of_factor (h : Derives .factor ts t n) (ht : t.isUnary = false) :
    FollowsOperator ts := by
  refine h.followsOperator fun sign => ?_
  cases h with
  | signed => cases ht
  | primary h => exact h.mark?_ne_sign (.inl rfl) sign
  | power _ hl _ _ =>
    rw [mark?_append hl.ne_nil]
    exact hl.mark?_ne_sign (.inr rfl) sign

end Derives

/-! ## Operands and their parentheses -/

theorem followsOperator_enclose {b : Bool} {text : String}
    (h : b = false → FollowsOperator (Token.ofText text.toList)) :
    FollowsOperator (Token.ofText (Expr.enclose b text).toList) := by
  cases b with
  | true =>
    rw [Token.ofText_enclosed]
    exact followsOperator_iff.2 fun c hc => by cases hc; decide
  | false => exact h rfl

namespace Expr

variable {t : Expr} {b : Bool}

/-- The tree is derived from its text, and few factors are nested in the derivation. -/
def Fits (t : Expr) : Prop :=
  ∃ n, Derives t.place (Token.ofText t.pretty.toList) t n ∧ n + t.place.climb < 2 * t.height

namespace Fits

theorem expression (h : t.Fits) :
    ∃ n < 2 * t.height, Derives .expression (Token.ofText t.pretty.toList) t n := by
  obtain ⟨n, hd, hn⟩ := h
  exact ⟨_, hn, hd.toExpression⟩

theorem enclosed (h : t.Fits) :
    ∃ n < 2 * t.height, Derives .base (Token.ofText (enclose true t.pretty).toList) t n := by
  obtain ⟨n, hn, hd⟩ := h.expression
  rw [Token.ofText_enclosed]
  exact ⟨n, hn, .group hd⟩

theorem base (h : t.Fits) :
    ∃ n < 2 * t.height,
      Derives .base (Token.ofText (enclose (!t.isLeaf) t.pretty).toList) t n := by
  cases hleaf : t.isLeaf with
  | false => exact h.enclosed
  | true =>
    obtain ⟨n, hd, hn⟩ := h
    rw [place_of_isLeaf hleaf] at hd
    exact ⟨n, by omega, hd⟩

theorem factor (h : t.Fits) (hterm : b = false → t.isProduct = false)
    (hexpression : b = false → t.isSum = false) :
    ∃ n ≤ 2 * t.height, Derives .factor (Token.ofText (enclose b t.pretty).toList) t n := by
  cases b with
  | true =>
    obtain ⟨n, hn, hd⟩ := h.enclosed
    exact ⟨n + 1, hn, .primary (.base hd)⟩
  | false =>
    obtain ⟨n, hd, hn⟩ := h
    exact ⟨_, Nat.le_of_lt hn,
      hd.toFactor (place_ne_term (hterm rfl)) (place_ne_expression (hexpression rfl))⟩

theorem term (h : t.Fits) (hexpression : b = false → t.isSum = false) :
    ∃ n ≤ 2 * t.height, Derives .term (Token.ofText (enclose b t.pretty).toList) t n := by
  cases b with
  | true =>
    obtain ⟨n, hn, hd⟩ := h.enclosed
    exact ⟨n + 1, hn, .factor (.primary (.base hd))⟩
  | false =>
    obtain ⟨n, hd, hn⟩ := h
    exact ⟨_, Nat.le_of_lt hn, hd.toTerm (place_ne_expression (hexpression rfl))⟩

/-- What stands behind a sign or the name of a function. -/
theorem operand (h : t.Fits) :
    ∃ n ≤ 2 * t.height,
      Derives .factor (Token.ofText (enclose (t.isSum || t.isProduct) t.pretty).toList) t n := by
  have hshape : (t.isSum || t.isProduct) = false → t.isSum = false ∧ t.isProduct = false :=
    Bool.or_eq_false_iff.1
  exact h.factor (fun hfalse => (hshape hfalse).2) fun hfalse => (hshape hfalse).1

/-- The right side of a product or of a power. -/
theorem rightFactor (h : t.Fits) (hb : b = (t.isUnary || t.isSum || t.isProduct)) :
    FollowsOperator (Token.ofText (enclose b t.pretty).toList) ∧
      ∃ n ≤ 2 * t.height, Derives .factor (Token.ofText (enclose b t.pretty).toList) t n := by
  have hshape : b = false → t.isUnary = false ∧ t.isSum = false ∧ t.isProduct = false := by
    intro hfalse
    simpa [hfalse, and_assoc] using hb.symm
  have hfactor := h.factor (fun hfalse => (hshape hfalse).2.2) fun hfalse => (hshape hfalse).2.1
  refine ⟨followsOperator_enclose fun hfalse => ?_, hfactor⟩
  obtain ⟨n, -, hd⟩ := hfactor
  subst hfalse
  exact hd.followsOperator_of_factor (hshape rfl).1

/-- The right side of a sum, whose text does not begin with a space. -/
theorem rightTerm (h : t.Fits) (hb : b = (t.isSum || beginsWithSign t.pretty))
    (hhead : t.pretty.toList.head? ≠ some ' ') :
    FollowsOperator (Token.ofText (enclose b t.pretty).toList) ∧
      ∃ n ≤ 2 * t.height, Derives .term (Token.ofText (enclose b t.pretty).toList) t n := by
  have hshape : b = false → t.isSum = false ∧ beginsWithSign t.pretty = false := by
    intro hfalse
    simpa [hfalse] using hb.symm
  refine ⟨followsOperator_enclose fun hfalse => ?_, h.term fun hfalse => (hshape hfalse).1⟩
  obtain ⟨n, hd, -⟩ := h
  -- A sign at the head may come from deep down the left side; the text alone tells.
  refine hd.followsOperator fun sign hmark => ?_
  have hsign := Token.head?_of_mark?_ofText hhead hmark
  have hnone := (hshape hfalse).2
  rw [beginsWithSign, hsign, Option.bind_some, Sign.ofChar?_eq_some_iff.2 rfl] at hnone
  cases hnone

end Fits

/-! ## The pretty text is derived -/

variable {l r : Expr} {k : Nat}

theorem fits_unary (sign : Sign) (h : t.Fits) : (unary sign t k).Fits := by
  obtain ⟨n, hn, hd⟩ := h.operand
  refine ⟨n + 1, ?_, ?_⟩
  · rw [pretty, Token.ofText_signed]
    exact .signed sign k hd
  · simp only [place, Nonterminal.climb, height]
    omega

theorem fits_call (function : Function) (h : t.Fits) : (call function t k).Fits := by
  obtain ⟨n, hn, hd⟩ := h.operand
  refine ⟨n, ?_, ?_⟩
  · rw [pretty, Token.ofText_called]
    exact .call function k hd
  · simp only [place, Nonterminal.climb, height]
    omega

theorem fits_pow (hl : l.Fits) (hr : r.Fits) : (binary .pow l r k).Fits := by
  obtain ⟨m, hm, hdl⟩ := hl.base
  obtain ⟨hfollows, n, hn, hdr⟩ := hr.rightFactor rfl
  refine ⟨max m n + 1, ?_, ?_⟩
  · rw [pretty, Token.ofText_operation]
    exact .power k hdl hfollows hdr
  · simp only [place, Nonterminal.climb, height]
    omega

theorem fits_product {op : BinaryOp} (hop : op = .mul ∨ op = .div) (hl : l.Fits) (hr : r.Fits) :
    (binary op l r k).Fits := by
  have hleft : enclosesLeft op l = false → l.isSum = false := by
    rcases hop with rfl | rfl <;> exact id
  have hright : enclosesRight op r r.pretty = (r.isUnary || r.isSum || r.isProduct) := by
    rcases hop with rfl | rfl <;> rfl
  have hplace : (binary op l r k).place = .term := by
    rcases hop with rfl | rfl <;> rfl
  obtain ⟨m, hm, hdl⟩ := hl.term hleft
  obtain ⟨hfollows, n, hn, hdr⟩ := hr.rightFactor hright
  refine ⟨max m n, ?_, ?_⟩
  · rw [hplace, pretty, Token.ofText_operation]
    exact .product k hop hdl hfollows hdr
  · rw [hplace]
    simp only [Nonterminal.climb, height]
    omega

theorem fits_sum {op : BinaryOp} (hop : op = .add ∨ op = .sub) (hl : l.Fits) (hr : r.Fits)
    (hhead : r.pretty.toList.head? ≠ some ' ') : (binary op l r k).Fits := by
  have hleft : enclosesLeft op l = false := by
    rcases hop with rfl | rfl <;> rfl
  have hright : enclosesRight op r r.pretty = (r.isSum || beginsWithSign r.pretty) := by
    rcases hop with rfl | rfl <;> rfl
  have hplace : (binary op l r k).place = .expression := by
    rcases hop with rfl | rfl <;> rfl
  obtain ⟨m, hm, hdl⟩ := hl.expression
  obtain ⟨hfollows, n, hn, hdr⟩ := hr.rightTerm hright hhead
  refine ⟨max m n, ?_, ?_⟩
  · rw [hplace, pretty, Token.ofText_operation, hleft]
    exact .sum k hop hdl hfollows hdr
  · rw [hplace]
    simp only [Nonterminal.climb, height]
    omega

theorem exists_head_pretty (h : t.Writable) :
    ∃ c, t.pretty.toList.head? = some c ∧ c ≠ ' ' := by
  induction t with
  | number value k =>
    obtain ⟨c, hc, hdigit⟩ := Numeral.exists_head_write h
    refine ⟨c, hc, ?_⟩
    rintro rfl
    cases hdigit
  | var name k =>
    obtain ⟨c, cs, hcs⟩ := List.exists_cons_of_ne_nil fun hnil =>
      h.1 (String.toList_eq_nil_iff.1 hnil)
    refine ⟨c, by rw [pretty, hcs]; rfl, ?_⟩
    rintro rfl
    cases h.2.1 ' ' (by rw [hcs]; exact List.mem_cons_self)
  | unary sign t k ih => exact ⟨sign.symbol, by simp [pretty], (Token.isMarkChar_sign sign).2⟩
  | binary op l r k ihl ihr =>
    obtain ⟨c, hc, hspace⟩ := ihl h.1
    cases hb : enclosesLeft op l with
    | true => exact ⟨'(', by simp [pretty, hb, enclose], by decide⟩
    | false => exact ⟨c, by simp [pretty, hb, enclose, hc], hspace⟩
  | call function t k ih =>
    obtain ⟨c, hc, hspace⟩ : ∃ c, function.name.toList.head? = some c ∧ c ≠ ' ' := by
      cases function <;> exact ⟨_, rfl, by decide⟩
    exact ⟨c, by simp [pretty, hc], hspace⟩

/-- By induction on the tree, with a case for each kind of operator. -/
theorem fits_of_writable (h : t.Writable) : t.Fits := by
  induction t with
  | number value k => exact ⟨0, .written_number h k, by simp [place, Nonterminal.climb, height]⟩
  | var name k =>
    exact ⟨0, .written_var h.1 h.2.1 h.2.2 k, by simp [place, Nonterminal.climb, height]⟩
  | unary sign t k ih => exact fits_unary sign (ih h)
  | call function t k ih => exact fits_call function (ih h)
  | binary op l r k ihl ihr =>
    obtain ⟨c, hc, hspace⟩ := exists_head_pretty h.2
    have hhead : r.pretty.toList.head? ≠ some ' ' := by
      rw [hc]
      exact fun heq => hspace (Option.some.inj heq)
    cases op with
    | add => exact fits_sum (.inl rfl) (ihl h.1) (ihr h.2) hhead
    | sub => exact fits_sum (.inr rfl) (ihl h.1) (ihr h.2) hhead
    | mul => exact fits_product (.inl rfl) (ihl h.1) (ihr h.2)
    | div => exact fits_product (.inr rfl) (ihl h.1) (ihr h.2)
    | pow => exact fits_pow (ihl h.1) (ihr h.2)

end Expr

/-- A tree that is not too high reads back from its pretty text, under strict and permissive
rules alike. -/
theorem parse_pretty (strict : Bool) {t : Expr} (h : t.Writable) (hheight : t.height ≤ 64) :
    ∃ e, Expr.parse ⟨strict, .standard⟩ t.pretty = .ok e ∧ e.bare = t.bare := by
  obtain ⟨n, hn, hd⟩ := (Expr.fits_of_writable h).expression
  exact Expr.exists_parse_of_derives (Limits.within_nesting.2 (by omega))
    (Limits.within_height.2 (by omega)) hd

/-- A product that begins with a sign, behind a plus. -/
def signedProduct (factor : Expr) : Expr :=
  .binary .add (.var "x" 0) (.binary .mul (.unary .minus (.var "y" 0) 0) factor 0) 0

example : (signedProduct (.var "z" 0)).pretty = "x + (-y * z)" := by decide

theorem parse_pretty_signedProduct :
    ∃ e, Expr.parse ⟨true, .standard⟩
        (signedProduct (.number (Binary64.ofBits 0x4000000000000000) 0)).pretty = .ok e ∧
      e.bare = (signedProduct (.number (Binary64.ofBits 0x4000000000000000) 0)).bare := by
  have hx : (Expr.var "x" 0).Writable := ⟨by decide, List.all_eq_true.1 (by decide), by decide⟩
  have hy : (Expr.var "y" 0).Writable := ⟨by decide, List.all_eq_true.1 (by decide), by decide⟩
  exact parse_pretty true ⟨hx, hy, Expr.writable_ofBits (by decide) 0⟩ (by decide)

end Calculator
