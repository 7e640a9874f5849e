import Calculator.Proofs.Expr.Bare
import Calculator.Proofs.Grammar.Writing

/-!
# Texts that show their trees

The text of a tree has its tokens in an order that shows where the tree ends: the tokens of a tree
are never the beginning of the tokens of another one. So the text determines the tree but for its
columns, whatever the height, and also where a parser would read another tree.
-/

namespace Calculator

theorem Sign.eq_of_symbol_eq {sign sign' : Sign} (h : sign.symbol = sign'.symbol) :
    sign = sign' :=
  Option.some.inj ((ofChar?_eq_some_iff.2 rfl).symm.trans (ofChar?_eq_some_iff.2 h))

theorem BinaryOp.eq_of_symbol_eq {op op' : BinaryOp} (h : op.symbol = op'.symbol) : op = op' :=
  Option.some.inj ((ofChar?_eq_some_iff.2 rfl).symm.trans (ofChar?_eq_some_iff.2 h))

theorem Function.eq_of_name_eq {function function' : Function}
    (h : function.name = function'.name) : function = function' :=
  Option.some.inj ((ofName?_eq_some_iff.2 rfl).symm.trans (ofName?_eq_some_iff.2 h))

namespace Expr

open Token

/-- The tokens of the text of a tree. -/
def tokens : Expr → List Token
  | number value _ => [.number (Numeral.write value).toList]
  | var name _ => [.word name.toList]
  | unary sign operand _ => .mark '(' :: .mark sign.symbol :: (operand.tokens ++ [.mark ')'])
  | binary op left right _ =>
      .mark '(' :: (left.tokens ++ .mark op.symbol :: (right.tokens ++ [.mark ')']))
  | call function argument _ =>
      .word function.name.toList :: .mark '(' :: (argument.tokens ++ [.mark ')'])

variable {t u : Expr} {ts us : List Token}

theorem ofText_text (h : t.Writable) : ofText t.text.toList = t.tokens := by
  induction t with
  | number value k => exact Numeral.ofText_write h
  | var name k => exact ofText_variable h.1 h.2.1
  | unary sign operand k ih =>
    rw [text_unary, ofText_enclosed, ofText_signed, ih h]
    rfl
  | binary op left right k ihl ihr =>
    rw [text_binary, ofText_enclosed, ofText_operation, ihl h.1, ihr h.2, tokens]
    simp only [List.cons_append, List.append_assoc]
  | call function argument k ih =>
    rw [text_call, ofText_applied, ofText_enclosed, ih h]
    rfl

/-- The columns are not shown. -/
theorem text_bare (t : Expr) : t.bare.text = t.text := by
  induction t with
  | number value k => rfl
  | var name k => rfl
  | unary sign operand k ih => rw [bare, text, ih, text]
  | binary op left right k ihl ihr => rw [bare, text, ihl, ihr, text]
  | call function argument k ih => rw [bare, text, ih, text]

/-- A sign shows that the tree is not an operation. -/
theorem mark?_tokens_ne_sign (t : Expr) (ts : List Token) (sign : Sign) :
    mark? (t.tokens ++ ts) ≠ some sign.symbol := by
  cases t with
  | number value k => nofun
  | var name k => nofun
  | call function argument k => nofun
  | unary sign' operand k => cases sign <;> simp [tokens, mark?, Sign.symbol]
  | binary op left right k => cases sign <;> simp [tokens, mark?, Sign.symbol]

/-- What one tree is, and what follows on it, can be read off its tokens and what follows. -/
def Readable (t : Expr) : Prop :=
  ∀ u : Expr, u.Writable → ∀ ts us, t.tokens ++ ts = u.tokens ++ us → t.bare = u.bare ∧ ts = us

theorem readable_number {value : Float} {k : Nat} (h : (number value k).Writable) :
    (number value k).Readable := by
  intro u hu ts us heq
  cases u with
  | number value' k' =>
    obtain ⟨hhead, htail⟩ := List.cons.inj heq
    have hread := Numeral.read?_write h
    rw [Token.number.inj hhead, Numeral.read?_write hu] at hread
    exact ⟨congrArg (number · 0) (Option.some.inj hread).symm, htail⟩
  | var | unary | binary | call => cases heq

theorem readable_var {name : String} {k : Nat} (h : (var name k).Writable) :
    (var name k).Readable := by
  intro u hu ts us heq
  cases u with
  | var name' k' =>
    obtain ⟨hhead, htail⟩ := List.cons.inj heq
    exact ⟨congrArg (var · 0) (String.toList_injective (Token.word.inj hhead)), htail⟩
  | call function argument k' =>
    obtain ⟨hhead, -⟩ := List.cons.inj heq
    exact absurd (Token.word.inj hhead) (Function.toList_name_ne h.2.2 function)
  | number | unary | binary => cases heq

theorem readable_unary {sign : Sign} {operand : Expr} {k : Nat} (h : operand.Readable) :
    (unary sign operand k).Readable := by
  intro u hu ts us heq
  cases u with
  | unary sign' operand' k' =>
    simp only [tokens, List.cons_append, List.append_assoc, List.cons.injEq, Token.mark.injEq,
      true_and] at heq
    obtain ⟨hsign, hrest⟩ := heq
    obtain ⟨hoperand, hend⟩ := h operand' hu _ _ hrest
    refine ⟨?_, (List.cons.inj hend).2⟩
    rw [bare, bare, Sign.eq_of_symbol_eq hsign, hoperand]
  | binary op left right k' =>
    simp only [tokens, List.cons_append, List.append_assoc, List.cons.injEq, true_and] at heq
    exact absurd (congrArg mark? heq).symm (mark?_tokens_ne_sign left _ sign)
  | number | var | call => cases heq

theorem readable_binary {op : BinaryOp} {left right : Expr} {k : Nat} (hl : left.Readable)
    (hr : right.Readable) : (binary op left right k).Readable := by
  intro u hu ts us heq
  cases u with
  | unary sign operand k' =>
    simp only [tokens, List.cons_append, List.append_assoc, List.cons.injEq, true_and] at heq
    exact absurd (congrArg mark? heq) (mark?_tokens_ne_sign left _ sign)
  | binary op' left' right' k' =>
    simp only [tokens, List.cons_append, List.append_assoc, List.cons.injEq, true_and] at heq
    obtain ⟨hleft, hrest⟩ := hl left' hu.1 _ _ heq
    obtain ⟨hop, hrest'⟩ := List.cons.inj hrest
    obtain ⟨hright, hend⟩ := hr right' hu.2 _ _ hrest'
    refine ⟨?_, (List.cons.inj hend).2⟩
    rw [bare, bare, BinaryOp.eq_of_symbol_eq (Token.mark.inj hop), hleft, hright]
  | number | var | call => cases heq

theorem readable_call {function : Function} {argument : Expr} {k : Nat} (h : argument.Readable) :
    (call function argument k).Readable := by
  intro u hu ts us heq
  cases u with
  | var name k' =>
    obtain ⟨hhead, -⟩ := List.cons.inj heq
    exact absurd (Token.word.inj hhead).symm (Function.toList_name_ne hu.2.2 function)
  | call function' argument' k' =>
    simp only [tokens, List.cons_append, List.append_assoc, List.cons.injEq, true_and] at heq
    obtain ⟨hname, hrest⟩ := heq
    obtain ⟨hargument, hend⟩ := h argument' hu _ _ hrest
    have hname' := String.toList_injective (Token.word.inj hname)
    refine ⟨?_, (List.cons.inj hend).2⟩
    rw [bare, bare, Function.eq_of_name_eq hname', hargument]
  | number | unary | binary => cases heq

theorem readable_of_writable (h : t.Writable) : t.Readable := by
  induction t with
  | number value k => exact readable_number h
  | var name k => exact readable_var h
  | unary sign operand k ih => exact readable_unary (ih h)
  | binary op left right k ihl ihr => exact readable_binary (ihl h.1) (ihr h.2)
  | call function argument k ih => exact readable_call (ih h)

end Expr

/-- Trees have the same text exactly if they are the same but for their columns. -/
theorem text_eq_text_iff {t u : Expr} (ht : t.Writable) (hu : u.Writable) :
    t.text = u.text ↔ t.bare = u.bare := by
  constructor
  · intro htext
    have htokens : t.tokens ++ [] = u.tokens ++ [] := by
      rw [← Expr.ofText_text ht, ← Expr.ofText_text hu, htext]
    exact (Expr.readable_of_writable ht u hu [] [] htokens).1
  · intro hbare
    rw [← Expr.text_bare t, hbare, Expr.text_bare]

/-- A parser reads the text of a power of a root as the root of a power, but the two trees have
different texts. -/
theorem text_ne_text_roots :
    let two := Expr.number (Binary64.ofBits 0x4000000000000000) 8
    let rootOfPower := Expr.call .sqrt (.binary .pow (.var "x" 5) two 6) 1
    let powerOfRoot := Expr.binary .pow (.call .sqrt (.var "x" 5) 1) two 6
    rootOfPower.Writable ∧ powerOfRoot.Writable ∧ rootOfPower.text ≠ powerOfRoot.text := by
  intro two rootOfPower powerOfRoot
  have htwo : two.Writable := Expr.writable_ofBits (by decide) 8
  have hx : (Expr.var "x" 5).Writable :=
    ⟨by decide, List.all_eq_true.1 (by decide), by decide⟩
  refine ⟨⟨hx, htwo⟩, ⟨hx, htwo⟩, fun h => ?_⟩
  cases (text_eq_text_iff (t := rootOfPower) (u := powerOfRoot) ⟨hx, htwo⟩ ⟨hx, htwo⟩).1 h

end Calculator
