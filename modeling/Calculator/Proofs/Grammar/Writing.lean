import Calculator.Expr
import Calculator.Proofs.Grammar.Completeness
import Calculator.Proofs.Grammar.Scanning

/-!
# Written texts

The tokens of a text that is put together of signs, operators, parentheses and
names, and of the leaves of trees. A leaf is derived from its text if its number
is finite and has no sign, or its name is a word that names no function.
-/

namespace Calculator

namespace Token

theorem ofText_append {cs ds : List Char} {d : Char} (hd : isMarkChar d = true) :
    ofText (cs ++ d :: ds) = ofText cs ++ ofText (d :: ds) := by
  rw [ofText, scan_append (breaks_mark hd cs ds)]
  exact List.filter_append _ _

theorem ofText_run {run : List Char} (hne : run ≠ []) (hrun : ∀ c ∈ run, isNumberChar c = true) :
    ofText run = [number run] := by
  have hscan : scan ([number run].flatMap text) = [number run] :=
    scan_flatMap_text (Separated.nil.cons ⟨hne, hrun⟩ nofun)
  rw [List.flatMap_singleton] at hscan
  exact congrArg visible hscan

theorem ofText_name {run : List Char} (hne : run ≠ []) (hrun : ∀ c ∈ run, c.isLower = true) :
    ofText run = [word run] := by
  have hscan : scan ([word run].flatMap text) = [word run] :=
    scan_flatMap_text (Separated.nil.cons ⟨hne, hrun⟩ nofun)
  rw [List.flatMap_singleton] at hscan
  exact congrArg visible hscan

end Token

namespace Expr

/-- A text in parentheses, if `b` is true. -/
def enclose (b : Bool) (text : String) : String :=
  if b then "(" ++ text ++ ")" else text

/-- The numbers of the tree are finite and have no sign, and its variables are words that name
no function. -/
def Writable : Expr → Prop
  | number value _ => Binary64.toBits value < Binary64.infinity
  | var name _ =>
      name ≠ "" ∧ (∀ c ∈ name.toList, c.isLower = true) ∧ Function.ofName? name = none
  | unary _ operand _ => operand.Writable
  | binary _ left right _ => left.Writable ∧ right.Writable
  | call _ argument _ => argument.Writable

theorem writable_ofBits {bits : Nat} (h : bits < Binary64.infinity) (column : Nat) :
    (number (Binary64.ofBits bits) column).Writable := by
  rw [Writable, Binary64.toBits_ofBits h]
  exact h

theorem text_unary {t : Expr} (sign : Sign) (k : Nat) :
    (unary sign t k).text = enclose true (sign.symbol.toString ++ t.text) := by
  simp only [text, enclose, if_true, String.append_assoc]

theorem text_binary {l r : Expr} (op : BinaryOp) (k : Nat) :
    (binary op l r k).text =
      enclose true (l.text ++ " " ++ op.symbol.toString ++ " " ++ r.text) := by
  simp only [text, enclose, if_true, String.append_assoc]

theorem text_call {t : Expr} (function : Function) (k : Nat) :
    (call function t k).text = function.name ++ enclose true t.text := by
  simp only [text, enclose, if_true, String.append_assoc]

end Expr

/-! ## The tokens of a text -/

namespace Token

theorem isMarkChar_sign (sign : Sign) : isMarkChar sign.symbol = true ∧ sign.symbol ≠ ' ' := by
  cases sign <;> decide

theorem isMarkChar_operator (op : BinaryOp) :
    isMarkChar op.symbol = true ∧ op.symbol ≠ ' ' := by
  cases op <;> decide

theorem ofText_enclosed (text : String) :
    ofText (Expr.enclose true text).toList = .mark '(' :: ofText text.toList ++ [.mark ')'] := by
  have htext : (Expr.enclose true text).toList = '(' :: (text.toList ++ [')']) := by
    simp [Expr.enclose]
  rw [htext, ofText_mark (by decide) (by decide), ofText_append (by decide),
    ofText_mark (by decide) (by decide), ofText_nil]
  rfl

theorem ofText_signed (sign : Sign) (text : String) :
    ofText (sign.symbol.toString ++ text).toList = .mark sign.symbol :: ofText text.toList := by
  have htext : (sign.symbol.toString ++ text).toList = sign.symbol :: text.toList := by simp
  rw [htext, ofText_mark (isMarkChar_sign sign).1 (isMarkChar_sign sign).2]

theorem ofText_operation (op : BinaryOp) (left right : String) :
    ofText (left ++ " " ++ op.symbol.toString ++ " " ++ right).toList =
      ofText left.toList ++ .mark op.symbol :: ofText right.toList := by
  have htext : (left ++ " " ++ op.symbol.toString ++ " " ++ right).toList =
      left.toList ++ ' ' :: op.symbol :: ' ' :: right.toList := by simp
  rw [htext, ofText_append (by decide), ofText_space,
    ofText_mark (isMarkChar_operator op).1 (isMarkChar_operator op).2, ofText_space]

theorem ofText_function (function : Function) :
    ofText function.name.toList = [.word function.name.toList] := by
  have hne : function.name.toList ≠ [] := by cases function <;> decide
  have hlower : function.name.toList.all Char.isLower = true := by cases function <;> decide
  exact ofText_name hne (List.all_eq_true.1 hlower)

theorem ofText_applied (function : Function) (text : String) :
    ofText (function.name ++ Expr.enclose true text).toList =
      .word function.name.toList :: ofText (Expr.enclose true text).toList := by
  have htext : (function.name ++ Expr.enclose true text).toList =
      function.name.toList ++ '(' :: (text.toList ++ [')']) := by simp [Expr.enclose]
  have henclosed : (Expr.enclose true text).toList = '(' :: (text.toList ++ [')']) := by
    simp [Expr.enclose]
  rw [htext, ofText_append (by decide), ofText_function, henclosed]
  rfl

theorem ofText_called (function : Function) (text : String) :
    ofText (function.name ++ " " ++ text).toList =
      .word function.name.toList :: ofText text.toList := by
  have htext : (function.name ++ " " ++ text).toList =
      function.name.toList ++ ' ' :: text.toList := by simp
  rw [htext, ofText_append (by decide), ofText_function, ofText_space]
  rfl

/-- A mark that is the first token is the first character, if that is no space. -/
theorem head?_of_mark?_ofText {cs : List Char} {c : Char} (hhead : cs.head? ≠ some ' ')
    (h : mark? (ofText cs) = some c) : cs.head? = some c := by
  cases cs with
  | nil =>
    rw [ofText_nil] at h
    cases h
  | cons d cs =>
    have hd : d ≠ ' ' := fun hd => hhead (congrArg some hd)
    by_cases hn : isNumberChar d = true
    · rw [ofText_number hn] at h
      cases h
    · by_cases hl : d.isLower = true
      · rw [ofText_word hl] at h
        cases h
      · rw [ofText_mark (by simp [isMarkChar, hn, hl]) hd] at h
        exact h

end Token

/-! ## Leaves -/

theorem Numeral.exists_head_write {value : Float}
    (h : Binary64.toBits value < Binary64.infinity) :
    ∃ c, (write value).toList.head? = some c ∧ c.isDigit = true := by
  obtain ⟨c, cs, hcs, hc⟩ := Decimal.text_eq_cons (Decimal.shortest (Binary64.toBits value))
  refine ⟨c, ?_, hc⟩
  rw [toList_write h, hcs]
  rfl

theorem Numeral.isNumberChar_of_mem_write {value : Float}
    (h : Binary64.toBits value < Binary64.infinity) :
    ∀ c ∈ (write value).toList, isNumberChar c = true := by
  intro c hc
  rw [toList_write h] at hc
  simpa [isNumberChar] using Decimal.isDigit_or_point_of_mem_text hc

theorem Numeral.ofText_write {value : Float} (h : Binary64.toBits value < Binary64.infinity) :
    Token.ofText (write value).toList = [.number (write value).toList] := by
  obtain ⟨c, hhead, -⟩ := exists_head_write h
  have hne : (write value).toList ≠ [] := by
    intro hnil
    rw [hnil] at hhead
    cases hhead
  exact Token.ofText_run hne (isNumberChar_of_mem_write h)

theorem Derives.written_number {value : Float} (h : Binary64.toBits value < Binary64.infinity)
    (column : Nat) :
    Derives .base (Token.ofText (Numeral.write value).toList) (.number value column) 0 := by
  obtain ⟨hliteral, hvalue⟩ :=
    (Numeral.read?_eq_some_iff (Numeral.isNumberChar_of_mem_write h)).1 (Numeral.read?_write h)
  have hderives := Derives.number column hliteral
  rw [← hvalue] at hderives
  rw [Numeral.ofText_write h]
  exact hderives

theorem Token.ofText_variable {name : String} (hne : name ≠ "")
    (hlower : ∀ c ∈ name.toList, c.isLower = true) : ofText name.toList = [.word name.toList] :=
  ofText_name (fun h => hne (String.toList_eq_nil_iff.1 h)) hlower

theorem Function.toList_name_ne {name : String} (h : ofName? name = none) (function : Function) :
    name.toList ≠ function.name.toList := by
  intro hname
  rw [ofName?_eq_some_iff.2 (String.toList_injective hname)] at h
  cases h

theorem Derives.written_var {name : String} (hne : name ≠ "")
    (hlower : ∀ c ∈ name.toList, c.isLower = true) (hname : Function.ofName? name = none)
    (column : Nat) : Derives .base (Token.ofText name.toList) (.var name column) 0 := by
  rw [Token.ofText_variable hne hlower]
  simpa using Derives.var column (Function.toList_name_ne hname)

end Calculator
