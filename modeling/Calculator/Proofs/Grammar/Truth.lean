import Calculator.Proofs.Grammar.Literal
import Calculator.Proofs.Grammar.Reading

/-!
# What errors say

The column of an error cuts the text in two. What stands before it has been read, and what an
error of its kind says about the two parts is so.
-/

namespace Calculator

/-- What errors of the kind say about the text before their column and the text from there on. -/
def ParseError.Kind.Says (before after : List Char) : ParseError.Kind → Prop
  | unexpectedOperator =>
    (∃ c ∈ after.head?, isOperatorChar c = true) ∧
      ∃ (text : List Char) (op : BinaryOp) (n : Nat),
        before = text ++ op.symbol :: List.replicate n ' '
  | unexpectedCharacter c => after.head? = some c ∧ c ≠ ' '
  | invalidNumber literal =>
    literal ≠ "" ∧ literal.toList = after.takeWhile isNumberChar ∧
      (∀ c ∈ before.getLast?, isNumberChar c = false) ∧
      ((∀ c ∈ literal.toList, c.isDigit = false) ∨ 1 < literal.toList.count '.')
  | unclosedParenthesis =>
    (∀ c ∈ after.head?, c ≠ ')' ∧ c ≠ ' ') ∧
      ∃ text inner : List Char, before = text ++ '(' :: inner ∧ KeepsOpen inner
  | expectedOperand (some c) =>
    after.head? = some c ∧ c ≠ ' ' ∧ isNumberChar c = false ∧ c.isLower = false ∧
      c ∉ ['(', '+', '-']
  | expectedOperand none => after = []
  | tooDeeplyNested => True

/-- The column cuts the text where the error says. -/
def ParseError.TrueOf (source : String) (e : ParseError) : Prop :=
  ∃ before after, source.toList = before ++ after ∧ e.column = before.length + 1 ∧
    Legible before ∧ e.kind.Says before after

/-- What a cursor leads past is legible, if there is a way to read it. -/
theorem Cursor.Reads.legible {c c' : Cursor} {text : List Char} (h : c.Reads text c')
    (h' : c.ReadsOn c') : Legible text := by
  obtain ⟨text', hreads, hlegible⟩ := h'
  have heq : text ++ c'.rest = text' ++ c'.rest := h.rest_eq.symm.trans hreads.rest_eq
  rwa [List.append_cancel_right heq]

theorem takeWhile_space (cs : List Char) :
    cs.takeWhile (· == ' ') = List.replicate (cs.takeWhile (· == ' ')).length ' ' := by
  refine List.eq_replicate_iff.2 ⟨rfl, fun c hc => ?_⟩
  have hspace := List.mem_takeWhile_imp hc
  exact eq_of_beq hspace

namespace Grammar

open Step

variable {rules : Rules} {source : String} {s s' : Reader} {c : Call} {e : ParseError}

theorem trueOf_of_reads {q : Cursor} {before : List Char}
    (hreads : (Cursor.ofText source).Reads before q) (hon : (Cursor.ofText source).ReadsOn q)
    (hcolumn : e.column = q.column) (hkind : e.kind.Says before q.rest) : e.TrueOf source := by
  refine ⟨before, q.rest, hreads.rest_eq, ?_, hreads.legible hon, hkind⟩
  rw [hcolumn, Cursor.column, hreads.position_eq]
  exact congrArg (· + 1) (Nat.zero_add _)

theorem trueOf_tooDeeplyNested {q : Cursor} (hon : (Cursor.ofText source).ReadsOn q) :
    (ParseError.mk .tooDeeplyNested q.column).TrueOf source :=
  have ⟨_, hreads, _⟩ := hon
  trueOf_of_reads hreads hon rfl trivial

/-- An operator, or a closing parenthesis, right behind an operator. -/
theorem trueOf_unexpectedOperator (hon : (Cursor.ofText source).ReadsOn s.cursor) (op : BinaryOp)
    (hmark : Token.mark? s.tokens = some op.symbol)
    (hreject : (Token.mark? s.pass.tokens).any isOperatorChar = true) :
    (ParseError.mk .unexpectedOperator s.pass.nextColumn).TrueOf source := by
  have ⟨before, hreads, _⟩ := hon
  have hskip := s.pass.cursor.reads_skipSpaces
  refine trueOf_of_reads (hreads.append ((Reader.reads_pass hmark).append hskip))
    ((hon.trans (readsOn_operator op hmark)).trans (.skipSpaces s.pass.cursor)) rfl ⟨?_, ?_⟩
  · rw [← s.pass.look_operator, Option.any_eq_true] at hreject
    exact hreject
  · refine ⟨before ++ s.cursor.rest.takeWhile (· == ' '), op,
      (s.pass.cursor.rest.takeWhile (· == ' ')).length, ?_⟩
    rw [← takeWhile_space]
    simp

/-- A run that is no number. -/
theorem trueOf_invalidNumber (hon : (Cursor.ofText source).ReadsOn s.cursor) {run : List Char}
    {ts : List Token} (htokens : s.tokens = .number run :: ts) (hread : Numeral.read? run = none) :
    (ParseError.mk (.invalidNumber (String.ofList run)) s.nextColumn).TrueOf source := by
  have hrun : ¬ IsLiteral run := by
    intro hliteral
    rw [(Numeral.read?_eq_some_iff hliteral.all_numberChar).2 ⟨hliteral, rfl⟩] at hread
    cases hread
  have hchars := Reader.isNumberChar_of_mem htokens
  obtain ⟨hrun', d, hlook, hd⟩ := Reader.look_of_number htokens
  have hon' := hon.trans (.skipSpaces s.cursor)
  have ⟨before, hreads, _⟩ := hon'
  refine trueOf_of_reads hreads hon' rfl ⟨?_, ?_, ?_, ?_⟩
  · rw [hrun', Cursor.rest_eq_cons hlook, List.takeWhile_cons_of_pos hd]
    simp
  · rw [String.toList_ofList, hrun']
    rfl
  · intro a ha
    have hbreak := hreads.breaks a ha d hlook
    simp only [Token.sameRun, hd, Bool.and_true, Bool.or_eq_false_iff] at hbreak
    exact hbreak.1
  · rw [String.toList_ofList]
    by_contra hnot
    rw [not_or] at hnot
    obtain ⟨hdigit, hpoints⟩ := hnot
    refine hrun ⟨hchars, ?_, Nat.not_lt.1 hpoints⟩
    by_contra hnone
    exact hdigit fun a ha => Bool.eq_false_iff.2 fun h => hnone ⟨a, ha, h⟩

/-- Nothing, or what is neither the beginning of an operand nor a sign. -/
theorem trueOf_expectedOperand (hon : (Cursor.ofText source).ReadsOn s.cursor)
    (hlacks : LacksOperand s.tokens) (hsign : (Token.mark? s.tokens).bind Sign.ofChar? = none) :
    (ParseError.mk (.expectedOperand s.skipSpaces.cursor.current?) s.nextColumn).TrueOf
      source := by
  have hon' := hon.trans (.skipSpaces s.cursor)
  have ⟨before, hreads, _⟩ := hon'
  refine trueOf_of_reads hreads hon' rfl ?_
  have hspace := s.current?_skipSpaces_ne_space
  rw [lacksOperand_tokens_iff] at hlacks
  rw [← s.look_bind fun _ => Sign.ofChar?_eq_none] at hsign
  cases hlook : s.skipSpaces.cursor.current? with
  | none => exact List.head?_eq_none_iff.1 hlook
  | some d =>
    rw [hlook] at hspace hsign
    obtain ⟨hmark, hgroup⟩ := hlacks d hlook
    simp only [isMarkChar, Bool.and_eq_true, Bool.not_eq_true'] at hmark
    refine ⟨hlook, fun h => hspace (congrArg some h), hmark.1, hmark.2, ?_⟩
    intro hmem
    simp only [List.mem_cons, List.not_mem_nil, or_false] at hmem
    rcases hmem with rfl | rfl | rfl
    · exact hgroup rfl
    · cases hsign
    · cases hsign

/-- A parenthesis that was opened, and what stands where it should close. -/
theorem trueOf_unclosedParenthesis (hon : (Cursor.ofText source).ReadsOn s.cursor)
    (hmark : Token.mark? s.tokens = some '(') (hinner : s.pass.cursor.ReadsOn s'.cursor)
    (hclose : Token.mark? s'.tokens ≠ some ')') :
    (ParseError.mk .unclosedParenthesis s'.nextColumn).TrueOf source := by
  have hinner' := hinner.trans (.skipSpaces s'.cursor)
  have hpass := Reader.readsOn_pass hmark (by decide) (by decide)
  have ⟨before, hreads, _⟩ := hon
  have ⟨inner, hreads', hlegible⟩ := hinner'
  refine trueOf_of_reads ((hreads.append (Reader.reads_pass hmark)).append hreads')
    ((hon.trans hpass).trans hinner') rfl ⟨?_, ?_⟩
  · intro d hd
    refine ⟨?_, ?_⟩
    · rintro rfl
      exact hclose ((s'.look_eq_iff (by decide)).1 hd)
    · rintro rfl
      exact s'.current?_skipSpaces_ne_space hd
  · exact ⟨before ++ s.cursor.rest.takeWhile (· == ' '), inner, by simp, hlegible.keepsOpen⟩

/-- No operand that is called for begins with a sign. -/
theorem sign?_of_reached {n : Nat} (h : Reached rules c s n .primary s')
    (hs : c = .primary → (Token.mark? s.tokens).bind Sign.ofChar? = none) :
    (Token.mark? s'.tokens).bind Sign.ofChar? = none := by
  generalize hc : Call.primary = c' at h
  induction h with
  | here c s => exact hs hc.symm
  | through hcalls hreached ih =>
    refine ih (fun hprimary => ?_) hc
    cases hcalls with
    | operand rank => cases rank <;> cases hprimary
    | @right rank => cases rank <;> cases hprimary
    | base hsign => exact hsign
    | tail | next | enter | sign | exponent | group | argument => cases hprimary

theorem trueOf_of_refuses {n : Nat}
    (hreached : Reached rules (.chain .sum) (.ofText source) n c s) (h : Refuses rules c s e) :
    e.TrueOf source := by
  have hon : (Cursor.ofText source).ReadsOn s.cursor := hreached.readsOn
  cases h with
  | nesting hlimit => exact trueOf_tooDeeplyNested hon
  | height hjoins hheight => exact trueOf_tooDeeplyNested (hon.trans hjoins.readsOn)
  | operator left hop hreject =>
    exact trueOf_unexpectedOperator hon _ (mark?_of_operator? hop).1 hreject
  | powerOperator hsign hbase hmark hreject =>
    exact trueOf_unexpectedOperator (hon.trans (readsOn_of_run (c := .primary) hbase)) .pow
      hmark hreject
  | number htokens hread => exact trueOf_invalidNumber hon htokens hread
  | missing hstrict hlacks =>
    exact trueOf_expectedOperand hon hlacks (sign?_of_reached hreached fun h => by cases h)
  | unclosed hstrict hmark hinner hclose =>
    exact trueOf_unclosedParenthesis hon hmark (readsOn_of_run (c := .chain .sum) hinner) hclose

/-- What stands behind an expression is no space. -/
theorem trueOf_unexpectedCharacter {t : Measured} {d : Char}
    (h : expression rules (.ofText source) = .ok t s) (hlook : s.cursor.current? = some d) :
    (ParseError.mk (.unexpectedCharacter d) s.cursor.column).TrueOf source := by
  have hon : (Cursor.ofText source).ReadsOn s.cursor :=
    readsOn_of_run (c := .chain .sum) (s := .ofText source) h
  have ⟨before, hreads, _⟩ := hon
  refine trueOf_of_reads hreads hon rfl ⟨hlook, ?_⟩
  rintro rfl
  rw [← (settled_of_chain h).skipSpaces_eq] at hlook
  exact s.current?_skipSpaces_ne_space hlook

end Grammar

theorem ParseError.trueOf_of_parse {rules : Rules} {source : String} {e : ParseError}
    (h : Expr.parse rules source = .error e) : e.TrueOf source := by
  rcases Expr.parse_eq_error_iff.1 h with ⟨q, hq⟩ | ⟨t, s, d, hexpression, hlook, rfl⟩
  · obtain ⟨n, c, s, hreached, hrefuses⟩ := Grammar.exists_refuses (c := .chain .sum) hq
    exact Grammar.trueOf_of_refuses hreached hrefuses
  · exact Grammar.trueOf_unexpectedCharacter hexpression hlook

/-- Every error stands in the text or right behind it, behind characters of the grammar only, and
what its kind says about the place is so. -/
theorem parse_error_tells_truth (rules : Rules) {source : String} {e : ParseError}
    (h : Expr.parse rules source = .error e) :
    let before := source.toList.take (e.column - 1)
    let after := source.toList.drop (e.column - 1)
    1 ≤ e.column ∧ e.column ≤ source.length + 1 ∧ (∀ c ∈ before, isGrammarChar c = true) ∧
      e.kind.Says before after := by
  intro before after
  obtain ⟨read, rest, hsource, hcolumn, hlegible, hkind⟩ := ParseError.trueOf_of_parse h
  have hread : before = read := by simp [before, hsource, hcolumn]
  have hrest : after = rest := by simp [after, hsource, hcolumn]
  have hlength : source.length = read.length + rest.length := by
    rw [← String.length_toList, hsource, List.length_append]
  rw [hread, hrest]
  refine ⟨?_, ?_, hlegible.grammar, hkind⟩ <;> omega

theorem parse_error_tells_truth_unclosed :
    Expr.parse .strictly "2 * (x + (y) 7" = .error ⟨.unclosedParenthesis, 14⟩ ∧
      ∃ text inner : List Char, "2 * (x + (y) ".toList = text ++ '(' :: inner ∧
        KeepsOpen inner := by
  have h : Expr.parse .strictly "2 * (x + (y) 7" = .error ⟨.unclosedParenthesis, 14⟩ := by
    decide +kernel
  obtain ⟨-, -, -, -, hopen⟩ := parse_error_tells_truth .strictly h
  exact ⟨h, hopen⟩

end Calculator
