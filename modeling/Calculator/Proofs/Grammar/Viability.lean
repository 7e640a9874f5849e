import Calculator.Proofs.Grammar.Echo
import Calculator.Proofs.Grammar.Literal
import Mathlib.Control.Monad.Basic

/-!
# Viable prefixes

What was read before an error can be completed. A zero in the place of the error
is an operand that was wanted there, or a parenthesis closes the group that was
not closed; then come the parentheses of the groups that are still open. A text
is refused at the first place where no text could go on.
-/

namespace Calculator

namespace Grammar

open Step

variable {rules : Rules} {s q : Reader} {r r' : List Char} {e : ParseError}

/-! ## Readings that leave a rest -/

/-- The step succeeds and leaves the characters `r`. -/
def Leaves (step : Step Measured) (s : Reader) (r : List Char) : Prop :=
  ∃ t s', step s = .ok t s' ∧ s'.cursor.rest = r

theorem Leaves.bind {a : Step Measured} {k : Measured → Step Measured} (h : Leaves a s r)
    (hk : ∀ x s', s'.cursor.rest = r → Leaves (k x) s' r') : Leaves (a >>= k) s r' := by
  obtain ⟨x, s₁, ha, hrest⟩ := h
  obtain ⟨t, s', hx, hrest'⟩ := hk x s₁ hrest
  exact ⟨t, s', bind_eq_ok_iff.2 ⟨x, s₁, ha, hx⟩, hrest'⟩

theorem Leaves.after {a : Step Measured} {k : Measured → Step Measured} {x : Measured}
    (ha : a s = .ok x q) (h : Leaves (k x) q r) : Leaves (a >>= k) s r := by
  obtain ⟨t, s', hx, hrest⟩ := h
  exact ⟨t, s', bind_eq_ok_iff.2 ⟨x, q, ha, hx⟩, hrest⟩

theorem look_of_closes (h : rules.Closes s.cursor.rest) :
    s.skipSpaces = s ∧ (Token.mark? s.tokens = none ∨ Token.mark? s.tokens = some ')') := by
  have hskip : s.skipSpaces = s := by
    refine Reader.skipSpaces_eq_self fun hspace => ?_
    cases h.head_eq hspace
  rw [Reader.mark?_tokens, hskip]
  refine ⟨rfl, ?_⟩
  cases hlook : s.cursor.current? with
  | none => exact .inl rfl
  | some d =>
    rw [h.head_eq hlook]
    exact .inr rfl

theorem leaves_tail {rank : Rank} {left : Measured} (hs : s.cursor.rest = r)
    (hr : rules.Closes r) : Leaves (tail rules rank left) s r := by
  subst hs
  obtain ⟨hskip, hmark⟩ := look_of_closes hr
  have hop : (Token.mark? s.tokens).bind rank.operator? = none := by
    rcases hmark with hmark | hmark
    · rw [hmark]
      rfl
    · rw [hmark]
      cases rank <;> rfl
  exact ⟨left, s.skipSpaces, tail_stop hop, by rw [hskip]⟩

theorem leaves_power {base : Measured} (hs : s.cursor.rest = r) (hr : rules.Closes r) :
    Leaves (power rules base) s r := by
  subst hs
  obtain ⟨hskip, hmark⟩ := look_of_closes hr
  have hpower : Token.mark? s.tokens ≠ some '^' := by
    rcases hmark with hmark | hmark
    · rw [hmark]
      nofun
    · rw [hmark]
      nofun
  exact ⟨base, s.skipSpaces, power_ok.2 (.inr ⟨hpower, rfl, rfl⟩), by rw [hskip]⟩

theorem leaves_close {inner : Measured} (hs : s.cursor.rest = ')' :: r) :
    Leaves (close rules inner) s r := by
  have hclose : Token.mark? s.tokens = some ')' := by
    rw [Reader.tokens, hs, Token.ofText_mark (by decide) (by decide)]
    rfl
  have hskip : s.skipSpaces = s := by
    refine Reader.skipSpaces_eq_self fun hspace => ?_
    rw [Cursor.current?, hs] at hspace
    cases hspace
  refine ⟨inner, s.pass, close_ok.2 ⟨rfl, .inl ⟨hclose, rfl⟩⟩, ?_⟩
  rw [Reader.pass, hskip, Reader.advance, Cursor.advance, hs]

theorem leaves_close_end {inner : Measured} (hstrict : ¬ rules.strict = true)
    (hs : s.cursor.rest = []) : Leaves (close rules inner) s [] := by
  have hopen : Token.mark? s.tokens ≠ some ')' := by
    intro hmark
    rw [Reader.tokens, hs, Token.ofText_nil] at hmark
    cases hmark
  refine ⟨inner, s.skipSpaces, close_ok.2 ⟨rfl, .inr ⟨hopen, by simpa using hstrict, rfl⟩⟩, ?_⟩
  have hrest : s.skipSpaces.cursor.rest = s.cursor.rest.dropWhile (· == ' ') := rfl
  rw [hrest, hs, List.dropWhile_nil]

theorem Leaves.chain {rank : Rank} (h : Leaves (operand rules rank) s r) (hr : rules.Closes r) :
    Leaves (chain rules rank) s r := by
  rw [chain_eq]
  exact h.bind fun _ _ hrest => leaves_tail hrest hr

theorem Leaves.signed (hsign : (Token.mark? s.tokens).bind Sign.ofChar? = none)
    (h : Leaves (primary rules >>= power rules) s r) : Leaves (signed rules) s r := by
  obtain ⟨t, s', ht, hrest⟩ := h
  exact ⟨t, s', (signed_ok_of_unsigned hsign).2 (bind_eq_ok_iff.1 ht), hrest⟩

theorem Leaves.power (h : Leaves (primary rules) s r) (hr : rules.Closes r) :
    Leaves (primary rules >>= power rules) s r :=
  h.bind fun _ _ hrest => leaves_power hrest hr

section Unlimited

variable (hlimits : rules.limits = .unlimited)
include hlimits

theorem leaves_binary {op : BinaryOp} {column : Nat} {left right : Measured}
    (hs : s.cursor.rest = r) : Leaves (binary rules op column left right) s r :=
  ⟨_, s, binary_ok.2 ⟨by rw [hlimits]; rfl, rfl, rfl⟩, hs⟩

theorem leaves_unary {sign : Sign} {column : Nat} {operand : Measured}
    (hs : s.cursor.rest = r) : Leaves (unary rules sign column operand) s r :=
  ⟨_, s, unary_ok.2 ⟨by rw [hlimits]; rfl, rfl, rfl⟩, hs⟩

theorem leaves_call {function : Function} {column : Nat} {argument : Measured}
    (hs : s.cursor.rest = r) : Leaves (call rules function column argument) s r :=
  ⟨_, s, call_ok.2 ⟨by rw [hlimits]; rfl, rfl, rfl⟩, hs⟩

theorem Leaves.factor (h : Leaves (Grammar.signed rules) s.enter r) :
    Leaves (factor rules) s r := by
  obtain ⟨t, s', ht, hrest⟩ := h
  exact ⟨t, s'.leave, factor_ok.2 ⟨by rw [hlimits]; rfl, s', ht, rfl⟩, hrest⟩

theorem Leaves.operation {operand : Step Measured} {op : BinaryOp} {column : Nat}
    {left : Measured} (hfollow : (Token.mark? s.tokens).any isOperatorChar = false)
    (h : Leaves operand s.skipSpaces r) :
    Leaves (operation rules operand op column left) s r := by
  rw [Leaves, Grammar.operation, bind_apply, rejectOperator_apply, hfollow]
  exact h.bind fun _ _ hrest => leaves_binary hlimits hrest

/-! ## A zero as operand -/

omit hlimits in
theorem tokens_zero (hs : s.cursor.rest = '0' :: r) (hr : rules.Closes r) :
    s.tokens = .number ['0'] :: (s.passRun isNumberChar).tokens ∧
      (s.passRun isNumberChar).cursor.rest = r := by
  have hlook : s.cursor.current? = some '0' := congrArg List.head? hs
  have hskip : s.skipSpaces = s := Reader.skipSpaces_eq_self (by rw [hlook]; decide)
  have hends : r.takeWhile isNumberChar = [] ∧ r.dropWhile isNumberChar = r := by
    cases r with
    | nil => exact ⟨rfl, rfl⟩
    | cons d ds =>
      rw [hr.head_eq (d := d) rfl]
      exact ⟨rfl, rfl⟩
  have htokens := Reader.tokens_of_number (s := s) (by rw [hskip, hlook]) rfl
  rw [hskip, hs, List.takeWhile_cons_of_pos rfl, hends.1] at htokens
  refine ⟨htokens, ?_⟩
  have hrest : (s.passRun isNumberChar).cursor.rest =
      s.skipSpaces.cursor.rest.dropWhile isNumberChar := rfl
  rw [hrest, hskip, hs, List.dropWhile_cons_of_pos rfl, hends.2]

omit hlimits in
theorem leaves_zero_primary (hs : s.cursor.rest = '0' :: r) (hr : rules.Closes r) :
    Leaves (primary rules) s r := by
  obtain ⟨htokens, hrest⟩ := tokens_zero hs hr
  exact ⟨_, _, primary_ok.2 (.number ['0'] _ 0.0 htokens Numeral.read?_zero), hrest⟩

theorem leaves_zero_factor (hs : s.cursor.rest = '0' :: r) (hr : rules.Closes r) :
    Leaves (factor rules) s r := by
  have hsign : (Token.mark? s.enter.tokens).bind Sign.ofChar? = none := by
    rw [Reader.tokens_enter, (tokens_zero hs hr).1]
    rfl
  exact .factor hlimits (.signed hsign (.power (leaves_zero_primary (s := s.enter) hs hr) hr))

theorem leaves_zero_operand (rank : Rank) (hs : s.cursor.rest = '0' :: r)
    (hr : rules.Closes r) : Leaves (operand rules rank) s r := by
  have hfactor := leaves_zero_factor hlimits hs hr
  cases rank with
  | sum =>
    rw [operand_sum]
    refine Leaves.chain ?_ hr
    rwa [operand_product]
  | product => rwa [operand_product]

end Unlimited

end Grammar

/-! ## Mending an error -/

namespace ParseError

/-- What may stand in the place of an error. -/
def Kind.mend : Kind → List Char
  | unclosedParenthesis => [')']
  | _ => ['0']

/-- The ending that mends the error and goes on with `text`. -/
def mended (e : ParseError) (text : List Char) : Ending :=
  ⟨e.column - 1, e.kind.mend ++ text⟩

theorem head_mended {e : ParseError} {text : List Char} {d : Char}
    (h : d ∈ (e.mended text).text.head?) : d = '0' ∨ d = ')' := by
  obtain ⟨kind, column⟩ := e
  cases kind <;> cases h
  case unclosedParenthesis => exact .inr rfl
  all_goals exact .inl rfl

theorem text_mended {e : ParseError} (h : e.kind ≠ .unclosedParenthesis) (text : List Char) :
    (e.mended text).text = '0' :: text := by
  obtain ⟨kind, column⟩ := e
  cases kind
  case unclosedParenthesis => exact absurd rfl h
  all_goals rfl

end ParseError

namespace Grammar

open Step

variable {rules : Rules} {c c' : Call} {s s' q : Reader} {e : ParseError} {r text : List Char}

theorem fits_mended (h : c.run rules s = .error e q) (text : List Char) :
    (e.mended text).Fits s := by
  obtain ⟨q', ⟨read, hrest, hposition⟩, hcolumn⟩ := exists_reaches_of_run h
  have hleft : s.left = read.length + q'.left := by
    rw [Reader.left, hrest, List.length_append, Reader.left]
  have hplace : (e.mended text).place = q'.cursor.position := by
    rw [ParseError.mended, hcolumn]
    rfl
  rw [Ending.Fits, hplace, hposition, hleft]
  omega

section Mended

variable (hfits : (e.mended text).Fits s) (h : s.nextColumn ≤ e.column)
include hfits h

theorem skipSpaces_mended :
    ((e.mended text).reader s).skipSpaces = (e.mended text).reader s.skipSpaces := by
  refine Ending.skipSpaces_reader hfits ?_
  have hle : s.skipSpaces.cursor.position ≤ (e.mended text).place := Nat.le_sub_one_of_lt h
  refine (Nat.lt_or_eq_of_le hle).imp_right fun hplace => ⟨hplace, fun d hd => ?_⟩
  rcases ParseError.head_mended hd with rfl | rfl
  · rfl
  · rfl

theorem mark?_mended :
    Token.mark? ((e.mended text).reader s).tokens = Token.mark? s.tokens ∨
      Token.mark? ((e.mended text).reader s).tokens = none ∨
      Token.mark? ((e.mended text).reader s).tokens = some ')' := by
  have hle : s.skipSpaces.cursor.position ≤ (e.mended text).place := Nat.le_sub_one_of_lt h
  rcases Nat.lt_or_eq_of_le hle with hlt | hplace
  · exact .inl (Ending.mark?_reader hfits hlt)
  · right
    rw [Reader.mark?_tokens, skipSpaces_mended hfits h, Cursor.current?,
      Ending.rest_reader hplace]
    cases hhead : (e.mended text).text.head? with
    | none => exact .inl rfl
    | some d =>
      rcases ParseError.head_mended hhead with rfl | rfl
      · exact .inl rfl
      · exact .inr rfl

theorem sign_mended (hsign : (Token.mark? s.tokens).bind Sign.ofChar? = none) :
    (Token.mark? ((e.mended text).reader s).tokens).bind Sign.ofChar? = none := by
  rcases mark?_mended hfits h with hmark | hmark | hmark
  · rw [hmark, hsign]
  · rw [hmark]
    rfl
  · rw [hmark]
    rfl

/-- No operator is put behind an operator. -/
theorem follow_mended (hfollow : (Token.mark? s.tokens).any isOperatorChar = false ∨
      s.nextColumn = e.column)
    (hkind : s.nextColumn = e.column → e.kind ≠ .unclosedParenthesis) :
    (Token.mark? ((e.mended text).reader s).tokens).any isOperatorChar = false := by
  rcases Nat.lt_or_eq_of_le h with hlt | heq
  · have hbefore : s.skipSpaces.cursor.position < (e.mended text).place := Nat.lt_sub_of_add_lt hlt
    rw [Ending.mark?_reader hfits hbefore]
    exact hfollow.resolve_right (Nat.ne_of_lt hlt)
  · have hplace : s.skipSpaces.cursor.position = (e.mended text).place := by
      rw [ParseError.mended, ← heq]
      rfl
    rw [Reader.mark?_tokens, skipSpaces_mended hfits h, Cursor.current?,
      Ending.rest_reader hplace, ParseError.text_mended (hkind heq)]
    rfl

end Mended

/-- A zero comes in the place of the error. -/
theorem rest_mended (hkind : e.kind ≠ .unclosedParenthesis)
    (h : s.cursor.column = e.column) :
    ((e.mended text).reader s).cursor.rest = '0' :: text := by
  have hplace : s.cursor.position = (e.mended text).place := by
    rw [ParseError.mended, ← h]
    rfl
  rw [Ending.rest_reader hplace, ParseError.text_mended hkind]

/-- What was read before the error is read before its mending. -/
theorem run_mended {t : Measured} (hfits : (e.mended text).Fits s)
    (h : c.run rules s = .ok t s') (hlt : s'.cursor.column < e.column) :
    c.run rules ((e.mended text).reader s) = .ok t ((e.mended text).reader s') :=
  Ending.run_of_covers hfits h (.inl (Nat.lt_sub_of_add_lt hlt))

theorem before_mended {d : Char} (text : List Char) (hmark : Token.mark? s.tokens = some d)
    (h : s.pass.cursor.column ≤ e.column) :
    s.skipSpaces.cursor.position < (e.mended text).place := by
  have hpass := Reader.position_pass hmark
  refine Nat.lt_sub_of_add_lt (Nat.lt_of_lt_of_le ?_ h)
  rw [Cursor.column, hpass]
  exact Nat.lt_succ_self _

theorem column_lt_pass {d : Char} (hmark : Token.mark? s.tokens = some d) :
    s.cursor.column < s.pass.cursor.column := by
  have hpass := Reader.position_pass hmark
  have hspaces := s.continues_skipSpaces.reaches.position_le
  simp only [Cursor.column]
  omega

theorem nextColumn_le_of_primary {t : Measured} (h : primary rules s = .ok t s') :
    s.nextColumn ≤ s'.cursor.column := by
  rw [← primary_skipSpaces] at h
  exact (Call.continues_of_run (c := .primary) h).column_le

theorem column_lt_of_tail {rank : Rank} {left : Measured}
    (h : tail rules rank left s = .error e q) : s.cursor.column < e.column := by
  rw [tail_apply] at h
  cases hop : (Token.mark? s.tokens).bind rank.operator? with
  | none =>
    rw [hop] at h
    cases h
  | some op =>
    rw [hop] at h
    have hbeyond : Beyond s.pass.cursor.column
        ((operation rules (operand rules rank) op s.nextColumn left >>= tail rules rank) s.pass) :=
      Forward.step rank op s.nextColumn left s.pass
    dsimp only at h
    rw [h] at hbeyond
    exact Nat.lt_of_lt_of_le (column_lt_pass (mark?_of_operator? hop).1) hbeyond

/-! ## Completing a call -/

/-- The call can be completed behind the error, by some characters and then by whatever closes
it. -/
def Completes (rules : Rules) (c : Call) (s : Reader) (e : ParseError) : Prop :=
  ∃ k, ∀ r, rules.Closes r → Leaves (c.run rules) ((e.mended (k ++ r)).reader s) r

/-- Strict rules have reached a token before they miss a closing parenthesis. -/
theorem kind_ne_of_column_eq (h : c.run rules s = .error e q)
    (hcolumn : s.cursor.column = e.column) : e.kind ≠ .unclosedParenthesis := by
  intro hkind
  obtain ⟨n, c', s', hreached, hrefuses⟩ := exists_refuses h
  have hle := hreached.reaches.position_le
  cases hrefuses with
  | @unclosed inner _ s₁ hstrict hmark hinner hclose =>
    have hpass := Reader.position_pass hmark
    have hspaces := s'.continues_skipSpaces.reaches.position_le
    have hinner' := (Call.continues_of_run (c := .chain .sum) hinner).reaches.position_le
    have hspaces' := s₁.continues_skipSpaces.reaches.position_le
    simp only [Cursor.column, Reader.nextColumn] at hcolumn
    omega
  | nesting | height | operator | powerOperator | number | missing => cases hkind

section Unlimited

variable (hlimits : rules.limits = .unlimited)
include hlimits

/-- An operator and its right side, which is completed or where a zero is put. -/
theorem leaves_tail_mended {rank : Rank} {op : BinaryOp} {left : Measured}
    (hop : (Token.mark? s.tokens).bind rank.operator? = some op) (hfits : (e.mended text).Fits s)
    (hcolumn : s.pass.nextColumn ≤ e.column)
    (hfollow : (Token.mark? s.pass.tokens).any isOperatorChar = false ∨
      s.pass.nextColumn = e.column)
    (hkind : s.pass.nextColumn = e.column → e.kind ≠ .unclosedParenthesis)
    (hright : Leaves (operand rules rank) ((e.mended text).reader s.pass.skipSpaces) r)
    (hr : rules.Closes r) : Leaves (tail rules rank left) ((e.mended text).reader s) r := by
  have hpass := hfits.of_reaches s.continues_pass.reaches
  have hbefore := before_mended text (mark?_of_operator? hop).1
    (Nat.le_trans s.pass.continues_skipSpaces.column_le hcolumn)
  rw [← skipSpaces_mended hpass hcolumn] at hright
  rw [Leaves, tail_apply, Ending.mark?_reader hfits hbefore, hop,
    Ending.nextColumn_reader hfits hbefore, Ending.pass_reader hfits hbefore]
  exact (Leaves.operation hlimits (follow_mended hpass hcolumn hfollow hkind) hright).bind
    fun _ _ hrest => leaves_tail hrest hr

/-- A power with its exponent, which is completed or where a zero is put. -/
theorem leaves_signed_mended {base : Measured} (hfits : (e.mended text).Fits s)
    (hsign : (Token.mark? s.tokens).bind Sign.ofChar? = none)
    (hbase : primary rules s = .ok base s') (hmark : Token.mark? s'.tokens = some '^')
    (hcolumn : s'.pass.nextColumn ≤ e.column)
    (hfollow : (Token.mark? s'.pass.tokens).any isOperatorChar = false ∨
      s'.pass.nextColumn = e.column)
    (hkind : s'.pass.nextColumn = e.column → e.kind ≠ .unclosedParenthesis)
    (hright : Leaves (factor rules) ((e.mended text).reader s'.pass.skipSpaces) r) :
    Leaves (signed rules) ((e.mended text).reader s) r := by
  have hfits' := hfits.of_reaches (Call.continues_of_run (c := .primary) hbase).reaches
  have hpass := hfits'.of_reaches s'.continues_pass.reaches
  have hpassed := Nat.le_trans s'.pass.continues_skipSpaces.column_le hcolumn
  have hlt := Nat.lt_of_lt_of_le (column_lt_pass hmark) hpassed
  have hbefore := before_mended text hmark hpassed
  rw [← skipSpaces_mended hpass hcolumn] at hright
  refine .signed (sign_mended hfits ?_ hsign)
    (.after (run_mended (c := .primary) hfits hbase hlt) ?_)
  · exact Nat.le_trans (nextColumn_le_of_primary hbase) (Nat.le_of_lt hlt)
  · rw [Leaves, power_apply, if_pos (by rw [Ending.mark?_reader hfits' hbefore, hmark]),
      Ending.pass_reader hfits' hbefore]
    exact Leaves.operation hlimits (follow_mended hpass hcolumn hfollow hkind) hright

/-! ### Behind an error of the call itself -/

omit hlimits in
/-- A zero is an operand where none or no number was found. -/
theorem completes_primary (hfits : ∀ text, (e.mended text).Fits s)
    (hcolumn : s.nextColumn = e.column) (hkind : e.kind ≠ .unclosedParenthesis) :
    Completes rules .primary s e := by
  refine ⟨[], fun r hr => ?_⟩
  rw [Call.run, Leaves, ← primary_skipSpaces,
    skipSpaces_mended (hfits _) (Nat.le_of_eq hcolumn)]
  exact leaves_zero_primary (rest_mended hkind hcolumn) hr

omit hlimits in
/-- A parenthesis closes the group. -/
theorem completes_unclosed {inner : Measured} (hstrict : rules.strict = true)
    (hfits : ∀ text, (ParseError.mended ⟨.unclosedParenthesis, s'.nextColumn⟩ text).Fits s)
    (hmark : Token.mark? s.tokens = some '(') (hinner : expression rules s.pass = .ok inner s') :
    Completes rules .primary s ⟨.unclosedParenthesis, s'.nextColumn⟩ := by
  refine ⟨[], fun r hr => ?_⟩
  have hcontinues := Call.continues_of_run (c := .chain .sum) hinner
  have hbefore := before_mended (e := ⟨.unclosedParenthesis, s'.nextColumn⟩) ([] ++ r) hmark
    (Nat.le_trans hcontinues.column_le s'.continues_skipSpaces.column_le)
  have hplace : s'.cursor.position = s'.nextColumn - 1 := by
    rw [Reader.nextColumn, (settled_of_chain hinner).skipSpaces_eq]
    rfl
  have hinner' := Ending.run_of_covers (c := .chain .sum)
    ((hfits ([] ++ r)).of_reaches s.continues_pass.reaches) hinner
    (.inr ⟨hplace, .inr ⟨hstrict, rfl⟩⟩)
  rw [Call.run, Leaves, primary_of_group (by rw [Ending.mark?_reader (hfits _) hbefore, hmark]),
    Ending.pass_reader (hfits _) hbefore]
  exact Leaves.after hinner' (leaves_close (Ending.rest_reader hplace))

theorem completes_of_refuses (hfits : ∀ text, (e.mended text).Fits s)
    (h : Refuses rules c s e) : Completes rules c s e := by
  cases h with
  | nesting hlimit =>
    rw [hlimits] at hlimit
    cases hlimit
  | height hjoins hheight =>
    rw [hlimits] at hheight
    cases hheight
  | @operator rank op _ left hop hreject =>
    refine ⟨[], fun r hr => ?_⟩
    exact leaves_tail_mended hlimits hop (hfits _) (Nat.le_refl _) (.inr rfl) (fun _ => nofun)
      (leaves_zero_operand hlimits rank (rest_mended nofun rfl) hr) hr
  | powerOperator hsign hbase hmark hreject =>
    refine ⟨[], fun r hr => ?_⟩
    exact leaves_signed_mended hlimits (hfits _) hsign hbase hmark (Nat.le_refl _) (.inr rfl)
      (fun _ => nofun) (leaves_zero_factor hlimits (rest_mended nofun rfl) hr)
  | number htokens hread => exact completes_primary hfits rfl nofun
  | missing hstrict hlacks => exact completes_primary hfits rfl nofun
  | unclosed hstrict hmark hinner hclose => exact completes_unclosed hstrict hfits hmark hinner

/-! ### Behind an error of a call that it makes -/

omit hlimits in
theorem completes_of_tail {rank : Rank} {left : Measured} (hfits : ∀ text, (e.mended text).Fits s)
    (hleft : operand rules rank s = .ok left s') (h : tail rules rank left s' = .error e q)
    (ih : Completes rules (.tail rank left) s' e) : Completes rules (.chain rank) s e := by
  obtain ⟨k, hk⟩ := ih
  refine ⟨k, fun r hr => ?_⟩
  rw [← Call.run_operand] at hleft
  have hleft' := run_mended (hfits (k ++ r)) hleft (column_lt_of_tail h)
  rw [Call.run_operand] at hleft'
  rw [Call.run, chain_eq]
  exact .after hleft' (hk r hr)

omit hlimits in
theorem completes_of_next {rank : Rank} {op : BinaryOp} {left node : Measured}
    (hfits : ∀ text, (e.mended text).Fits s)
    (hop : (Token.mark? s.tokens).bind rank.operator? = some op)
    (hnode : operation rules (operand rules rank) op s.nextColumn left s.pass = .ok node s')
    (h : tail rules rank node s' = .error e q) (ih : Completes rules (.tail rank node) s' e) :
    Completes rules (.tail rank left) s e := by
  obtain ⟨k, hk⟩ := ih
  refine ⟨k, fun r hr => ?_⟩
  have hpass := (hfits (k ++ r)).of_reaches s.continues_pass.reaches
  have hlt := column_lt_of_tail h
  have hcontinues := continues_of_operation (continues_operand rules rank) hnode
  have hbefore := before_mended (k ++ r) (mark?_of_operator? hop).1
    (Nat.le_trans hcontinues.column_le (Nat.le_of_lt hlt))
  have hnode' := Ending.operation_of_covers hpass hnode (.inl (Nat.lt_sub_of_add_lt hlt))
  rw [Call.run, Leaves, tail_apply, Ending.mark?_reader (hfits _) hbefore, hop,
    Ending.nextColumn_reader (hfits _) hbefore, Ending.pass_reader (hfits _) hbefore]
  exact Leaves.after hnode' (hk r hr)

theorem completes_of_sign {sign : Sign} (hfits : ∀ text, (e.mended text).Fits s)
    (hsign : (Token.mark? s.tokens).bind Sign.ofChar? = some sign)
    (hcolumn : s.pass.cursor.column ≤ e.column)
    (ih : Completes rules .factor (s.pass.note (.signed sign s.nextColumn)) e) :
    Completes rules .signed s e := by
  obtain ⟨k, hk⟩ := ih
  refine ⟨k, fun r hr => ?_⟩
  have hbefore := before_mended (k ++ r) (mark?_of_sign? hsign) hcolumn
  rw [Call.run, Leaves, signed_apply, Ending.mark?_reader (hfits _) hbefore, hsign,
    Ending.nextColumn_reader (hfits _) hbefore, Ending.pass_reader (hfits _) hbefore]
  exact (hk r hr).bind fun _ _ hrest => leaves_unary hlimits hrest

omit hlimits in
/-- A parenthesis is needed behind the group if the rules are strict. -/
theorem completes_of_group (hfits : ∀ text, (e.mended text).Fits s)
    (hmark : Token.mark? s.tokens = some '(') (hcolumn : s.pass.cursor.column ≤ e.column)
    (ih : Completes rules (.chain .sum) s.pass e) : Completes rules .primary s e := by
  obtain ⟨k, hk⟩ := ih
  have hgroup : ∀ text, primary rules ((e.mended text).reader s) =
      (expression rules >>= close rules) ((e.mended text).reader s.pass) := by
    intro text
    have hbefore := before_mended text hmark hcolumn
    rw [primary_of_group (by rw [Ending.mark?_reader (hfits text) hbefore, hmark]),
      Ending.pass_reader (hfits text) hbefore]
  by_cases hstrict : rules.strict = true
  · refine ⟨k ++ [')'], fun r hr => ?_⟩
    rw [Call.run, Leaves, hgroup, List.append_assoc]
    exact (hk (')' :: r) (.inr ⟨hstrict, rfl⟩)).bind fun inner _ hrest => leaves_close hrest
  · refine ⟨k, fun r hr => ?_⟩
    rw [Call.run, Leaves, hgroup]
    refine (hk r hr).bind fun inner q hrest => ?_
    obtain rfl : r = [] := hr.resolve_right fun h => hstrict h.1
    exact leaves_close_end hstrict hrest

theorem completes_of_argument {run : List Char} {ts : List Token} {function : Function}
    (hfits : ∀ text, (e.mended text).Fits s) (htokens : s.tokens = .word run :: ts)
    (hname : Function.ofName? (String.ofList run) = some function)
    (hcolumn : (s.passRun Char.isLower).cursor.column ≤ e.column)
    (ih : Completes rules .factor
      ((s.passRun Char.isLower).note (.called function s.nextColumn)) e) :
    Completes rules .primary s e := by
  obtain ⟨k, hk⟩ := ih
  refine ⟨k, fun r hr => ?_⟩
  have hle : (s.passRun Char.isLower).cursor.position ≤ (e.mended (k ++ r)).place :=
    Nat.le_sub_one_of_lt hcolumn
  have hends : (e.mended (k ++ r)).Ends Char.isLower := by
    intro d hd
    rcases ParseError.head_mended hd with rfl | rfl
    · rfl
    · rfl
  obtain ⟨htokens', hcolumn', hpass⟩ := Ending.word_reader (hfits (k ++ r)) htokens
    ((Nat.lt_or_eq_of_le hle).imp_right fun hplace => ⟨hplace, hends⟩)
  rw [Call.run, Leaves, primary_of_call htokens' hname, hcolumn', hpass]
  exact (hk r hr).bind fun _ _ hrest => leaves_call hlimits hrest

theorem completes_of_calls (hfits : ∀ text, (e.mended text).Fits s) (hcalls : Calls rules c s c' s')
    (h : c'.run rules s' = .error e q) (ih : Completes rules c' s' e) : Completes rules c s e := by
  have hcolumn := column_le_of_run h
  cases hcalls with
  | operand rank =>
    obtain ⟨k, hk⟩ := ih
    refine ⟨k, fun r hr => .chain ?_ hr⟩
    rw [← Call.run_operand]
    exact hk r hr
  | tail hleft => exact completes_of_tail hfits hleft h ih
  | right left hop hfollow =>
    obtain ⟨k, hk⟩ := ih
    refine ⟨k, fun r hr => ?_⟩
    refine leaves_tail_mended hlimits hop (hfits _) hcolumn (.inl hfollow)
      (kind_ne_of_column_eq h) ?_ hr
    rw [← Call.run_operand]
    exact hk r hr
  | next hop hnode => exact completes_of_next hfits hop hnode h ih
  | enter hlimit =>
    obtain ⟨k, hk⟩ := ih
    exact ⟨k, fun r hr => .factor hlimits (hk r hr)⟩
  | sign hsign => exact completes_of_sign hlimits hfits hsign hcolumn ih
  | base hsign =>
    obtain ⟨k, hk⟩ := ih
    refine ⟨k, fun r hr => .signed (sign_mended (hfits _) ?_ hsign) (.power (hk r hr) hr)⟩
    rw [Call.run, ← primary_skipSpaces] at h
    exact column_le_of_run (c := .primary) h
  | exponent hsign hbase hmark hfollow =>
    obtain ⟨k, hk⟩ := ih
    refine ⟨k, fun r hr => ?_⟩
    exact leaves_signed_mended hlimits (hfits _) hsign hbase hmark hcolumn (.inl hfollow)
      (kind_ne_of_column_eq h) (hk r hr)
  | group hmark => exact completes_of_group hfits hmark hcolumn ih
  | argument htokens hname => exact completes_of_argument hlimits hfits htokens hname hcolumn ih

/-- By induction along the calls. -/
theorem completes_run (c : Call) (s : Reader) :
    ∀ e q, c.run rules s = .error e q → Completes rules c s e := by
  induction c, s using Calls.induction rules with
  | h c s ih =>
    intro e q h
    have hfits := fits_mended h
    rcases raised_of_run h with hrefuses | ⟨c', s', q', hcalls, h'⟩
    · exact completes_of_refuses hlimits hfits hrefuses
    · exact completes_of_calls hlimits hfits hcalls h' (ih c' s' hcalls e q' h')

end Unlimited

end Grammar

/-! ## Texts -/

namespace Expr

open Grammar

variable {rules : Rules} {source : String} {e : ParseError}

theorem parse_of_leaves {s : Reader} {t : Measured} (f : Ending)
    (h : expression rules (f.reader (.ofText source)) = .ok t s) (hend : s.cursor.rest = []) :
    Expr.parse rules (f.ended source) = .ok t.expr := by
  rw [Ending.reader_ofText] at h
  refine parse_eq_ok_iff.2 ⟨t, s, h, ?_, rfl⟩
  rw [Reader.tokens, hend, Token.ofText_nil]

/-- Without bounds, the text before an error can be completed. -/
theorem exists_parse_of_error (hlimits : rules.limits = .unlimited)
    (h : Expr.parse rules source = .error e) :
    ∃ w t, Expr.parse rules (.ofList (source.toList.take (e.column - 1)) ++ w) = .ok t := by
  have hended : ∀ text, Ending.ended ⟨e.column - 1, text⟩ source =
      .ofList (source.toList.take (e.column - 1)) ++ .ofList text := fun _ => String.ofList_append
  rcases parse_eq_error_iff.1 h with ⟨q, hq⟩ | ⟨t, s, c, hok, -, rfl⟩
  · obtain ⟨k, hk⟩ := completes_run hlimits (.chain .sum) (.ofText source) e q hq
    obtain ⟨t, s, ht, hend⟩ := hk [] (.inl rfl)
    refine ⟨.ofList (e.kind.mend ++ (k ++ [])), t.expr, ?_⟩
    rw [← hended]
    exact parse_of_leaves _ ht hend
  · -- What was read up to the character is an expression.
    have hfits : Ending.Fits ⟨s.cursor.position, []⟩ (.ofText source) := by
      obtain ⟨read, hrest, hposition⟩ :=
        (Call.continues_of_run (c := .chain .sum) hok).reaches
      rw [Ending.Fits, hposition, Reader.left, hrest, List.length_append]
      exact Nat.add_le_add_left (Nat.le_add_right _ _) _
    have hok' := Ending.run_of_covers (c := .chain .sum) hfits hok (.inr ⟨rfl, .inl rfl⟩)
    refine ⟨.ofList [], t.expr, ?_⟩
    rw [← hended]
    exact parse_of_leaves _ hok' (Ending.rest_reader rfl)

theorem literal_of_parse_error {literal : String} (h : Expr.parse rules source = .error e)
    (hkind : e.kind = .invalidNumber literal) :
    ∃ before after, source.toList = before ++ (literal.toList ++ after) ∧
      e.column = before.length + 1 ∧ 0 < literal.length := by
  obtain ⟨n, c, s, hreached, hrefuses⟩ := exists_refuses_of_parse h (by rw [hkind]; nofun)
  cases hrefuses with
  | @number run ts _ htokens hread =>
    cases hkind
    obtain ⟨hrun, d, hlook, hd⟩ := Reader.look_of_number htokens
    obtain ⟨before, hbefore, hposition⟩ := hreached.reaches.trans s.cursor.reaches_skipSpaces
    refine ⟨before, (s.passRun isNumberChar).cursor.rest, ?_, ?_, ?_⟩
    · rw [String.toList_ofList, hrun]
      exact hbefore.trans (congrArg _ List.takeWhile_append_dropWhile.symm)
    · exact congrArg (· + 1) (hposition.trans (Nat.zero_add _))
    · rw [String.length_ofList, hrun, Cursor.rest_eq_cons hlook, List.takeWhile_cons_of_pos hd]
      exact Nat.succ_pos _
  | nesting | height | operator | powerOperator | missing | unclosed => cases hkind

/-- Nothing behind the column of the error is seen, unless it is a number. -/
theorem parse_error_of_take_eq {other : String} (h : Expr.parse rules source = .error e)
    (hkind : ∀ literal, e.kind ≠ .invalidNumber literal) (hcolumn : e.column ≤ source.length)
    (hother : other.toList.take e.column = source.toList.take e.column) :
    Expr.parse rules other = .error e := by
  let f : Ending := ⟨e.column, other.toList.drop e.column⟩
  have hended : f.ended source = other := by
    rw [Ending.ended, ← hother, List.take_append_drop, String.ofList_toList]
  have hshows : f.Shows e := ⟨Nat.le_refl _, fun literal hl => absurd hl (hkind literal)⟩
  rw [← hended]
  exact Ending.parse_ended_error hcolumn h hshows

/-- Of what is behind a number that cannot be read, it is only seen that the number ends. -/
theorem parse_error_of_literal {literal rest : String} (h : Expr.parse rules source = .error e)
    (hkind : e.kind = .invalidNumber literal)
    (hrest : ∀ c ∈ rest.toList.head?, isNumberChar c = false) :
    Expr.parse rules (.ofList (source.toList.take (e.column - 1)) ++ literal ++ rest) =
      .error e := by
  obtain ⟨before, after, hsource, hcolumn, hpos⟩ := literal_of_parse_error h hkind
  let f : Ending := ⟨before.length + literal.length, rest.toList⟩
  have hlength : literal.toList.length = literal.length := String.length_toList
  have htake : source.toList.take f.place = before ++ literal.toList := by
    rw [hsource, List.take_length_add_append, List.take_left' hlength]
  have hbefore : source.toList.take (e.column - 1) = before := by
    rw [hsource, hcolumn, Nat.add_sub_cancel, List.take_left]
  have hended : f.ended source =
      .ofList (source.toList.take (e.column - 1)) ++ literal ++ rest := by
    rw [Ending.ended, htake, hbefore, String.ofList_append, String.ofList_append,
      String.ofList_toList, String.ofList_toList]
  have hplace : f.place ≤ source.length := by
    rw [← String.length_toList, hsource, List.length_append, List.length_append, hlength]
    exact Nat.add_le_add_left (Nat.le_add_right _ _) _
  have hshows : f.Shows e := by
    refine ⟨?_, fun literal' hkind' => .inr ⟨?_, hrest⟩⟩
    · rw [hcolumn]
      exact Nat.add_le_add_left hpos _
    · rw [hkind] at hkind'
      cases hkind'
      rw [hcolumn]
      exact Nat.add_right_comm _ _ _
  rw [← hended]
  exact Ending.parse_ended_error hplace h hshows

end Expr

/-- An error stands at the first place where the text cannot go on, and does not depend on what
comes behind that place. -/
theorem parse_error_prefix (strict : Bool) {source : String} {e : ParseError}
    (h : Expr.parse ⟨strict, .standard⟩ source = .error e) :
    (e.kind ≠ .tooDeeplyNested → ∃ w t,
      Expr.parse ⟨strict, .unlimited⟩ (.ofList (source.toList.take (e.column - 1)) ++ w) =
        .ok t) ∧
    ((∀ literal, e.kind ≠ .invalidNumber literal) → e.column ≤ source.length →
      ∀ other : String, other.toList.take e.column = source.toList.take e.column →
        Expr.parse ⟨strict, .standard⟩ other = .error e) ∧
    ∀ literal, e.kind = .invalidNumber literal →
      ∀ rest : String, (∀ c ∈ rest.toList.head?, isNumberChar c = false) →
        Expr.parse ⟨strict, .standard⟩
          (.ofList (source.toList.take (e.column - 1)) ++ literal ++ rest) = .error e := by
  refine ⟨?_, ?_, ?_⟩
  · intro hkind
    rcases Expr.parse_narrows (Rules.bounded_tighter_unlimited strict .standard) source with
      hsame | ⟨e', he', hadds, -⟩
    · rw [hsame] at h
      exact Expr.exists_parse_of_error rfl h
    · rw [h] at he'
      cases he'
      exact absurd (Rules.eq_of_adds_bounded hadds) hkind
  · intro hkind hcolumn other hother
    exact Expr.parse_error_of_take_eq h hkind hcolumn hother
  · intro literal hkind rest hrest
    exact Expr.parse_error_of_literal h hkind hrest

theorem parse_error_prefix_difference :
    (∃ w t, Expr.parse ⟨true, .unlimited⟩ (.ofList ("(x - ) + y".toList.take 5) ++ w) = .ok t) ∧
      Expr.parse ⟨true, .standard⟩ "(x - )" = .error ⟨.unexpectedOperator, 6⟩ := by
  have h : Expr.parse ⟨true, .standard⟩ "(x - ) + y" = .error ⟨.unexpectedOperator, 6⟩ := by
    decide +kernel
  obtain ⟨hviable, hsame, -⟩ := parse_error_prefix true h
  exact ⟨hviable (by decide), hsame (fun _ h => by cases h) (by decide) "(x - )" (by decide)⟩

end Calculator
