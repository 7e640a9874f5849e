import Calculator.Proofs.Grammar.Refusal

/-!
# Readings at other columns

Two readers that see the same tokens, the second one at moved columns, read on beside each
other. They build the same trees at moved columns and meet the same errors. Only an error
about deep nesting may stand elsewhere: it is reported where the reader stands, and spaces
before a token belong to no token.
-/

namespace Calculator

/-- The tree with its columns moved. -/
def Expr.mapColumns (f : Nat → Nat) : Expr → Expr
  | .number value column => .number value (f column)
  | .var name column => .var name (f column)
  | .unary sign operand column => .unary sign (operand.mapColumns f) (f column)
  | .binary op left right column =>
      .binary op (left.mapColumns f) (right.mapColumns f) (f column)
  | .call function argument column => .call function (argument.mapColumns f) (f column)

def Measured.mapColumns (f : Nat → Nat) (t : Measured) : Measured :=
  { t with expr := t.expr.mapColumns f }

/-- The next character is the first one of the next token. -/
theorem Reader.look_eq_head (s : Reader) :
    s.skipSpaces.cursor.current? = s.tokens.head?.bind fun t => t.text.head? := by
  cases s.ahead with
  | nothing htokens hlook => rw [htokens, hlook]; rfl
  | mark c hc htokens hlook => rw [htokens, hlook]; rfl
  | number c hc htokens hlook =>
    rw [htokens, hlook, Cursor.rest_eq_cons hlook, List.takeWhile_cons_of_pos hc]
    rfl
  | word c hc htokens hlook =>
    rw [htokens, hlook, Cursor.rest_eq_cons hlook, List.takeWhile_cons_of_pos hc]
    rfl

namespace Grammar

open Step

/-- The call at moved columns. -/
def Call.mapColumns (f : Nat → Nat) : Call → Call
  | tail rank left => tail rank (left.mapColumns f)
  | chain rank => chain rank
  | factor => factor
  | signed => signed
  | primary => primary

theorem Call.mapColumns_operand (f : Nat → Nat) (rank : Rank) :
    (Call.operand rank).mapColumns f = Call.operand rank := by
  cases rank <;> rfl

/-- Joined places show the same tokens at moved columns, and behind each token they are joined
again. -/
structure Transport (f : Nat → Nat) (R : Cursor → Cursor → Prop) : Prop where
  tokens_eq : ∀ {s q : Reader}, R s.cursor q.cursor → q.tokens = s.tokens
  nextColumn_eq : ∀ {s q : Reader}, R s.cursor q.cursor → q.nextColumn = f s.nextColumn
  skipSpaces : ∀ {s q : Reader}, R s.cursor q.cursor → R s.skipSpaces.cursor q.skipSpaces.cursor
  pass : ∀ {s q : Reader} {c : Char}, R s.cursor q.cursor → Token.mark? s.tokens = some c →
    R s.pass.cursor q.pass.cursor
  passNumber : ∀ {s q : Reader} {run : List Char} {ts : List Token}, R s.cursor q.cursor →
    s.tokens = .number run :: ts →
    R (s.passRun isNumberChar).cursor (q.passRun isNumberChar).cursor
  passWord : ∀ {s q : Reader} {run : List Char} {ts : List Token}, R s.cursor q.cursor →
    s.tokens = .word run :: ts →
    R (s.passRun Char.isLower).cursor (q.passRun Char.isLower).cursor

/-- The readers stand at joined places. -/
structure Beside (R : Cursor → Cursor → Prop) (s q : Reader) : Prop where
  cursor : R s.cursor q.cursor
  openFactors_eq : q.openFactors = s.openFactors

/-- The errors are of one kind. The second stands at the moved column, or both are about deep
nesting and stand at joined places. -/
structure Matches (f : Nat → Nat) (R : Cursor → Cursor → Prop) (e e' : ParseError) : Prop where
  kind_eq : e'.kind = e.kind
  column : e'.column = f e.column ∨
    e.kind = .tooDeeplyNested ∧ ∃ c d, R c d ∧ e.column = c.column ∧ e'.column = d.column

/-- The second outcome is the first one at moved columns. -/
inductive Alike (f : Nat → Nat) (R : Cursor → Cursor → Prop) :
    EStateM.Result ParseError Reader Measured →
    EStateM.Result ParseError Reader Measured → Prop where
  | ok (t : Measured) {s q : Reader} (h : Beside R s q) :
      Alike f R (.ok t s) (.ok (t.mapColumns f) q)
  | error {e e' : ParseError} (h : Matches f R e e') (s q : Reader) :
      Alike f R (.error e s) (.error e' q)

variable {f : Nat → Nat} {R : Cursor → Cursor → Prop} {rules : Rules} {s q : Reader}

theorem Matches.moved (kind : ParseError.Kind) {column column' : Nat} (h : column' = f column) :
    Matches f R ⟨kind, column⟩ ⟨kind, column'⟩ :=
  ⟨rfl, .inl h⟩

theorem Matches.here (h : R s.cursor q.cursor) :
    Matches f R ⟨.tooDeeplyNested, s.cursor.column⟩ ⟨.tooDeeplyNested, q.cursor.column⟩ :=
  ⟨rfl, .inr ⟨rfl, _, _, h, rfl, rfl⟩⟩

namespace Beside

theorem enter (h : Beside R s q) : Beside R s.enter q.enter :=
  ⟨h.cursor, congrArg (· + 1) h.openFactors_eq⟩

theorem leave (h : Beside R s q) : Beside R s.leave q.leave :=
  ⟨h.cursor, congrArg (· - 1) h.openFactors_eq⟩

theorem note (h : Beside R s q) (e e' : ParseEvent) : Beside R (s.note e) (q.note e') :=
  ⟨h.cursor, h.openFactors_eq⟩

end Beside

namespace Alike

theorem bind {a a' : Step Measured} {k k' : Measured → Step Measured} (h : Alike f R (a s) (a' q))
    (hok : ∀ t s' q', a s = .ok t s' → Beside R s' q' →
      Alike f R (k t s') (k' (t.mapColumns f) q')) :
    Alike f R ((a >>= k) s) ((a' >>= k') q) := by
  rw [bind_apply, bind_apply]
  generalize hr : a s = r at h
  generalize a' q = r' at h
  cases h with
  | ok t h => exact hok t _ _ hr h
  | error h s' q' => exact .error h s' q'

/-- A bound that is kept or exceeded at both places. -/
theorem bounded (h : Beside R s q) (b : Bool) (t : Measured) :
    Alike f R (if b then .ok t s else .error ⟨.tooDeeplyNested, s.cursor.column⟩ s)
      (if b then .ok (t.mapColumns f) q else .error ⟨.tooDeeplyNested, q.cursor.column⟩ q) := by
  cases b with
  | true => exact .ok t h
  | false => exact .error (.here h.cursor) s q

theorem leave {r r' : EStateM.Result ParseError Reader Measured} :
    Alike f R r r' → Alike f R
      (match r with
        | .ok t s => .ok t s.leave
        | .error e s => .error e s.leave)
      (match r' with
        | .ok t s => .ok t s.leave
        | .error e s => .error e s.leave) := by
  intro h
  cases h with
  | ok t h => exact .ok t h.leave
  | error h s q => exact .error h s.leave q.leave

end Alike

/-! ## Steps beside each other -/

theorem alike_binary (h : Beside R s q) (op : BinaryOp) {column column' : Nat}
    (hcolumn : column' = f column) (left right : Measured) :
    Alike f R (binary rules op column left right s)
      (binary rules op column' (left.mapColumns f) (right.mapColumns f) q) := by
  subst hcolumn
  rw [binary_apply, binary_apply]
  exact .bounded h _ ⟨.binary op left.expr right.expr column, _⟩

theorem alike_unary (h : Beside R s q) (sign : Sign) {column column' : Nat}
    (hcolumn : column' = f column) (operand : Measured) :
    Alike f R (unary rules sign column operand s)
      (unary rules sign column' (operand.mapColumns f) q) := by
  subst hcolumn
  rw [unary_apply, unary_apply]
  exact .bounded h _ ⟨.unary sign operand.expr column, _⟩

theorem alike_call (h : Beside R s q) (function : Function) {column column' : Nat}
    (hcolumn : column' = f column) (argument : Measured) :
    Alike f R (call rules function column argument s)
      (call rules function column' (argument.mapColumns f) q) := by
  subst hcolumn
  rw [call_apply, call_apply]
  exact .bounded h _ ⟨.call function argument.expr column, _⟩

namespace Transport

variable (hR : Transport f R)
include hR

theorem look_eq (h : Beside R s q) :
    q.skipSpaces.cursor.current? = s.skipSpaces.cursor.current? := by
  rw [Reader.look_eq_head, Reader.look_eq_head, hR.tokens_eq h.cursor]

theorem beside_skipSpaces (h : Beside R s q) : Beside R s.skipSpaces q.skipSpaces :=
  ⟨hR.skipSpaces h.cursor, h.openFactors_eq⟩

theorem beside_pass {c : Char} (h : Beside R s q) (hmark : Token.mark? s.tokens = some c) :
    Beside R s.pass q.pass :=
  ⟨hR.pass h.cursor hmark, h.openFactors_eq⟩

theorem alike_missingOperand (h : Beside R s q) :
    Alike f R (missingOperand rules s.skipSpaces) (missingOperand rules q.skipSpaces) := by
  have hcolumn : q.skipSpaces.cursor.column = f s.skipSpaces.cursor.column :=
    hR.nextColumn_eq h.cursor
  rw [missingOperand_apply, missingOperand_apply, hR.look_eq h, hcolumn]
  split
  · exact .error (.moved _ rfl) _ _
  · exact .ok ⟨.number 0.0 s.skipSpaces.cursor.column, 1⟩ (hR.beside_skipSpaces h)

theorem alike_close (h : Beside R s q) (inner : Measured) :
    Alike f R (close rules inner s) (close rules (inner.mapColumns f) q) := by
  rw [close_apply, close_apply, hR.tokens_eq h.cursor]
  split
  · next hclose => exact .ok inner (hR.beside_pass h hclose)
  · split
    · exact .error (.moved _ (hR.nextColumn_eq h.cursor)) _ _
    · exact .ok inner (hR.beside_skipSpaces h)

theorem alike_operation {operand : Step Measured} (op : BinaryOp) {column column' : Nat}
    (hcolumn : column' = f column) (left : Measured) (h : Beside R s q)
    (hoperand : (Token.mark? s.tokens).any isOperatorChar = false →
      Alike f R (operand s.skipSpaces) (operand q.skipSpaces)) :
    Alike f R (operation rules operand op column left s)
      (operation rules operand op column' (left.mapColumns f) q) := by
  rw [operation, operation, bind_apply, bind_apply, rejectOperator_apply, rejectOperator_apply,
    hR.tokens_eq h.cursor]
  cases hreject : (Token.mark? s.tokens).any isOperatorChar with
  | true => exact .error (.moved _ (hR.nextColumn_eq h.cursor)) _ _
  | false =>
    refine (hoperand hreject).bind ?_
    intro right s' q' _ h'
    exact alike_binary h' op hcolumn left right

/-! ## Calls beside each other -/

omit hR in
/-- Wherever a reader stands beside the first one, the call comes to the same at moved
columns. -/
def AlikeAt (f : Nat → Nat) (R : Cursor → Cursor → Prop) (rules : Rules) (c : Call)
    (s : Reader) : Prop :=
  ∀ q, Beside R s q → Alike f R (c.run rules s) ((c.mapColumns f).run rules q)

variable {rank : Rank} {left : Measured}

omit hR in
theorem alike_operand (ih : AlikeAt f R rules (.operand rank) s) (h : Beside R s q) :
    Alike f R (operand rules rank s) (operand rules rank q) := by
  have hrun := ih q h
  rwa [Call.mapColumns_operand, Call.run_operand] at hrun

omit hR in
theorem alike_chain (ih : ∀ c s', Calls rules (.chain rank) s c s' → AlikeAt f R rules c s') :
    AlikeAt f R rules (.chain rank) s := by
  intro q h
  rw [Call.mapColumns, Call.run, chain_eq]
  refine (alike_operand (ih _ _ (.operand rank s)) h).bind ?_
  intro left s' q' hleft h'
  exact ih _ _ (.tail hleft) q' h'

theorem alike_tail (ih : ∀ c s', Calls rules (.tail rank left) s c s' → AlikeAt f R rules c s') :
    AlikeAt f R rules (.tail rank left) s := by
  intro q h
  rw [Call.mapColumns, Call.run, Call.run, tail_apply, tail_apply, hR.tokens_eq h.cursor]
  cases hop : (Token.mark? s.tokens).bind rank.operator? with
  | none => exact .ok left (hR.beside_skipSpaces h)
  | some op =>
    have hpass := hR.beside_pass h (mark?_of_operator? hop).1
    refine (hR.alike_operation op (hR.nextColumn_eq h.cursor) left hpass fun hfollow => ?_).bind ?_
    · exact alike_operand (ih _ _ (.right left hop hfollow)) (hR.beside_skipSpaces hpass)
    · intro node s' q' hnode h'
      exact ih _ _ (.next hop hnode) q' h'

omit hR in
theorem alike_factor (ih : ∀ c s', Calls rules .factor s c s' → AlikeAt f R rules c s') :
    AlikeAt f R rules .factor s := by
  intro q h
  rw [Call.mapColumns, Call.run, factor_eq, factor_eq, h.openFactors_eq]
  by_cases hlimit : withinLimit rules.limits.nesting (s.openFactors + 1) = true
  · rw [if_pos hlimit, if_pos hlimit]
    exact (ih _ _ (.enter hlimit) q.enter h.enter).leave
  · rw [if_neg hlimit, if_neg hlimit]
    exact .error (.here h.cursor) s q

theorem alike_power {base : Measured} (h : Beside R s q)
    (hexponent : Token.mark? s.tokens = some '^' →
      (Token.mark? s.pass.tokens).any isOperatorChar = false →
      AlikeAt f R rules .factor s.pass.skipSpaces) :
    Alike f R (power rules base s) (power rules (base.mapColumns f) q) := by
  rw [power_apply, power_apply, hR.tokens_eq h.cursor]
  by_cases hmark : Token.mark? s.tokens = some '^'
  · rw [if_pos hmark, if_pos hmark]
    have hpass := hR.beside_pass h hmark
    refine hR.alike_operation .pow (hR.nextColumn_eq h.cursor) base hpass fun hfollow => ?_
    exact hexponent hmark hfollow _ (hR.beside_skipSpaces hpass)
  · rw [if_neg hmark, if_neg hmark]
    exact .ok base (hR.beside_skipSpaces h)

theorem alike_signed (ih : ∀ c s', Calls rules .signed s c s' → AlikeAt f R rules c s') :
    AlikeAt f R rules .signed s := by
  intro q h
  rw [Call.mapColumns, Call.run, signed_apply, signed_apply, hR.tokens_eq h.cursor]
  cases hsign : (Token.mark? s.tokens).bind Sign.ofChar? with
  | some sign =>
    refine Alike.bind (ih _ _ (.sign hsign) _ ?_) ?_
    · exact (hR.beside_pass h (mark?_of_sign? hsign)).note _ _
    · intro operand s' q' _ h'
      exact alike_unary h' sign (hR.nextColumn_eq h.cursor) operand
  | none =>
    refine Alike.bind (ih _ _ (.base hsign) q h) ?_
    intro base s' q' hbase h'
    exact hR.alike_power h' fun hmark hfollow => ih _ _ (.exponent hsign hbase hmark hfollow)

theorem alike_primary (ih : ∀ c s', Calls rules .primary s c s' → AlikeAt f R rules c s') :
    AlikeAt f R rules .primary s := by
  intro q h
  have hcolumn := hR.nextColumn_eq h.cursor
  rw [Call.mapColumns, Call.run, primary_apply, primary_apply, hR.tokens_eq h.cursor, hcolumn]
  split
  · next c ts htokens =>
    split
    · next hgroup =>
      subst hgroup
      have hmark : Token.mark? s.tokens = some '(' := by rw [htokens]; rfl
      refine Alike.bind (ih _ _ (.group hmark) _ (hR.beside_pass h hmark)) ?_
      intro inner s' q' _ h'
      exact hR.alike_close h' inner
    · exact hR.alike_missingOperand h
  · next run ts htokens =>
    cases Numeral.read? run with
    | some value =>
      exact .ok ⟨.number value s.nextColumn, 1⟩ ⟨hR.passNumber h.cursor htokens, h.openFactors_eq⟩
    | none => exact .error (.moved _ rfl) _ _
  · next run ts htokens =>
    have hpass : Beside R (s.passRun Char.isLower) (q.passRun Char.isLower) :=
      ⟨hR.passWord h.cursor htokens, h.openFactors_eq⟩
    cases hname : Function.ofName? (String.ofList run) with
    | some function =>
      refine Alike.bind (ih _ _ (.argument htokens hname) _ (hpass.note _ _)) ?_
      intro argument s' q' _ h'
      exact alike_call h' function rfl argument
    | none => exact .ok ⟨.var (String.ofList run) s.nextColumn, 1⟩ hpass
  · exact hR.alike_missingOperand h

/-- By induction along the calls of the first reading. -/
theorem alike_run (c : Call) (s : Reader) : AlikeAt f R rules c s := by
  induction c, s using Calls.induction rules with
  | h c s ih =>
    cases c with
    | chain rank => exact alike_chain ih
    | tail rank left => exact hR.alike_tail ih
    | factor => exact alike_factor ih
    | signed => exact hR.alike_signed ih
    | primary => exact hR.alike_primary ih

end Transport

/-! ## Whole readings -/

/-- The second result is the first one at moved columns. -/
inductive Agree (f : Nat → Nat) (R : Cursor → Cursor → Prop) :
    Except ParseError Expr → Except ParseError Expr → Prop where
  | ok (t : Expr) : Agree f R (.ok t) (.ok (t.mapColumns f))
  | error {e e' : ParseError} (h : Matches f R e e') : Agree f R (.error e) (.error e')

end Grammar

open Grammar in
/-- Readers beside each other parse to the same result at moved columns. -/
theorem Reader.parse_agree {f : Nat → Nat} {R : Cursor → Cursor → Prop} (hR : Transport f R)
    (rules : Rules) {s q : Reader} (h : Beside R s q) :
    Agree f R (s.parse rules).1 (q.parse rules).1 := by
  have halike : Alike f R (expression rules s) (expression rules q) :=
    hR.alike_run (.chain .sum) s q h
  generalize hs : expression rules s = r at halike
  generalize hq : expression rules q = r' at halike
  cases halike with
  | @error e e' hmatches s' q' =>
    simp only [Reader.parse, complete, Step.bind_apply, hs, hq]
    exact .error hmatches
  | @ok t s' q' h' =>
    -- Both readers stand on the next token, if there is one.
    have hs' := (settled_of_chain hs).skipSpaces_eq
    have hq' := (settled_of_chain hq).skipSpaces_eq
    have hlook := hR.look_eq h'
    have hcolumn := hR.nextColumn_eq h'.cursor
    rw [Reader.nextColumn, Reader.nextColumn, hq', hs'] at hcolumn
    rw [hq', hs'] at hlook
    simp only [Reader.parse, complete_apply hs, complete_apply hq, hlook]
    cases s'.cursor.current? with
    | none => exact .ok t.expr
    | some c => exact .error (.moved _ hcolumn)

end Calculator
