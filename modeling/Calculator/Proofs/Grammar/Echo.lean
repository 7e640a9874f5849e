import Calculator.Proofs.Grammar.Ending
import Calculator.Proofs.Grammar.Tightening

/-!
# Readings that see no further

A reading sees the characters up to the place where it ends and the one that
comes next, and no more. In a text with another ending it therefore comes to the
same outcome, if the ending begins behind what was seen. It also does if the
ending begins where the reading stopped, and closes the expression there.
-/

namespace Calculator

namespace Grammar

open Step

variable {rules : Rules} {s : Reader}

/-- Only the rest of a chain may be nothing. -/
def Advances (rules : Rules) (c : Call) (s : Reader) : Prop :=
  (∀ rank left, c ≠ .tail rank left) → ∀ t s', c.run rules s = .ok t s' →
    s.cursor.position < s'.cursor.position

theorem advances_signed (ih : ∀ c s', Calls rules .signed s c s' → Advances rules c s') :
    Advances rules .signed s := by
  intro _ t s' h
  have hspaces := s.continues_skipSpaces.reaches.position_le
  cases signed_ok.1 h with
  | signed sign operand hsign hoperand hnode =>
    have hpass := Reader.position_pass (mark?_of_sign? hsign)
    have hle : s.pass.cursor.position ≤ s'.cursor.position :=
      (Call.continues_of_run (c := .factor) hoperand).reaches.position_le
    omega
  | unsigned base s₁ hsign hbase hpower =>
    have hlt := ih _ _ (.base hsign) nofun base s₁ hbase
    have hbeyond : Beyond s₁.cursor.column (power rules base s₁) := Forward.power base s₁
    rw [hpower] at hbeyond
    exact Nat.lt_of_lt_of_le hlt (Nat.le_of_succ_le_succ hbeyond)

/-- Strict rules find no operand where no token is. -/
theorem advances_primary (hstrict : rules.strict = true) : Advances rules .primary s := by
  intro _ t s' h
  have hspaces := s.continues_skipSpaces.reaches.position_le
  cases primary_ok.1 h with
  | group inner s₁ hmark hinner hclose =>
    have hpass := Reader.position_pass hmark
    have hle := (Call.continues_of_run (c := .chain .sum) hinner).reaches.position_le
    have hbeyond : Beyond s₁.cursor.column (close rules inner s₁) := Forward.close inner s₁
    rw [hclose] at hbeyond
    have hle' : s₁.cursor.position ≤ s'.cursor.position := Nat.le_of_succ_le_succ hbeyond
    omega
  | number run ts value htokens hvalue =>
    obtain ⟨-, d, hlook, hd⟩ := Reader.look_of_number htokens
    exact Nat.lt_of_le_of_lt hspaces (Reader.position_passRun_lt hlook hd)
  | call run ts function argument htokens hname hargument hnode =>
    obtain ⟨-, d, hlook, hd⟩ := Reader.look_of_word htokens
    have hlt := Reader.position_passRun_lt hlook hd
    have hle : (s.passRun Char.isLower).cursor.position ≤ s'.cursor.position :=
      (Call.continues_of_run (c := .factor) hargument).reaches.position_le
    omega
  | var run ts htokens hname =>
    obtain ⟨-, d, hlook, hd⟩ := Reader.look_of_word htokens
    exact Nat.lt_of_le_of_lt hspaces (Reader.position_passRun_lt hlook hd)
  | missing hpermissive hlacks =>
    rw [hstrict] at hpermissive
    cases hpermissive

theorem advances_run (hstrict : rules.strict = true) (c : Call) (s : Reader) :
    Advances rules c s := by
  induction c, s using Calls.induction rules with
  | h c s ih =>
    cases c with
    | chain rank =>
      intro _ t s' h
      obtain ⟨left, s₁, hleft, htail⟩ := chain_ok.1 h
      rw [← Call.run_operand] at hleft
      have hlt := ih _ _ (.operand rank s) (by cases rank <;> nofun) left s₁ hleft
      exact Nat.lt_of_lt_of_le hlt
        (Call.continues_of_run (c := .tail rank left) htail).reaches.position_le
    | tail rank left => exact fun hc => absurd rfl (hc rank left)
    | factor =>
      intro _ t s' h
      obtain ⟨hlimit, s₁, hsigned, rfl⟩ := factor_ok.1 h
      exact ih _ _ (.enter hlimit) nofun t s₁ hsigned
    | signed => exact advances_signed ih
    | primary => exact advances_primary hstrict

end Grammar

/-- Nothing comes, or the parenthesis that strict rules wait for. -/
def Rules.Closes (rules : Rules) (text : List Char) : Prop :=
  text = [] ∨ rules.strict = true ∧ text.head? = some ')'

theorem Rules.Closes.head_eq {rules : Rules} {text : List Char} (h : rules.Closes text)
    {d : Char} (hd : d ∈ text.head?) : d = ')' := by
  rcases h with rfl | ⟨-, h⟩
  · cases hd
  · rw [h] at hd
    exact (Option.some.inj hd).symm

namespace Ending

open Step Grammar

variable {f : Ending} {rules : Rules} {s : Reader}

/-- A reading that stops here has seen nothing of what the ending replaces, or the ending closes
what was read. -/
def Covers (f : Ending) (rules : Rules) (s : Reader) : Prop :=
  s.cursor.position < f.place ∨ s.cursor.position = f.place ∧ rules.Closes f.text

/-- A reading that fails in this way has seen nothing of what the ending replaces. A number is
seen as a whole, and with what comes behind it. -/
def Shows (f : Ending) (e : ParseError) : Prop :=
  e.column ≤ f.place ∧ ∀ literal, e.kind = .invalidNumber literal →
    e.column + literal.length ≤ f.place ∨
      e.column + literal.length = f.place + 1 ∧ f.Ends isNumberChar

def Covered (f : Ending) (rules : Rules) : EStateM.Result ParseError Reader Measured → Prop
  | .ok _ s => f.Covers rules s
  | .error e _ => f.Shows e

/-- The second outcome is the first one, in the text with the other ending. -/
inductive Echo (f : Ending) : EStateM.Result ParseError Reader Measured →
    EStateM.Result ParseError Reader Measured → Prop where
  | ok (t : Measured) (s : Reader) : Echo f (.ok t s) (.ok t (f.reader s))
  | error (e : ParseError) (q q' : Reader) : Echo f (.error e q) (.error e q')

theorem Echo.eq_ok {t : Measured} {s : Reader} {r : EStateM.Result ParseError Reader Measured}
    (h : f.Echo (.ok t s) r) : r = .ok t (f.reader s) := by
  cases h
  rfl

theorem Echo.eq_error {e : ParseError} {q : Reader}
    {r : EStateM.Result ParseError Reader Measured} (h : f.Echo (.error e q) r) :
    ∃ q', r = .error e q' := by
  cases h
  exact ⟨_, rfl⟩

/-- The outcomes are the same if the first one saw no further than to the ending. -/
def Echoes (f : Ending) (rules : Rules) (r r' : EStateM.Result ParseError Reader Measured) :
    Prop :=
  f.Covered rules r → f.Echo r r'

theorem Covers.of_le {s' : Reader} (h : f.Covers rules s')
    (hle : s.cursor.position ≤ s'.cursor.position) : f.Covers rules s := by
  rcases h with h | ⟨h, hcloses⟩
  · exact .inl (Nat.lt_of_le_of_lt hle h)
  · rcases Nat.lt_or_eq_of_le hle with hlt | heq
    · exact .inl (h ▸ hlt)
    · exact .inr ⟨heq.trans h, hcloses⟩

theorem Covers.le (h : f.Covers rules s) : s.cursor.position ≤ f.place := by
  rcases h with h | ⟨h, -⟩
  · exact Nat.le_of_lt h
  · exact Nat.le_of_eq h

theorem Covers.ends (h : f.Covers rules s) {p : Char → Bool} (hp : p ')' = false) :
    s.cursor.position < f.place ∨ s.cursor.position = f.place ∧ f.Ends p :=
  h.imp_right (And.imp_right fun hcloses d hd => by rwa [hcloses.head_eq hd])

theorem Covers.skipSpaces_reader (h : f.Covers rules s.skipSpaces) (hfits : f.Fits s) :
    (f.reader s).skipSpaces = f.reader s.skipSpaces :=
  Ending.skipSpaces_reader hfits (h.ends rfl)

/-- What comes next is the same, or is a closing ending. -/
theorem Covers.look_reader (h : f.Covers rules s.skipSpaces) (hfits : f.Fits s) :
    (f.reader s).skipSpaces.cursor.current? = s.skipSpaces.cursor.current? ∨
      (f.reader s).skipSpaces.cursor.current? = none ∨
      rules.strict = true ∧ (f.reader s).skipSpaces.cursor.current? = some ')' := by
  rcases h with hlt | ⟨hplace, hcloses⟩
  · exact .inl (Ending.look_reader hfits hlt)
  · have hcovers : f.Covers rules s.skipSpaces := .inr ⟨hplace, hcloses⟩
    rw [hcovers.skipSpaces_reader hfits, Cursor.current?, rest_reader hplace]
    rcases hcloses with hnil | hclose
    · exact .inr (.inl (by rw [hnil]; rfl))
    · exact .inr (.inr hclose)

/-- So no mark comes next, except that parenthesis, which did not come before. -/
theorem Covers.mark?_reader (h : f.Covers rules s.skipSpaces) (hfits : f.Fits s) :
    Token.mark? (f.reader s).tokens = Token.mark? s.tokens ∨
      Token.mark? (f.reader s).tokens = none ∨
      rules.strict = true ∧ Token.mark? (f.reader s).tokens = some ')' := by
  rw [Reader.mark?_tokens, Reader.mark?_tokens]
  rcases h.look_reader hfits with h | h | ⟨hstrict, h⟩
  · exact .inl (by rw [h])
  · exact .inr (.inl (by rw [h]; rfl))
  · exact .inr (.inr ⟨hstrict, by rw [h]; rfl⟩)

/-- A function of the next mark that finds nothing in a closing ending. -/
theorem Covers.bind_mark?_reader {α : Type} {look : Char → Option α}
    (h : f.Covers rules s.skipSpaces) (hfits : f.Fits s) (hlook : look ')' = none)
    (hnone : (Token.mark? s.tokens).bind look = none) :
    (Token.mark? (f.reader s).tokens).bind look = none := by
  rcases h.mark?_reader hfits with h | h | ⟨-, h⟩
  · rw [h, hnone]
  · rw [h]
    rfl
  · rw [h]
    exact hlook

theorem covers_of_covered {r : EStateM.Result ParseError Reader Measured}
    (hbeyond : Beyond s.cursor.column r) (hcovered : f.Covered rules r) : f.Covers rules s := by
  cases r with
  | ok t s' => exact Covers.of_le hcovered (Nat.le_of_succ_le_succ hbeyond)
  | error e q => exact .inl (Nat.le_trans hbeyond hcovered.1)

/-- A mark that was passed stands before the ending. -/
theorem before_of_covered {q : Reader} {c : Char} {step : Step Measured}
    (hmark : Token.mark? s.tokens = some c) (hpass : s.pass.cursor.position ≤ q.cursor.position)
    (hforward : Forward step) (hcovered : f.Covered rules (step q)) :
    s.skipSpaces.cursor.position < f.place := by
  have hle := (covers_of_covered (hforward q) hcovered).le
  rw [Reader.position_pass hmark] at hpass
  exact Nat.le_trans hpass hle

theorem Echoes.bind {a : Step Measured} {k : Measured → Step Measured}
    (h : f.Echoes rules (a s) (a (f.reader s)))
    (hok : ∀ x s', a s = .ok x s' → f.Echoes rules (k x s') (k x (f.reader s')))
    (hforward : ∀ x, Forward (k x)) :
    f.Echoes rules ((a >>= k) s) ((a >>= k) (f.reader s)) := by
  rw [bind_apply, bind_apply]
  generalize hr : a s = r at h
  cases r with
  | ok x s' =>
    intro hcovered
    have hcovers : f.Covers rules s' := covers_of_covered (hforward x s') hcovered
    rw [(h hcovers).eq_ok]
    exact hok x s' hr hcovered
  | error e q =>
    intro hcovered
    obtain ⟨q', hq'⟩ := (h hcovered).eq_error
    rw [hq']
    exact .error e q q'

/-- What depends on the place alone. -/
theorem Echoes.bounded (b : Bool) (t : Measured) (e : ParseError) (s : Reader) :
    f.Echoes rules (if b then .ok t s else .error e s)
      (if b then .ok t (f.reader s) else .error e (f.reader s)) := by
  intro _
  cases b with
  | true => exact .ok t s
  | false => exact .error e s (f.reader s)

theorem Echoes.leave {r r' : EStateM.Result ParseError Reader Measured} :
    f.Echoes rules r r' → f.Echoes rules
      (match r with
        | .ok t s => .ok t s.leave
        | .error e s => .error e s.leave)
      (match r' with
        | .ok t s => .ok t s.leave
        | .error e s => .error e s.leave) := by
  intro h hcovered
  cases r with
  | ok t s =>
    rw [(h hcovered).eq_ok]
    exact .ok t s.leave
  | error e q =>
    obtain ⟨q', rfl⟩ := (h hcovered).eq_error
    exact .error e _ _

/-! ## Steps -/

theorem echoes_binary (op : BinaryOp) (column : Nat) (left right : Measured) (s : Reader) :
    f.Echoes rules (binary rules op column left right s)
      (binary rules op column left right (f.reader s)) := by
  rw [binary_apply, binary_apply]
  exact .bounded _ _ _ s

theorem echoes_unary (sign : Sign) (column : Nat) (operand : Measured) (s : Reader) :
    f.Echoes rules (unary rules sign column operand s)
      (unary rules sign column operand (f.reader s)) := by
  rw [unary_apply, unary_apply]
  exact .bounded _ _ _ s

theorem echoes_call (function : Function) (column : Nat) (argument : Measured) (s : Reader) :
    f.Echoes rules (call rules function column argument s)
      (call rules function column argument (f.reader s)) := by
  rw [call_apply, call_apply]
  exact .bounded _ _ _ s

theorem echoes_close (hfits : f.Fits s) (inner : Measured) :
    f.Echoes rules (close rules inner s) (close rules inner (f.reader s)) := by
  rw [close_apply, close_apply]
  intro hcovered
  by_cases hclose : Token.mark? s.tokens = some ')'
  · rw [if_pos hclose] at hcovered ⊢
    have hbefore : s.skipSpaces.cursor.position < f.place := by
      rw [← Nat.succ_le_iff, Nat.succ_eq_add_one, ← Reader.position_pass hclose]
      exact Covers.le hcovered
    rw [if_pos (by rw [Ending.mark?_reader hfits hbefore, hclose]), pass_reader hfits hbefore]
    exact .ok inner s.pass
  · rw [if_neg hclose] at hcovered ⊢
    by_cases hstrict : rules.strict = true
    · rw [if_pos hstrict] at hcovered ⊢
      have hbefore : s.skipSpaces.cursor.position < f.place := hcovered.1
      rw [if_neg (by rwa [Ending.mark?_reader hfits hbefore]), if_pos hstrict,
        nextColumn_reader hfits hbefore]
      exact .error _ _ _
    · rw [if_neg hstrict] at hcovered ⊢
      have hcovers : f.Covers rules s.skipSpaces := hcovered
      have hopen : Token.mark? (f.reader s).tokens ≠ some ')' := by
        rcases hcovers.mark?_reader hfits with h | h | ⟨h, -⟩
        · rwa [h]
        · rw [h]
          nofun
        · exact absurd h hstrict
      rw [if_neg hopen, if_neg hstrict, hcovers.skipSpaces_reader hfits]
      exact .ok inner s.skipSpaces

/-- An operation whose right side takes a token does not end where that side begins. -/
theorem before_of_consumes {operand : Step Measured} {op : BinaryOp} {column : Nat}
    {left : Measured} (hforward : Forward operand)
    (hconsumes : ∀ t s', operand s = .ok t s' → s.cursor.position < s'.cursor.position)
    (hcovered : f.Covered rules
      ((operand >>= fun right => binary rules op column left right) s)) :
    s.cursor.position < f.place := by
  rw [bind_apply] at hcovered
  cases hr : operand s with
  | ok right s' =>
    rw [hr] at hcovered
    have hcovers := covers_of_covered (Forward.binary op column left right s') hcovered
    exact Nat.lt_of_lt_of_le (hconsumes right s' hr) hcovers.le
  | error e q =>
    have hbeyond := hforward s
    rw [hr] at hcovered hbeyond
    exact Nat.le_trans hbeyond hcovered.1

theorem echoes_operation {operand : Step Measured} {op : BinaryOp} {column : Nat}
    {left : Measured} (hfits : f.Fits s) (hforward : Forward operand)
    (hstrict : rules.strict = true → ∀ t s', operand s.skipSpaces = .ok t s' →
      s.skipSpaces.cursor.position < s'.cursor.position)
    (hoperand : (Token.mark? s.tokens).any isOperatorChar = false →
      f.Echoes rules (operand s.skipSpaces) (operand (f.reader s.skipSpaces))) :
    f.Echoes rules (operation rules operand op column left s)
      (operation rules operand op column left (f.reader s)) := by
  rw [operation, bind_apply, bind_apply, rejectOperator_apply, rejectOperator_apply]
  cases hreject : (Token.mark? s.tokens).any isOperatorChar with
  | true =>
    intro hcovered
    have hbefore : s.skipSpaces.cursor.position < f.place := hcovered.1
    rw [Ending.mark?_reader hfits hbefore, hreject, nextColumn_reader hfits hbefore]
    exact .error _ _ _
  | false =>
    intro hcovered
    have hechoes := (hoperand hreject).bind
      (fun right s' _ => echoes_binary op column left right s')
      (fun right => Forward.binary op column left right)
    -- At the place itself strict rules would find no operand, so that the ending is empty there.
    have hpasses : (f.reader s).skipSpaces = f.reader s.skipSpaces ∧
        (Token.mark? (f.reader s).tokens).any isOperatorChar = false := by
      have hcovers : f.Covers rules s.skipSpaces := covers_of_covered
        ((hforward.bind fun right => Forward.binary op column left right) s.skipSpaces) hcovered
      refine ⟨hcovers.skipSpaces_reader hfits, ?_⟩
      rcases hcovers.mark?_reader hfits with h | h | ⟨h, -⟩
      · rw [h, hreject]
      · rw [h]
        rfl
      · have hbefore := before_of_consumes hforward (hstrict h) hcovered
        rw [Ending.mark?_reader hfits hbefore, hreject]
    rw [hpasses.1, hpasses.2]
    exact hechoes hcovered

/-! ## Calls -/

/-- The call comes to the same outcome in the text with the other ending. -/
def EchoesAt (f : Ending) (rules : Rules) (c : Call) (s : Reader) : Prop :=
  f.Fits s → f.Echoes rules (c.run rules s) (c.run rules (f.reader s))

variable {rank : Rank} {left : Measured}

theorem echoes_chain (hfits : f.Fits s)
    (ih : ∀ c s', Calls rules (.chain rank) s c s' → f.EchoesAt rules c s') :
    f.Echoes rules (chain rules rank s) (chain rules rank (f.reader s)) := by
  have hoperand := ih _ _ (.operand rank s) hfits
  rw [Call.run_operand] at hoperand
  rw [chain_eq]
  refine hoperand.bind ?_ ?_
  · intro left s' hleft
    have hcalls : Calls rules (.chain rank) s (.tail rank left) s' := .tail hleft
    exact ih _ _ hcalls (hfits.of_reaches hcalls.reads_on.1)
  · intro left
    exact Forward.run rules (.tail rank left)

/-- An operation behind an operator, with an operand that the call reads. -/
theorem echoes_operation_of_call {c : Call} {op : BinaryOp} {column : Nat}
    (hfits : f.Fits s) (hc : ∀ rank left, c ≠ .tail rank left)
    (hoperand : (Token.mark? s.tokens).any isOperatorChar = false →
      f.EchoesAt rules c s.skipSpaces) :
    f.Echoes rules (operation rules (c.run rules) op column left s)
      (operation rules (c.run rules) op column left (f.reader s)) := by
  refine echoes_operation hfits (Forward.run rules c) ?_ ?_
  · intro hstrict
    exact advances_run hstrict c s.skipSpaces hc
  · intro hfollow
    exact hoperand hfollow hfits.skipSpaces

theorem echoes_tail (hfits : f.Fits s)
    (ih : ∀ c s', Calls rules (.tail rank left) s c s' → f.EchoesAt rules c s') :
    f.Echoes rules (tail rules rank left s) (tail rules rank left (f.reader s)) := by
  rw [tail_apply, tail_apply]
  cases hop : (Token.mark? s.tokens).bind rank.operator? with
  | none =>
    intro hcovered
    have hcovers : f.Covers rules s.skipSpaces := hcovered
    rw [hcovers.bind_mark?_reader hfits (by cases rank <;> rfl) hop,
      hcovers.skipSpaces_reader hfits]
    exact .ok left s.skipSpaces
  | some op =>
    intro hcovered
    have hbefore := before_of_covered (mark?_of_operator? hop).1 (Nat.le_refl _)
      (Forward.step rank op s.nextColumn left) hcovered
    rw [Ending.mark?_reader hfits hbefore, hop, nextColumn_reader hfits hbefore,
      pass_reader hfits hbefore]
    have hfits' : f.Fits s.pass := hfits.of_reaches s.continues_pass.reaches
    refine Echoes.bind ?_ ?_ ?_ hcovered
    · rw [← Call.run_operand]
      refine echoes_operation_of_call hfits' (by cases rank <;> nofun) fun hfollow => ?_
      exact ih _ _ (.right left hop hfollow)
    · intro node s' hnode
      have hcalls : Calls rules (.tail rank left) s (.tail rank node) s' := .next hop hnode
      exact ih _ _ hcalls (hfits.of_reaches hcalls.reads_on.1)
    · intro node
      exact Forward.run rules (.tail rank node)

theorem echoes_factor (hfits : f.Fits s)
    (ih : ∀ c s', Calls rules .factor s c s' → f.EchoesAt rules c s') :
    f.Echoes rules (factor rules s) (factor rules (f.reader s)) := by
  rw [factor_eq, factor_eq, openFactors_reader]
  by_cases hlimit : withinLimit rules.limits.nesting (s.openFactors + 1) = true
  · rw [if_pos hlimit, if_pos hlimit]
    exact (ih _ _ (.enter hlimit) hfits).leave
  · rw [if_neg hlimit, if_neg hlimit]
    intro _
    exact .error _ _ _

theorem echoes_power {base : Measured} (hfits : f.Fits s)
    (hexponent : Token.mark? s.tokens = some '^' →
      (Token.mark? s.pass.tokens).any isOperatorChar = false →
      f.EchoesAt rules .factor s.pass.skipSpaces) :
    f.Echoes rules (power rules base s) (power rules base (f.reader s)) := by
  rw [power_apply, power_apply]
  intro hcovered
  by_cases hmark : Token.mark? s.tokens = some '^'
  · rw [if_pos hmark] at hcovered ⊢
    have hbefore := before_of_covered hmark (Nat.le_refl _)
      (Forward.operation (Forward.run rules .factor) .pow s.nextColumn base) hcovered
    rw [if_pos (by rw [Ending.mark?_reader hfits hbefore, hmark]),
      nextColumn_reader hfits hbefore, pass_reader hfits hbefore]
    have hfits' : f.Fits s.pass := hfits.of_reaches s.continues_pass.reaches
    exact echoes_operation_of_call (c := .factor) hfits' nofun (hexponent hmark) hcovered
  · rw [if_neg hmark] at hcovered ⊢
    have hcovers : f.Covers rules s.skipSpaces := hcovered
    have hmark' : Token.mark? (f.reader s).tokens ≠ some '^' := by
      rcases hcovers.mark?_reader hfits with h | h | ⟨-, h⟩
      · rwa [h]
      · rw [h]
        nofun
      · rw [h]
        nofun
    rw [if_neg hmark', hcovers.skipSpaces_reader hfits]
    exact .ok base s.skipSpaces

theorem echoes_signed (hfits : f.Fits s)
    (ih : ∀ c s', Calls rules .signed s c s' → f.EchoesAt rules c s') :
    f.Echoes rules (signed rules s) (signed rules (f.reader s)) := by
  rw [signed_apply, signed_apply]
  cases hsign : (Token.mark? s.tokens).bind Sign.ofChar? with
  | some sign =>
    intro hcovered
    have hbefore := before_of_covered (q := s.pass.note (.signed sign s.nextColumn))
      (mark?_of_sign? hsign) (Nat.le_refl _)
      ((Forward.run rules .factor).bind fun operand => Forward.unary sign s.nextColumn operand)
      hcovered
    rw [Ending.mark?_reader hfits hbefore, hsign, nextColumn_reader hfits hbefore,
      pass_reader hfits hbefore]
    have hcalls : Calls rules .signed s .factor (s.pass.note (.signed sign s.nextColumn)) :=
      .sign hsign
    refine Echoes.bind (ih _ _ hcalls (hfits.of_reaches hcalls.reads_on.1)) ?_ ?_ hcovered
    · intro operand s' _
      exact echoes_unary sign s.nextColumn operand s'
    · intro operand
      exact Forward.unary sign s.nextColumn operand
  | none =>
    intro hcovered
    have hcovers : f.Covers rules s.skipSpaces := by
      refine covers_of_covered (r := (primary rules >>= power rules) s) ?_ hcovered
      rw [bind_apply, ← primary_skipSpaces, ← bind_apply]
      exact (Forward.run rules .primary).bind Forward.power s.skipSpaces
    rw [hcovers.bind_mark?_reader hfits rfl hsign]
    refine Echoes.bind (ih _ _ (.base hsign) hfits) ?_ Forward.power hcovered
    intro base s' hbase
    have hreaches := (Call.continues_of_run (c := .primary) hbase).reaches
    exact echoes_power (hfits.of_reaches hreaches) fun hmark hfollow =>
      ih _ _ (.exponent hsign hbase hmark hfollow)

theorem echoes_missing (hfits : f.Fits s) (hlacks : LacksOperand s.tokens) :
    f.Echoes rules (primary rules s) (primary rules (f.reader s)) := by
  rw [primary_of_lacksOperand hlacks, missingOperand_apply]
  intro hcovered
  by_cases hstrict : rules.strict = true
  · rw [if_pos hstrict] at hcovered ⊢
    have hbefore : s.skipSpaces.cursor.position < f.place := hcovered.1
    rw [primary_of_lacksOperand (lacksOperand_reader hfits hbefore hlacks), missingOperand_apply,
      if_pos hstrict, look_reader hfits hbefore, Ending.skipSpaces_reader hfits (.inl hbefore)]
    exact .error _ _ _
  · rw [if_neg hstrict] at hcovered ⊢
    have hcovers : f.Covers rules s.skipSpaces := hcovered
    have hlacks' : LacksOperand (f.reader s).tokens := by
      rw [lacksOperand_tokens_iff] at hlacks ⊢
      rcases hcovers.look_reader hfits with h | h | ⟨h, -⟩
      · rwa [h]
      · rw [h]
        nofun
      · exact absurd h hstrict
    rw [primary_of_lacksOperand hlacks', missingOperand_apply, if_neg hstrict,
      hcovers.skipSpaces_reader hfits]
    exact .ok _ s.skipSpaces

theorem echoes_number {run : List Char} {ts : List Token} (hfits : f.Fits s)
    (htokens : s.tokens = .number run :: ts) :
    f.Echoes rules (primary rules s) (primary rules (f.reader s)) := by
  rw [primary_of_number htokens]
  cases hvalue : Numeral.read? run with
  | some value =>
    intro hcovered
    have hcovers : f.Covers rules (s.passRun isNumberChar) := hcovered
    obtain ⟨htokens', hcolumn, hpass⟩ := number_reader hfits htokens (hcovers.ends rfl)
    rw [primary_of_number htokens', hvalue, hcolumn, hpass]
    exact .ok _ (s.passRun isNumberChar)
  | none =>
    intro hcovered
    have hend : (s.passRun isNumberChar).cursor.position + 1 =
        s.nextColumn + (String.ofList run).length := by
      rw [(Reader.look_of_number htokens).1, String.length_ofList]
      exact Nat.add_right_comm _ _ _
    have hshown : (s.passRun isNumberChar).cursor.position < f.place ∨
        (s.passRun isNumberChar).cursor.position = f.place ∧ f.Ends isNumberChar := by
      have hliteral := hcovered.2 _ rfl
      dsimp only at hliteral
      rw [← hend] at hliteral
      exact hliteral.imp id (And.imp_left Nat.succ.inj)
    obtain ⟨htokens', hcolumn, hpass⟩ := number_reader hfits htokens hshown
    rw [primary_of_number htokens', hvalue, hcolumn, hpass]
    exact .error _ _ _

theorem echoes_primary (hfits : f.Fits s)
    (ih : ∀ c s', Calls rules .primary s c s' → f.EchoesAt rules c s') :
    f.Echoes rules (primary rules s) (primary rules (f.reader s)) := by
  rcases operand_cases s.tokens with
    hlacks | hmark | ⟨run, ts, htokens⟩ | ⟨run, ts, htokens⟩
  · exact echoes_missing hfits hlacks
  · rw [primary_of_group hmark]
    intro hcovered
    have hbefore := before_of_covered hmark (Nat.le_refl _)
      ((Forward.run rules (.chain .sum)).bind Forward.close) hcovered
    rw [primary_of_group (by rw [Ending.mark?_reader hfits hbefore, hmark]),
      pass_reader hfits hbefore]
    have hcalls : Calls rules .primary s (.chain .sum) s.pass := .group hmark
    have hfits' := hfits.of_reaches hcalls.reads_on.1
    refine Echoes.bind (ih _ _ hcalls hfits') ?_ Forward.close hcovered
    intro inner s' hinner
    exact echoes_close
      (hfits'.of_reaches (Call.continues_of_run (c := .chain .sum) hinner).reaches) inner
  · exact echoes_number hfits htokens
  · cases hname : Function.ofName? (String.ofList run) with
    | some function =>
      rw [primary_of_call htokens hname]
      intro hcovered
      have hforward : Forward (factor rules >>= call rules function s.nextColumn) :=
        (Forward.run rules .factor).bind fun argument =>
          Forward.call function s.nextColumn argument
      have hcovers : f.Covers rules (s.passRun Char.isLower) :=
        covers_of_covered (s := (s.passRun Char.isLower).note (.called function s.nextColumn))
          (hforward _) hcovered
      obtain ⟨htokens', hcolumn, hpass⟩ := word_reader hfits htokens (hcovers.ends rfl)
      rw [primary_of_call htokens' hname, hcolumn, hpass]
      have hcalls : Calls rules .primary s .factor
        ((s.passRun Char.isLower).note (.called function s.nextColumn)) := .argument htokens hname
      refine Echoes.bind (ih _ _ hcalls (hfits.of_reaches hcalls.reads_on.1)) ?_ ?_ hcovered
      · intro argument s' _
        exact echoes_call function s.nextColumn argument s'
      · intro argument
        exact Forward.call function s.nextColumn argument
    | none =>
      rw [primary_of_var htokens hname]
      intro hcovered
      have hcovers : f.Covers rules (s.passRun Char.isLower) := hcovered
      obtain ⟨htokens', hcolumn, hpass⟩ := word_reader hfits htokens (hcovers.ends rfl)
      rw [primary_of_var htokens' hname, hcolumn, hpass]
      exact .ok _ (s.passRun Char.isLower)

/-- By induction along the calls. -/
theorem echoes_run (f : Ending) (rules : Rules) (c : Call) (s : Reader) :
    f.EchoesAt rules c s := by
  induction c, s using Calls.induction rules with
  | h c s ih =>
    intro hfits
    cases c with
    | chain rank => exact echoes_chain hfits ih
    | tail rank left => exact echoes_tail hfits ih
    | factor => exact echoes_factor hfits ih
    | signed => exact echoes_signed hfits ih
    | primary => exact echoes_primary hfits ih

theorem run_of_covers {c : Call} {s' : Reader} {t : Measured} (hfits : f.Fits s)
    (h : c.run rules s = .ok t s') (hcovers : f.Covers rules s') :
    c.run rules (f.reader s) = .ok t (f.reader s') := by
  have hechoes := echoes_run f rules c s hfits
  rw [h] at hechoes
  exact (hechoes hcovers).eq_ok

theorem operation_of_covers {op : BinaryOp} {column : Nat} {node : Measured} {s' : Reader}
    (hfits : f.Fits s)
    (h : operation rules (operand rules rank) op column left s = .ok node s')
    (hcovers : f.Covers rules s') :
    operation rules (operand rules rank) op column left (f.reader s) = .ok node (f.reader s') := by
  rw [← Call.run_operand] at h ⊢
  have hechoes : f.Echoes rules (operation rules ((Call.operand rank).run rules) op column left s)
      (operation rules ((Call.operand rank).run rules) op column left (f.reader s)) :=
    echoes_operation_of_call hfits (by cases rank <;> nofun) fun _ => echoes_run f rules _ _
  rw [h] at hechoes
  exact (hechoes hcovers).eq_ok

theorem run_of_shows {c : Call} {q : Reader} {e : ParseError} (hfits : f.Fits s)
    (h : c.run rules s = .error e q) (hshows : f.Shows e) :
    ∃ q', c.run rules (f.reader s) = .error e q' := by
  have hechoes := echoes_run f rules c s hfits
  rw [h] at hechoes
  exact (hechoes hshows).eq_error

/-! ## Texts -/

/-- The text with the other ending. -/
def ended (f : Ending) (source : String) : String :=
  .ofList (source.toList.take f.place ++ f.text)

theorem reader_ofText (f : Ending) (source : String) :
    f.reader (.ofText source) = .ofText (f.ended source) := by
  simp [reader, cursor, Reader.ofText, Cursor.ofText, ended]

theorem fits_ofText {source : String} (h : f.place ≤ source.length) :
    f.Fits (.ofText source) := by
  rwa [← String.length_toList, ← Nat.zero_add source.toList.length] at h

theorem parse_ended_error {source : String} {e : ParseError} (hplace : f.place ≤ source.length)
    (h : Expr.parse rules source = .error e) (hshows : f.Shows e) :
    Expr.parse rules (f.ended source) = .error e := by
  have hfits := fits_ofText hplace
  rcases Expr.parse_eq_error_iff.1 h with ⟨q, hq⟩ | ⟨t, s, c, hok, hc, rfl⟩
  · obtain ⟨q', hq'⟩ := run_of_shows (c := .chain .sum) hfits hq hshows
    rw [reader_ofText] at hq'
    exact Expr.parse_eq_error_iff.2 (.inl ⟨q', hq'⟩)
  · have hbefore : s.cursor.position < f.place := hshows.1
    have hok' := run_of_covers (c := .chain .sum) hfits hok (.inl hbefore)
    have hcontinues := Call.continues_of_run (c := .chain .sum) hok
    rw [reader_ofText] at hok'
    refine Expr.parse_eq_error_iff.2 (.inr ⟨t, f.reader s, c, hok', ?_, rfl⟩)
    rw [current?_reader (hfits.of_reaches hcontinues.reaches) hbefore, hc]

end Ending

end Calculator
