import Calculator.Proofs.Grammar.Settled
import Calculator.Proofs.Session.OnePass

/-!
# Two phases and one pass

Where a text parses, evaluation in one pass does the same as parsing the text
and then evaluating the tree. Where it does not, evaluation in two phases has
asked for nothing.
-/

namespace Calculator

open Grammar

variable {m : Type → Type} [Monad m] {ask : Resolver m}

/-- Wherever the step reads a tree, the pass computes its value and comes to the same place. -/
def Follows (ask : Resolver m) (step : Step Measured)
    (pass : Cursor → Inquiry m (Float × Cursor)) (s : Reader) : Prop :=
  ∀ t s', step s = .ok t s' →
    pass s.cursor = (fun x => (x, s'.cursor)) <$> Inquiry.value ask t.expr

namespace OnePass

theorem rejectOperator_of_follow {s : Reader}
    (h : ∀ c, Token.mark? s.tokens = some c → isOperatorChar c = false) :
    (rejectOperator s.cursor : Inquiry m Unit) = pure () := by
  have hlook : s.cursor.atOperator.1 = false := by
    refine s.look_operator.trans ?_
    cases hmark : Token.mark? s.tokens with
    | none => rfl
    | some c => exact h c hmark
  rw [rejectOperator, hlook]
  rfl

theorem operand_follows {rank : Rank} {s : Reader}
    (h : OfOperand (fun rank => Follows ask (Grammar.chain .permissive rank) (chain ask rank))
      (Follows ask (Grammar.factor .permissive) (factor ask)) rank s) :
    Follows ask (Grammar.operand .permissive rank) (operand ask rank) s := by
  intro t s' hs
  cases rank with
  | sum =>
    rw [operand_sum]
    exact h t s' (by simpa [term] using hs)
  | product =>
    rw [operand_product]
    exact h t s' (by simpa using hs)

variable [LawfulMonad m]

/-- Behind an operator, the pass reads the right side and goes on with the value of the node. -/
theorem operation_follows {operand : Step Measured}
    {pass : Cursor → Inquiry m (Float × Cursor)} {α : Type} (k : Float → Cursor → Inquiry m α)
    {op : BinaryOp} {column : Nat} {left node : Measured} {s s' : Reader}
    (hoperand : Follows ask operand pass s.skipSpaces)
    (hnode : operation .permissive operand op column left s = .ok node s') :
    (do
      let x ← Inquiry.value ask left.expr
      rejectOperator s.cursor
      let right ← pass s.cursor.skipSpaces
      k (op.apply x right.1) right.2) =
      Inquiry.value ask node.expr >>= fun z => k z s'.cursor := by
  obtain ⟨hfollow, right, hright, hnode⟩ := operation_ok.1 hnode
  obtain ⟨-, rfl, -⟩ := binary_ok.1 hnode
  have hpass : pass s.cursor.skipSpaces =
      (fun y => (y, s'.cursor)) <$> Inquiry.value ask right.expr := hoperand right s' hright
  rw [rejectOperator_of_follow hfollow, hpass, Inquiry.value]
  simp only [pure_bind, bind_assoc, bind_map_left]

theorem tail_stop {rank : Rank} {s : Reader}
    (hop : (Token.mark? s.tokens).bind rank.operator? = none) (x : Float) :
    tail ask rank x s.cursor = pure (x, s.skipSpaces.cursor) := by
  have hlook : s.cursor.skipSpaces.current?.bind rank.operator? = none :=
    (s.look_bind fun _ => Rank.operator?_eq_none).trans hop
  rw [tail_eq, hlook]
  rfl

theorem tail_step {rank : Rank} {op : BinaryOp} {s : Reader}
    (hop : (Token.mark? s.tokens).bind rank.operator? = some op) (x : Float) :
    tail ask rank x s.cursor = (do
      rejectOperator s.pass.cursor
      let right ← operand ask rank s.pass.cursor.skipSpaces
      tail ask rank (op.apply x right.1) right.2) := by
  have hlook : s.cursor.skipSpaces.current?.bind rank.operator? = some op :=
    (s.look_bind fun _ => Rank.operator?_eq_none).trans hop
  rw [tail_eq, hlook]
  rfl

theorem tail_follows {rank : Rank} {left t : Measured} {s s' : Reader}
    (ih : ∀ op, (Token.mark? s.tokens).bind rank.operator? = some op →
      Follows ask (Grammar.operand .permissive rank) (operand ask rank) s.pass.skipSpaces ∧
        ∀ right s', Grammar.operand .permissive rank s.pass.skipSpaces = .ok right s' →
          ∀ node : Measured, Follows ask (Grammar.tail .permissive rank node)
            (fun c => Inquiry.value ask node.expr >>= fun x => tail ask rank x c) s')
    (h : Grammar.tail .permissive rank left s = .ok t s') :
    (Inquiry.value ask left.expr >>= fun x => tail ask rank x s.cursor) =
      (fun x => (x, s'.cursor)) <$> Inquiry.value ask t.expr := by
  cases tail_ok.1 h with
  | stop hop =>
    simp only [tail_stop hop]
    exact bind_pure_comp _ _
  | step op node s₁ hop hnode htail =>
    obtain ⟨-, right, hright, -⟩ := operation_ok.1 hnode
    obtain ⟨hoperand, htails⟩ := ih op hop
    simp only [tail_step hop]
    rw [← htails right s₁ hright node t s' htail]
    exact operation_follows (fun z c => tail ask rank z c) hoperand hnode

theorem factor_follows {s : Reader}
    (hfactor : ∀ sign, (Token.mark? s.tokens).bind Sign.ofChar? = some sign →
      Follows ask (Grammar.factor .permissive) (factor ask)
        (s.pass.note (.signed sign s.nextColumn)))
    (hprimary : (Token.mark? s.tokens).bind Sign.ofChar? = none →
      Follows ask (Grammar.primary .permissive) (primary ask) s)
    (hpower : ∀ base s', Grammar.primary .permissive s = .ok base s' →
      Token.mark? s'.tokens = some '^' →
      Follows ask (Grammar.factor .permissive) (factor ask) s'.pass.skipSpaces) :
    Follows ask (Grammar.signed .permissive) (factor ask) s := by
  intro t s' h
  have hlook : s.cursor.skipSpaces.current?.bind Sign.ofChar? =
      (Token.mark? s.tokens).bind Sign.ofChar? := s.look_bind fun _ => Sign.ofChar?_eq_none
  cases signed_ok.1 h with
  | signed sign operand hsign hoperand hnode =>
    obtain ⟨-, rfl, -⟩ := unary_ok.1 hnode
    have hpass : factor ask s.cursor.skipSpaces.advance =
        (fun x => (x, s'.cursor)) <$> Inquiry.value ask operand.expr :=
      hfactor sign hsign operand s' hoperand
    simp only [factor_eq ask s.cursor, hlook, hsign, hpass, Inquiry.value, bind_map_left, map_bind,
      map_pure]
  | unsigned base s₁ hsign hbase h =>
    have hpass := hprimary hsign base s₁ hbase
    have hcaret : s₁.cursor.skipSpaces.current? = some '^' ↔ Token.mark? s₁.tokens = some '^' :=
      s₁.look_eq_iff (by decide)
    simp only [factor_eq ask s.cursor, hlook, hsign, hpass, bind_map_left, hcaret]
    rcases power_ok.1 h with ⟨hmark, h⟩ | ⟨hmark, rfl, rfl⟩
    · have hpow : ∀ x y, Float.pow x y = BinaryOp.apply .pow x y := fun _ _ => rfl
      have hcursor : s₁.cursor.skipSpaces.advance = s₁.pass.cursor := rfl
      simp only [if_pos hmark, hpow, hcursor]
      rw [← bind_pure_comp]
      exact operation_follows (fun z c => pure (z, c)) (hpower base s₁ hbase hmark) h
    · simp only [if_neg hmark]
      exact bind_pure_comp _ _

theorem primary_apply (s : Reader) :
    primary ask s.cursor =
      match s.tokens with
      | .mark c :: _ =>
        if c = '(' then do
          let inner ← chain ask .sum s.pass.cursor
          return (inner.1, (inner.2.consume ')').2)
        else return (0.0, s.skipSpaces.cursor)
      | .number run :: _ =>
        match Numeral.read? run with
        | some x => return (x, (s.passRun isNumberChar).cursor)
        | none => throw (.parse ⟨.invalidNumber (String.ofList run), s.nextColumn⟩)
      | .word run :: _ =>
        match Function.ofName? (String.ofList run) with
        | some function => do
          let argument ← factor ask (s.passRun Char.isLower).cursor
          return (function.apply argument.1, argument.2)
        | none => do
          let x ← Inquiry.lookup ask (String.ofList run) s.nextColumn
          return (x, (s.passRun Char.isLower).cursor)
      | [] => return (0.0, s.skipSpaces.cursor) := by
  have hcursor : s.cursor.skipSpaces = s.skipSpaces.cursor := rfl
  rw [primary_eq, hcursor]
  cases s.ahead with
  | nothing htokens hlook => rw [htokens, hlook]
  | mark c hc htokens hlook =>
    simp only [isMarkChar, Bool.and_eq_true, Bool.not_eq_true'] at hc
    simp only [htokens, hlook, hc.1, hc.2]
    rfl
  | number c hc htokens hlook =>
    have hgroup : c ≠ '(' := by rintro rfl; cases hc
    simp only [htokens, hlook, if_neg hgroup, if_pos hc]
    rfl
  | word c hc htokens hlook =>
    have hgroup : c ≠ '(' := by rintro rfl; cases hc
    have hn : ¬ isNumberChar c = true := fun h => by
      rw [Token.isLower_eq_false_of_isNumberChar h] at hc
      cases hc
    simp only [htokens, hlook, if_neg hgroup, if_neg hn, if_pos hc]
    rfl

theorem primary_follows {s : Reader}
    (hchain : Token.mark? s.tokens = some '(' →
      Follows ask (Grammar.chain .permissive .sum) (chain ask .sum) s.pass)
    (hfactor : ∀ run ts function, s.tokens = .word run :: ts →
      Function.ofName? (String.ofList run) = some function →
      Follows ask (Grammar.factor .permissive) (factor ask)
        ((s.passRun Char.isLower).note (.called function s.nextColumn))) :
    Follows ask (Grammar.primary .permissive) (primary ask) s := by
  intro t s' h
  rw [primary_apply]
  cases primary_ok.1 h with
  | group inner s₁ hmark hinner hclose =>
    obtain ⟨rfl, hends⟩ := close_ok.1 hclose
    have hend : (s₁.cursor.consume ')').2 = s'.cursor := by
      have hlook : s₁.cursor.skipSpaces.current? = some ')' ↔ Token.mark? s₁.tokens = some ')' :=
        s₁.look_eq_iff (by decide)
      rw [Cursor.consume]
      rcases hends with ⟨hmark', rfl⟩ | ⟨hmark', -, rfl⟩
      · rw [if_pos (hlook.2 hmark')]
        rfl
      · rw [if_neg fun h => hmark' (hlook.1 h)]
        rfl
    have hpass := hchain hmark t s₁ hinner
    rw [Reader.tokens_eq_cons hmark]
    simp only [if_true, hpass, bind_map_left, hend]
    exact bind_pure_comp _ _
  | number run ts value htokens hvalue =>
    simp only [htokens, hvalue, Inquiry.value, map_pure]
  | call run ts function argument htokens hname hargument hnode =>
    obtain ⟨-, rfl, -⟩ := call_ok.1 hnode
    have hpass : factor ask (s.passRun Char.isLower).cursor =
        (fun x => (x, s'.cursor)) <$> Inquiry.value ask argument.expr :=
      hfactor run ts function htokens hname argument s' hargument
    simp only [htokens, hname, hpass, Inquiry.value, bind_map_left, map_bind, map_pure]
  | var run ts htokens hname =>
    simp only [htokens, hname]
    exact bind_pure_comp _ _
  | missing hstrict htokens =>
    cases hts : s.tokens with
    | nil => simp only [Inquiry.value, map_pure]
    | cons tok ts =>
      obtain ⟨c, hc, rfl⟩ := htokens tok (by rw [hts]; rfl)
      simp only [if_neg hc, Inquiry.value, map_pure]

theorem follows_inductive (ask : Resolver m) :
    Inductive .permissive
      (fun rank => Follows ask (Grammar.chain .permissive rank) (chain ask rank))
      (fun rank left => Follows ask (Grammar.tail .permissive rank left) fun c => do
        let x ← Inquiry.value ask left.expr
        tail ask rank x c)
      (Follows ask (Grammar.factor .permissive) (factor ask))
      (Follows ask (Grammar.signed .permissive) (factor ask))
      (Follows ask (Grammar.primary .permissive) (primary ask)) where
  chain := by
    intro rank s hoperand htail t s' h
    obtain ⟨left, s₁, hleft, h⟩ := chain_ok.1 h
    rw [chain_eq, operand_follows hoperand left s₁ hleft, bind_map_left]
    exact htail left s₁ hleft t s' h
  tail := by
    intro rank left s ih t s' h
    exact tail_follows (fun op hop => ⟨operand_follows (ih op hop).1, (ih op hop).2⟩) h
  factor := by
    intro s hsigned t s' h
    obtain ⟨-, s₁, hs, rfl⟩ := factor_ok.1 h
    exact hsigned t s₁ hs
  signed := fun _ => factor_follows
  primary := fun _ => primary_follows

/-- On a text that parses, the pass asks for and computes what the tree asks for and computes. -/
theorem evaluate_of_parse {source : String} {t : Expr}
    (h : Expr.parse .permissive source = .ok t) :
    evaluate ask source = Inquiry.value ask t := by
  obtain ⟨u, s', hexpression, hend, rfl⟩ := Expr.parse_eq_ok_iff.1 h
  have hpass : chain ask .sum (.ofText source) =
      (fun x => (x, s'.cursor)) <$> Inquiry.value ask u.expr :=
    (follows_inductive ask).of_expression (.ofText source) u s' hexpression
  have hnone : s'.cursor.current? = none := by
    rw [← (settled_of_chain hexpression).skipSpaces_eq]
    exact s'.current?_eq_none_iff.2 hend
  rw [evaluate, hpass, bind_map_left]
  simp only [hnone]
  exact bind_pure _

end OnePass

namespace Evaluation

variable [LawfulMonad m]

theorem run_parse (source : String) (s : Session) :
    (parse source : Evaluation m Expr).run.run s =
      pure ((Expr.parse s.rules source).mapError .parse, (s.parse source).2) := by
  have hparse : (s.parse source).1 = Expr.parse s.rules source := rfl
  rw [parse, Interruptible.run_bind, Interruptible.run_modifyGet, pure_bind]
  dsimp only
  rw [hparse]
  cases Expr.parse s.rules source <;> rfl

/-- A text that does not parse asks for nothing. -/
theorem evaluate_of_parse_error {source : String} {s : Session} {e : ParseError}
    (h : Expr.parse s.rules source = .error e) :
    shown <$> (evaluate ask source).run.run s = pure (.error (.parse e), s.bindings) := by
  rw [evaluate, Interruptible.run_bind, run_parse, h, pure_bind]
  exact map_pure _ _

theorem evaluate_of_parse_ok {source : String} {s : Session} {t : Expr}
    (h : Expr.parse s.rules source = .ok t) :
    shown <$> (evaluate ask source).run.run s = (Inquiry.value ask t).run.run s.bindings := by
  rw [evaluate, Interruptible.run_bind, run_parse, h, pure_bind]
  exact notes_value ask t (s.parse source).2

/-- A text that parses asks for and computes in two phases what it asks for and computes in one
pass, from the same bindings to the same bindings. A text that does not asks for nothing and only
gives the error of its parse. -/
theorem evaluate_eq_onePass (ask : Resolver m) (source : String) (bindings : Bindings)
    (journal : Array Event) :
    shown <$> (evaluate ask source).run.run { bindings, journal } =
      match Expr.parse .permissive source with
      | .ok _ => (OnePass.evaluate ask source).run.run bindings
      | .error e => pure (.error (.parse e), bindings) := by
  cases h : Expr.parse .permissive source with
  | ok t =>
    dsimp only
    rw [OnePass.evaluate_of_parse h]
    exact evaluate_of_parse_ok h
  | error e => exact evaluate_of_parse_error h

theorem evaluate_eq_onePass_script :
    shown <$> (evaluate Script.resolver "a + b * a").run.run { bindings := ∅, journal := #[] } =
      match Expr.parse .permissive "a + b * a" with
      | .ok _ => (OnePass.evaluate Script.resolver "a + b * a").run.run ∅
      | .error e => pure (.error (.parse e), ∅) :=
  evaluate_eq_onePass Script.resolver "a + b * a" ∅ #[]

end Evaluation

end Calculator
