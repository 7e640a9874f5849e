import Calculator.Proofs.Session.Inquiry

/-!
# Evaluation in one pass

The value of a text, computed while it is read. No tree is built, and nothing
bounds the nesting. A missing operand is zero, and a missing parenthesis is
closed. A variable is asked for as soon as its name has been read.
-/

namespace Calculator.OnePass

variable {m : Type → Type} [Monad m]

/-- A value that was read from `c` on, and the cursor behind it. -/
structure Read (c : Cursor) where
  value : Float
  cursor : Cursor
  reaches : c.Reaches cursor

namespace Read

def pair {c : Cursor} (r : Read c) : Float × Cursor :=
  (r.value, r.cursor)

end Read

/-- No operator may follow an operator. -/
def rejectOperator (c : Cursor) : Inquiry m Unit :=
  if c.atOperator.1 then throw (.parse ⟨.unexpectedOperator, c.atOperator.2.column⟩)
  else return ()

namespace Descent

theorem reaches_token (c : Cursor) : c.Reaches c.skipSpaces.advance :=
  c.reaches_skipSpaces.trans c.skipSpaces.reaches_advance

theorem length_token_lt {α : Type} {c : Cursor} {f : Char → Option α} {a : α}
    (h : c.skipSpaces.current?.bind f = some a) :
    c.skipSpaces.advance.rest.length < c.rest.length := by
  obtain ⟨_, hc, -⟩ := Option.bind_eq_some_iff.1 h
  exact Nat.lt_of_lt_of_le (Cursor.length_advance_lt hc) c.reaches_skipSpaces.length_le

mutual

def chain (ask : Resolver m) (rank : Rank) (c : Cursor) : Inquiry m (Read c) := do
  let left ← operand ask rank c
  have := left.reaches.length_le
  let all ← tail ask rank left.value left.cursor
  return ⟨all.value, all.cursor, left.reaches.trans all.reaches⟩
termination_by Descent.measure c.rest.length (rank.level + 2)
decreasing_by
  all_goals
    have := Descent.level_le rank
    exact Descent.measure_lt (by omega) (by omega)

def tail (ask : Resolver m) (rank : Rank) (x : Float) (c : Cursor) : Inquiry m (Read c) :=
  match h : c.skipSpaces.current?.bind rank.operator? with
  | none => return ⟨x, c.skipSpaces, c.reaches_skipSpaces⟩
  | some op => do
    have := length_token_lt h
    have := c.skipSpaces.advance.reaches_skipSpaces.length_le
    rejectOperator c.skipSpaces.advance
    let right ← operand ask rank c.skipSpaces.advance.skipSpaces
    have := right.reaches.length_le
    let all ← tail ask rank (op.apply x right.value) right.cursor
    return ⟨all.value, all.cursor, (reaches_token c).trans
      ((Cursor.reaches_skipSpaces _).trans (right.reaches.trans all.reaches))⟩
termination_by Descent.measure c.rest.length (rank.level + 1)
decreasing_by
  all_goals
    have := Descent.level_le rank
    exact Descent.measure_lt (by omega) (by omega)

def operand (ask : Resolver m) (rank : Rank) (c : Cursor) : Inquiry m (Read c) :=
  match rank with
  | .sum => chain ask .product c
  | .product => factor ask c
termination_by Descent.measure c.rest.length rank.level
decreasing_by all_goals exact Descent.measure_lt (by simp [Rank.level]) (by simp [Rank.level])

def factor (ask : Resolver m) (c : Cursor) : Inquiry m (Read c) :=
  match h : c.skipSpaces.current?.bind Sign.ofChar? with
  | some sign => do
    have := length_token_lt h
    let operand ← factor ask c.skipSpaces.advance
    return ⟨sign.apply operand.value, operand.cursor, (reaches_token c).trans operand.reaches⟩
  | none => do
    let base ← primary ask c
    have := base.reaches.length_le
    if hp : base.cursor.skipSpaces.current? = some '^' then
      have := base.cursor.reaches_skipSpaces.length_le
      have := Cursor.length_advance_lt hp
      have := base.cursor.skipSpaces.advance.reaches_skipSpaces.length_le
      rejectOperator base.cursor.skipSpaces.advance
      let exponent ← factor ask base.cursor.skipSpaces.advance.skipSpaces
      return ⟨Float.pow base.value exponent.value, exponent.cursor, base.reaches.trans
        ((reaches_token _).trans ((Cursor.reaches_skipSpaces _).trans exponent.reaches))⟩
    else
      return ⟨base.value, base.cursor.skipSpaces, base.reaches.trans base.cursor.reaches_skipSpaces⟩
termination_by Descent.measure c.rest.length 1
decreasing_by all_goals exact Descent.measure_lt (by decide) (by omega)

def primary (ask : Resolver m) (c : Cursor) : Inquiry m (Read c) :=
  have := c.reaches_skipSpaces.length_le
  match h : c.skipSpaces.current? with
  | none => return ⟨0.0, c.skipSpaces, c.reaches_skipSpaces⟩
  | some ch =>
    if ch = '(' then do
      have := Cursor.length_advance_lt h
      let inner ← chain ask .sum c.skipSpaces.advance
      return ⟨inner.value, (inner.cursor.consume ')').2, (reaches_token c).trans
        (inner.reaches.trans (Cursor.reaches_consume _ _))⟩
    else if isNumberChar ch then
      let run := c.skipSpaces.rest.takeWhile isNumberChar
      match Numeral.read? run with
      | some x =>
        return ⟨x, c.skipSpaces.skipWhile isNumberChar,
          c.reaches_skipSpaces.trans (Cursor.reaches_skipWhile _ _)⟩
      | none => throw (.parse ⟨.invalidNumber (String.ofList run), c.skipSpaces.column⟩)
    else if hl : ch.isLower then
      have := Cursor.length_skipWhile_lt h hl
      have hreaches := c.reaches_skipSpaces.trans (c.skipSpaces.reaches_skipWhile Char.isLower)
      let name := String.ofList (c.skipSpaces.rest.takeWhile Char.isLower)
      match Function.ofName? name with
      | some function => do
        let argument ← factor ask (c.skipSpaces.skipWhile Char.isLower)
        return ⟨function.apply argument.value, argument.cursor, hreaches.trans argument.reaches⟩
      | none => do
        let x ← Inquiry.lookup ask name c.skipSpaces.column
        return ⟨x, c.skipSpaces.skipWhile Char.isLower, hreaches⟩
    else return ⟨0.0, c.skipSpaces, c.reaches_skipSpaces⟩
termination_by Descent.measure c.rest.length 0
decreasing_by all_goals exact Descent.measure_lt (by decide) (by simp [Rank.level]; omega)

end

end Descent

/-! ## Equations -/

variable [LawfulMonad m] (ask : Resolver m)

def chain (rank : Rank) (c : Cursor) : Inquiry m (Float × Cursor) :=
  Read.pair <$> Descent.chain ask rank c

def tail (rank : Rank) (x : Float) (c : Cursor) : Inquiry m (Float × Cursor) :=
  Read.pair <$> Descent.tail ask rank x c

def operand (rank : Rank) (c : Cursor) : Inquiry m (Float × Cursor) :=
  Read.pair <$> Descent.operand ask rank c

def factor (c : Cursor) : Inquiry m (Float × Cursor) :=
  Read.pair <$> Descent.factor ask c

def primary (c : Cursor) : Inquiry m (Float × Cursor) :=
  Read.pair <$> Descent.primary ask c

theorem chain_eq (rank : Rank) (c : Cursor) :
    chain ask rank c = operand ask rank c >>= fun left => tail ask rank left.1 left.2 := by
  rw [chain, operand, Descent.chain, map_bind, bind_map_left]
  refine congrArg _ (funext fun left => ?_)
  rw [map_bind, tail, map_eq_pure_bind]
  exact congrArg _ (funext fun all => map_pure _ _)

omit [LawfulMonad m] in
theorem operand_sum (c : Cursor) : operand ask .sum c = chain ask .product c := by
  rw [operand, Descent.operand, chain]

omit [LawfulMonad m] in
theorem operand_product (c : Cursor) : operand ask .product c = factor ask c := by
  rw [operand, Descent.operand, factor]

theorem tail_eq (rank : Rank) (x : Float) (c : Cursor) :
    tail ask rank x c =
      match c.skipSpaces.current?.bind rank.operator? with
      | none => return (x, c.skipSpaces)
      | some op => (do
        rejectOperator c.skipSpaces.advance
        let right ← operand ask rank c.skipSpaces.advance.skipSpaces
        tail ask rank (op.apply x right.1) right.2) := by
  rw [tail, Descent.tail]
  split
  · next h =>
    rw [h]
    exact map_pure _ _
  · next op h =>
    simp only [h, operand, map_bind, bind_map_left]
    refine congrArg _ (funext fun _ => congrArg _ (funext fun right => ?_))
    rw [tail, map_eq_pure_bind]
    exact congrArg _ (funext fun all => map_pure _ _)

theorem factor_eq (c : Cursor) :
    factor ask c =
      match c.skipSpaces.current?.bind Sign.ofChar? with
      | some sign => do
        let operand ← factor ask c.skipSpaces.advance
        return (sign.apply operand.1, operand.2)
      | none => do
        let base ← primary ask c
        if base.2.skipSpaces.current? = some '^' then
          rejectOperator base.2.skipSpaces.advance
          let exponent ← factor ask base.2.skipSpaces.advance.skipSpaces
          return (Float.pow base.1 exponent.1, exponent.2)
        else return (base.1, base.2.skipSpaces) := by
  rw [factor, Descent.factor]
  split
  · next sign h =>
    simp only [h, factor, map_bind, bind_map_left]
    exact congrArg _ (funext fun operand => map_pure _ _)
  · next h =>
    simp only [h, primary, map_bind, bind_map_left]
    refine congrArg _ (funext fun base => ?_)
    split
    · next hp =>
      have hp' : base.pair.2.skipSpaces.current? = some '^' := hp
      simp only [hp', if_true, factor, map_bind, bind_map_left]
      exact congrArg _ (funext fun _ => congrArg _ (funext fun exponent => map_pure _ _))
    · next hp =>
      have hp' : ¬ base.pair.2.skipSpaces.current? = some '^' := hp
      simp only [hp', if_false]
      exact map_pure _ _

theorem primary_eq (c : Cursor) :
    primary ask c =
      match c.skipSpaces.current? with
      | none => return (0.0, c.skipSpaces)
      | some ch =>
        if ch = '(' then do
          let inner ← chain ask .sum c.skipSpaces.advance
          return (inner.1, (inner.2.consume ')').2)
        else if isNumberChar ch then
          match Numeral.read? (c.skipSpaces.rest.takeWhile isNumberChar) with
          | some x => return (x, c.skipSpaces.skipWhile isNumberChar)
          | none => throw (.parse ⟨.invalidNumber
              (String.ofList (c.skipSpaces.rest.takeWhile isNumberChar)), c.skipSpaces.column⟩)
        else if ch.isLower then
          let name := String.ofList (c.skipSpaces.rest.takeWhile Char.isLower)
          match Function.ofName? name with
          | some function => do
            let argument ← factor ask (c.skipSpaces.skipWhile Char.isLower)
            return (function.apply argument.1, argument.2)
          | none => do
            let x ← Inquiry.lookup ask name c.skipSpaces.column
            return (x, c.skipSpaces.skipWhile Char.isLower)
        else return (0.0, c.skipSpaces) := by
  rw [primary, Descent.primary]
  split
  · next h =>
    rw [h]
    exact map_pure _ _
  · next ch h =>
    simp only [h]
    split
    · simp only [chain, map_bind, bind_map_left]
      exact congrArg _ (funext fun inner => map_pure _ _)
    · split
      · split
        · exact map_pure _ _
        · exact Inquiry.map_throw _ _
      · split
        · split
          · simp only [factor, map_bind, bind_map_left]
            exact congrArg _ (funext fun argument => map_pure _ _)
          · rw [map_bind]
            exact congrArg _ (funext fun x => map_pure _ _)
        · exact map_pure _ _

/-- The value of a text. -/
def evaluate (source : String) : Inquiry m Float := do
  let all ← chain ask .sum (.ofText source)
  match all.2.current? with
  | some ch => throw (.parse ⟨.unexpectedCharacter ch, all.2.column⟩)
  | none => return all.1

end Calculator.OnePass
