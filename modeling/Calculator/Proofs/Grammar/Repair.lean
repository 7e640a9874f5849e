import Calculator.Expr
import Calculator.Proofs.Grammar.Scanning

/-!
# Repairing a text

An operand that is missing behind a beginning is written as a zero before the
token that should follow it, and every parenthesis that is open at the end is
closed there. Nothing is written behind a binary operator except at the end.
-/

namespace Calculator

/-- What the next token stands behind. -/
inductive Place where
  /-- The beginning of an operand: of the text, or behind an opening parenthesis, a sign or the
  name of a function. -/
  | start
  /-- A binary operator. -/
  | operator
  | operand
deriving DecidableEq, Repr

namespace Place

/-- The token shows that the operand before it is missing. -/
def lacks (p : Place) (t : Token) : Bool :=
  p == start && (t == .mark ')' || t == .mark '*' || t == .mark '/' || t == .mark '^')

/-- The place behind a token. A plus or minus is a sign where an operand is expected. -/
def after (p : Place) : Token → Place
  | .number _ => operand
  | .word run => if (Function.ofName? (String.ofList run)).isSome then start else operand
  | .mark c =>
    if c = '(' then start
    else if c = '+' ∨ c = '-' then if p = operand then operator else start
    else if c = '*' ∨ c = '/' ∨ c = '^' then operator
    else operand

end Place

namespace Token

def zero : Token :=
  number ['0']

/-- How many parentheses are open behind the token. -/
def opened (k : Nat) (t : Token) : Nat :=
  if t = mark '(' then k + 1
  else if t = mark ')' then k - 1
  else k

/-- The tokens from the place on, with what is missing; `k` parentheses are open there. -/
def fill (p : Place) (k : Nat) : List Token → List Token
  | [] =>
    if p = .operand then List.replicate k (mark ')')
    else zero :: List.replicate k (mark ')')
  | t :: ts =>
    if t.isSpace then t :: fill p k ts
    else if p.lacks t then zero :: t :: fill (Place.operand.after t) (t.opened k) ts
    else t :: fill (p.after t) (t.opened k) ts

end Token

/-- The text with zeros for the missing operands and with the missing parentheses. -/
def repair (source : String) : String :=
  .ofList ((Token.fill .start 0 (Token.scan source.toList)).flatMap Token.text)

namespace Token

variable {p : Place} {k : Nat} {t : Token} {ts : List Token}

theorem fill_nil (h : p ≠ .operand) : fill p k [] = zero :: fill .operand k [] := by
  rw [fill, if_neg h, fill, if_pos rfl]

theorem fill_space (h : t.isSpace = true) : fill p k (t :: ts) = t :: fill p k ts := by
  rw [fill, if_pos h]

theorem fill_cons (h : t.isSpace = false) (hlacks : p.lacks t = false) :
    fill p k (t :: ts) = t :: fill (p.after t) (t.opened k) ts := by
  rw [fill, if_neg (Bool.eq_false_iff.1 h), if_neg (Bool.eq_false_iff.1 hlacks)]

theorem fill_lacks (h : t.isSpace = false) (hlacks : p.lacks t = true) :
    fill p k (t :: ts) = zero :: fill .operand k (t :: ts) := by
  rw [fill, if_neg (Bool.eq_false_iff.1 h), if_pos hlacks, fill_cons h rfl]

/-- Only marks show that an operand is missing, and only at a beginning. -/
theorem of_lacks (h : p.lacks t = true) : p = .start ∧ ∃ c, t = mark c := by
  simp only [Place.lacks, Bool.and_eq_true, Bool.or_eq_true, beq_iff_eq] at h
  obtain ⟨rfl, ((rfl | rfl) | rfl) | rfl⟩ := h
  all_goals exact ⟨rfl, _, rfl⟩

/-! ## Filling and spaces -/

theorem visible_fill (p : Place) (k : Nat) (ts : List Token) :
    visible (fill p k ts) = fill p k (visible ts) := by
  have hclose : ∀ k, visible (fill .operand k []) = fill .operand k [] := by
    intro k
    refine List.filter_eq_self.2 fun t ht => ?_
    rw [List.eq_of_mem_replicate ht]
    rfl
  induction ts generalizing p k with
  | nil =>
    by_cases hp : p = .operand
    · rw [hp]
      exact hclose k
    · rw [fill_nil hp, visible_cons rfl, hclose]
      exact (fill_nil hp).symm
  | cons t ts ih =>
    cases hspace : t.isSpace with
    | true => rw [fill_space hspace, visible_space hspace, visible_space hspace, ih]
    | false =>
      have hfill : ∀ p, p.lacks t = false →
          visible (fill p k (t :: ts)) = fill p k (t :: visible ts) := by
        intro p hlacks
        rw [fill_cons hspace hlacks, visible_cons hspace, ih, fill_cons hspace hlacks]
      rw [visible_cons hspace]
      cases hlacks : p.lacks t with
      | true =>
        rw [fill_lacks hspace hlacks, visible_cons rfl, hfill _ rfl, fill_lacks hspace hlacks]
      | false => exact hfill p hlacks

/-! ## Filling and separation -/

theorem wellFormed_zero : zero.WellFormed := by
  refine ⟨List.cons_ne_nil _ _, fun c hc => ?_⟩
  rw [List.mem_singleton.1 hc]
  rfl

theorem separated_close (k : Nat) : Separated (fill .operand k []) := by
  show Separated (List.replicate k (mark ')'))
  induction k with
  | zero => exact .nil
  | succ k ih => exact ih.cons (by decide : isMarkChar ')' = true) fun u _ => by cases u <;> trivial

theorem mark_of_head_close {u : Token} (h : u ∈ (fill .operand k []).head?) :
    ∃ c, u = mark c :=
  ⟨')', List.eq_of_mem_replicate (List.mem_of_mem_head? h)⟩

/-- A zero may stand between a mark and what is not a number. -/
theorem Separated.cons_zero {prev : Token} (hts : Separated ts)
    (hmark : ∀ u ∈ ts.head?, ∃ c, u = mark c) (hwell : prev.WellFormed)
    (hprev : ∀ run, prev ≠ number run) : Separated (prev :: zero :: ts) := by
  refine (hts.cons wellFormed_zero fun u hu => ?_).cons hwell fun u hu => ?_
  · obtain ⟨c, rfl⟩ := hmark u hu
    exact apart_mark zero c
  · obtain rfl := Option.some.inj hu
    cases prev with
    | number run => exact absurd rfl (hprev run)
    | word run => trivial
    | mark c => trivial

/-- Filling keeps the tokens apart, since no zero is written behind a number. -/
theorem separated_cons_fill {prev : Token} (h : Separated (prev :: ts))
    (hprev : p ≠ .operand → ∀ run, prev ≠ number run) : Separated (prev :: fill p k ts) := by
  induction ts generalizing p k prev with
  | nil =>
    have hwell := h.wellFormed prev List.mem_cons_self
    by_cases hp : p = .operand
    · subst hp
      refine (separated_close k).cons hwell fun u hu => ?_
      obtain ⟨c, rfl⟩ := mark_of_head_close hu
      exact apart_mark prev c
    · rw [fill_nil hp]
      exact (separated_close k).cons_zero (fun u => mark_of_head_close) hwell (hprev hp)
  | cons t ts ih =>
    have hwell := h.wellFormed prev List.mem_cons_self
    have hapart : ∀ us : List Token, ∀ u ∈ (t :: us).head?, prev.Apart u := by
      intro us u hu
      obtain rfl := Option.some.inj hu
      exact (h.head rfl).1
    cases hspace : t.isSpace with
    | true =>
      have ht : ∀ run, t ≠ number run := by
        rintro run rfl
        cases hspace
      rw [fill_space hspace]
      exact (ih h.tail fun _ => ht).cons hwell (hapart _)
    | false =>
      cases hlacks : p.lacks t with
      | true =>
        obtain ⟨rfl, c, rfl⟩ := of_lacks hlacks
        rw [fill_lacks hspace hlacks, fill_cons hspace rfl]
        refine (ih h.tail fun _ run => by simp).cons_zero (fun u hu => ?_) hwell
          (hprev (by decide))
        exact ⟨c, (Option.some.inj hu).symm⟩
      | false =>
        rw [fill_cons hspace hlacks]
        refine (ih h.tail fun hp run => ?_).cons hwell (hapart _)
        rintro rfl
        exact hp rfl

theorem separated_fill (h : Separated ts) : Separated (fill p k ts) := by
  -- A space in front is apart from everything.
  have hspace : Separated (mark ' ' :: ts) :=
    h.cons (by decide : isMarkChar ' ' = true) fun u _ => by cases u <;> trivial
  exact (separated_cons_fill hspace fun _ run => by simp).tail

/-- The tokens of a repaired text are the filled tokens of the text. -/
theorem ofText_repair (source : String) :
    ofText (repair source).toList = fill .start 0 (ofText source.toList) := by
  rw [repair, String.toList_ofList, ofText, scan_flatMap_text (separated_fill (separated_scan _)),
    visible_fill]
  rfl

example : repair "() * (3 +" = "(0) * (3 +0)" := by cbv

end Token

end Calculator
