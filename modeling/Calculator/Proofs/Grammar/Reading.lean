import Calculator.Proofs.Grammar.Refusal
import Calculator.Proofs.Grammar.Scanning
import Mathlib.Data.List.TakeWhile

/-!
# What has been read

The text between two places of a reading. It is made of the characters of the grammar, it closes
no parenthesis that it has not opened, and no run goes on behind it.
-/

namespace Calculator

open Token

/-- The characters that a reading can pass. -/
def isGrammarChar (c : Char) : Bool :=
  c == ' ' || isNumberChar c || c.isLower || ['+', '-', '*', '/', '^', '(', ')'].contains c

/-- Nowhere in the text more parentheses have been closed than opened. -/
def KeepsOpen (text : List Char) : Prop :=
  ∀ n, (text.take n).count ')' ≤ (text.take n).count '('

/-- Such texts can stand between two places of a reading. -/
structure Legible (text : List Char) : Prop where
  grammar : ∀ c ∈ text, isGrammarChar c = true
  keepsOpen : KeepsOpen text

namespace Legible

variable {text text' : List Char}

theorem of_forall (h : ∀ c ∈ text, isGrammarChar c = true ∧ c ≠ ')') : Legible text where
  grammar c hc := (h c hc).1
  keepsOpen n := by
    have hcount : (text.take n).count ')' = 0 :=
      List.count_eq_zero.2 fun hmem => (h _ (List.mem_of_mem_take hmem)).2 rfl
    rw [hcount]
    exact Nat.zero_le _

theorem append (h : Legible text) (h' : Legible text') : Legible (text ++ text') where
  grammar c hc := (List.mem_append.1 hc).elim (h.grammar c) (h'.grammar c)
  keepsOpen n := by
    rw [List.take_append, List.count_append, List.count_append]
    exact Nat.add_le_add (h.keepsOpen n) (h'.keepsOpen _)

theorem group (h : Legible text) : Legible ('(' :: text ++ [')']) where
  grammar c hc := by
    rcases List.mem_append.1 hc with hc | hc
    · rcases List.mem_cons.1 hc with rfl | hc
      · decide
      · exact h.grammar c hc
    · obtain rfl := List.mem_singleton.1 hc
      decide
  keepsOpen n := by
    cases n with
    | zero => exact Nat.le_refl _
    | succ n =>
      have hlast : ([')'].take (n - text.length)).count ')' ≤ 1 :=
        (List.take_sublist _ _).count_le ')'
      rw [List.cons_append, List.take_succ_cons, List.count_cons_self,
        List.count_cons_of_ne (by decide), List.take_append, List.count_append, List.count_append]
      have := h.keepsOpen n
      omega

end Legible

namespace Cursor

/-- Reading on from `c`, past the text, leads to `c'`. -/
structure Reads (c : Cursor) (text : List Char) (c' : Cursor) : Prop where
  rest_eq : c.rest = text ++ c'.rest
  position_eq : c'.position = c.position + text.length
  breaks : Breaks text c'.rest

/-- Reading on from `c`, past a legible text, leads to `c'`. -/
def ReadsOn (c c' : Cursor) : Prop :=
  ∃ text, c.Reads text c' ∧ Legible text

variable {c c' c'' : Cursor} {text text' : List Char}

theorem Reads.append (h : c.Reads text c') (h' : c'.Reads text' c'') :
    c.Reads (text ++ text') c'' where
  rest_eq := by rw [h.rest_eq, h'.rest_eq, List.append_assoc]
  position_eq := by rw [h'.position_eq, h.position_eq, List.length_append, Nat.add_assoc]
  breaks := .append (h'.rest_eq ▸ h.breaks) h'.breaks

theorem Reads.refl (c : Cursor) : c.Reads [] c :=
  ⟨rfl, rfl, fun _ h => by cases h⟩

theorem reads_skipSpaces (c : Cursor) :
    c.Reads (c.rest.takeWhile (· == ' ')) c.skipSpaces where
  rest_eq := List.takeWhile_append_dropWhile.symm
  position_eq := rfl
  breaks a ha b _ := by
    have hspace := List.mem_takeWhile_imp (List.mem_of_getLast? ha)
    rw [eq_of_beq hspace]
    exact sameRun_of_isMarkChar rfl b

theorem reads_advance {d : Char} (hlook : c.current? = some d) (hd : isMarkChar d = true) :
    c.Reads [d] c.advance where
  rest_eq := rest_eq_cons hlook
  position_eq := by rw [advance, rest_eq_cons hlook]; rfl
  breaks a ha b _ := by
    cases ha
    exact sameRun_of_isMarkChar hd b

theorem reads_skipWhile {p : Char → Bool}
    (hp : ∀ a b, p a = true → p b = false → sameRun a b = false) (c : Cursor) :
    c.Reads (c.rest.takeWhile p) (c.skipWhile p) where
  rest_eq := List.takeWhile_append_dropWhile.symm
  position_eq := rfl
  breaks a ha b hb :=
    hp a b (List.mem_takeWhile_imp (List.mem_of_getLast? ha))
      (not_of_head_dropWhile hb)

namespace ReadsOn

theorem refl (c : Cursor) : c.ReadsOn c :=
  ⟨[], .refl c, .of_forall fun _ h => by cases h⟩

theorem trans (h : c.ReadsOn c') (h' : c'.ReadsOn c'') : c.ReadsOn c'' := by
  obtain ⟨text, hreads, hlegible⟩ := h
  obtain ⟨text', hreads', hlegible'⟩ := h'
  exact ⟨text ++ text', hreads.append hreads', hlegible.append hlegible'⟩

theorem skipSpaces (c : Cursor) : c.ReadsOn c.skipSpaces := by
  refine ⟨_, c.reads_skipSpaces, .of_forall fun a ha => ?_⟩
  have hspace := List.mem_takeWhile_imp ha
  rw [eq_of_beq hspace]
  exact ⟨rfl, by decide⟩

end ReadsOn

end Cursor

namespace Reader

variable {s s' : Reader} {c : Char} {run : List Char} {ts : List Token}

/-- The mark that comes next, with the spaces before it. -/
theorem reads_pass (h : Token.mark? s.tokens = some c) :
    s.cursor.Reads (s.cursor.rest.takeWhile (· == ' ') ++ [c]) s.pass.cursor :=
  s.cursor.reads_skipSpaces.append
    (Cursor.reads_advance (c := s.skipSpaces.cursor) (look_of_mark h).1 (look_of_mark h).2)

theorem readsOn_pass (h : Token.mark? s.tokens = some c) (hc : isGrammarChar c = true)
    (hopen : c ≠ ')') : s.cursor.ReadsOn s.pass.cursor := by
  refine (Cursor.ReadsOn.skipSpaces s.cursor).trans ⟨[c], ?_, .of_forall fun a ha => ?_⟩
  · exact Cursor.reads_advance (c := s.skipSpaces.cursor) (look_of_mark h).1 (look_of_mark h).2
  · rw [List.mem_singleton.1 ha]
    exact ⟨hc, hopen⟩

theorem readsOn_passRun {p : Char → Bool}
    (hp : ∀ a b, p a = true → p b = false → sameRun a b = false)
    (hgrammar : ∀ a, p a = true → isGrammarChar a = true ∧ a ≠ ')') (s : Reader) :
    s.cursor.ReadsOn (s.passRun p).cursor := by
  refine (Cursor.ReadsOn.skipSpaces s.cursor).trans
    ⟨_, s.skipSpaces.cursor.reads_skipWhile hp, .of_forall fun a ha => ?_⟩
  exact hgrammar a (List.mem_takeWhile_imp ha)

theorem readsOn_passNumber (s : Reader) : s.cursor.ReadsOn (s.passRun isNumberChar).cursor := by
  refine readsOn_passRun (fun a b ha hb => ?_) (fun a ha => ⟨?_, ?_⟩) s
  · simp [sameRun, hb, isLower_eq_false_of_isNumberChar ha]
  · simp [isGrammarChar, ha]
  · rintro rfl
    cases ha

theorem readsOn_passWord (s : Reader) : s.cursor.ReadsOn (s.passRun Char.isLower).cursor := by
  refine readsOn_passRun (fun a b ha hb => ?_) (fun a ha => ⟨?_, ?_⟩) s
  · have hn : isNumberChar a = false := by
      rw [Bool.eq_false_iff]
      intro hn
      rw [isLower_eq_false_of_isNumberChar hn] at ha
      cases ha
    simp [sameRun, hb, hn]
  · simp [isGrammarChar, ha]
  · rintro rfl
    cases ha

/-- A group with what it holds. -/
theorem readsOn_group (hmark : Token.mark? s.tokens = some '(')
    (hinner : s.pass.cursor.ReadsOn s'.cursor) (hclose : Token.mark? s'.tokens = some ')') :
    s.cursor.ReadsOn s'.pass.cursor := by
  obtain ⟨inner, hreads, hlegible⟩ :=
    hinner.trans (Cursor.ReadsOn.skipSpaces s'.cursor)
  refine (Cursor.ReadsOn.skipSpaces s.cursor).trans ⟨'(' :: inner ++ [')'], ?_, hlegible.group⟩
  have hopen := Cursor.reads_advance (c := s.skipSpaces.cursor) (look_of_mark hmark).1
    (look_of_mark hmark).2
  exact (hopen.append hreads).append
    (Cursor.reads_advance (c := s'.skipSpaces.cursor) (look_of_mark hclose).1
      (look_of_mark hclose).2)

end Reader

namespace Grammar

open Step

variable {rules : Rules} {c c' : Call} {s s' : Reader} {t : Measured} {rank : Rank}

theorem readsOn_operator (op : BinaryOp) (h : Token.mark? s.tokens = some op.symbol) :
    s.cursor.ReadsOn s.pass.cursor := by
  refine Reader.readsOn_pass h ?_ ?_
  · cases op <;> decide
  · cases op <;> decide

theorem readsOn_sign {sign : Sign} (h : (Token.mark? s.tokens).bind Sign.ofChar? = some sign) :
    s.cursor.ReadsOn s.pass.cursor := by
  refine Reader.readsOn_pass (mark?_of_sign? h) ?_ ?_
  · cases sign <;> decide
  · cases sign <;> decide

/-- Wherever the call succeeds, it has read a legible text. -/
def ReadsOnAt (rules : Rules) (c : Call) (s : Reader) : Prop :=
  ∀ t s', c.run rules s = .ok t s' → s.cursor.ReadsOn s'.cursor

theorem readsOn_operation {operand : Step Measured} (op : BinaryOp) {column : Nat}
    {left : Measured} (hmark : Token.mark? s.tokens = some op.symbol)
    (hoperand : ∀ right q, operand s.pass.skipSpaces = .ok right q →
      s.pass.skipSpaces.cursor.ReadsOn q.cursor)
    (h : operation rules operand op column left s.pass = .ok t s') :
    s.cursor.ReadsOn s'.cursor := by
  obtain ⟨-, right, hright, -⟩ := operation_ok.1 h
  exact ((readsOn_operator op hmark).trans (.skipSpaces s.pass.cursor)).trans
    (hoperand right s' hright)

theorem readsOn_signed (ih : ∀ c s', Calls rules .signed s c s' → ReadsOnAt rules c s') :
    ReadsOnAt rules .signed s := by
  intro t s' h
  cases signed_ok.1 h with
  | signed sign operand hsign hoperand hnode =>
    exact (readsOn_sign hsign).trans (ih _ _ (.sign hsign) operand s' hoperand)
  | unsigned base s₁ hsign hbase hpower =>
    refine (ih _ _ (.base hsign) base s₁ hbase).trans ?_
    rcases power_ok.1 hpower with ⟨hmark, hpower⟩ | ⟨-, -, rfl⟩
    · have hfollow := any_isOperatorChar_eq_false (operation_ok.1 hpower).1
      exact readsOn_operation .pow hmark
        (fun right q => ih _ _ (.exponent hsign hbase hmark hfollow) right q) hpower
    · exact .skipSpaces s₁.cursor

theorem readsOn_primary (ih : ∀ c s', Calls rules .primary s c s' → ReadsOnAt rules c s') :
    ReadsOnAt rules .primary s := by
  intro t s' h
  cases primary_ok.1 h with
  | group inner s₁ hmark hinner hclose =>
    have hreads := ih _ _ (.group hmark) inner s₁ hinner
    obtain ⟨-, ⟨hend, rfl⟩ | ⟨-, -, rfl⟩⟩ := close_ok.1 hclose
    · exact Reader.readsOn_group hmark hreads hend
    · exact ((Reader.readsOn_pass hmark (by decide) (by decide)).trans hreads).trans
        (.skipSpaces s₁.cursor)
  | number run ts value htokens hvalue => exact s.readsOn_passNumber
  | call run ts function argument htokens hname hargument hnode =>
    exact s.readsOn_passWord.trans (ih _ _ (.argument htokens hname) argument s' hargument)
  | var run ts htokens hname => exact s.readsOn_passWord
  | missing hstrict htokens => exact .skipSpaces s.cursor

theorem readsOn_tail {left : Measured}
    (ih : ∀ c s', Calls rules (.tail rank left) s c s' → ReadsOnAt rules c s') :
    ReadsOnAt rules (.tail rank left) s := by
  intro t s' h
  cases tail_ok.1 h with
  | stop hop => exact .skipSpaces s.cursor
  | step op node s₁ hop hnode htail =>
    have hfollow := any_isOperatorChar_eq_false (operation_ok.1 hnode).1
    refine (readsOn_operation _ (mark?_of_operator? hop).1 (fun right q hright => ?_) hnode).trans
      (ih _ _ (.next hop hnode) t s' htail)
    exact ih _ _ (.right left hop hfollow) right q (by rwa [Call.run_operand])

/-- By induction along the calls. -/
theorem readsOn_run (rules : Rules) (c : Call) (s : Reader) : ReadsOnAt rules c s := by
  induction c, s using Calls.induction rules with
  | h c s ih =>
    cases c with
    | chain rank =>
      intro t s' h
      obtain ⟨left, s₁, hleft, htail⟩ := chain_ok.1 h
      exact (ih _ _ (.operand rank s) left s₁ (by rwa [Call.run_operand])).trans
        (ih _ _ (.tail hleft) t s' htail)
    | tail rank left => exact readsOn_tail ih
    | factor =>
      intro t s' h
      obtain ⟨hlimit, s₁, hsigned, rfl⟩ := factor_ok.1 h
      exact ih _ _ (.enter hlimit) t s₁ hsigned
    | signed => exact readsOn_signed ih
    | primary => exact readsOn_primary ih

theorem readsOn_of_run (h : c.run rules s = .ok t s') : s.cursor.ReadsOn s'.cursor :=
  readsOn_run rules c s t s' h

theorem readsOn_of_operand (h : operand rules rank s = .ok t s') : s.cursor.ReadsOn s'.cursor :=
  readsOn_of_run (c := .operand rank) (by rwa [Call.run_operand])

/-- The base of a power and its sign, up to the exponent. -/
theorem readsOn_base (hbase : primary rules s = .ok t s')
    (hmark : Token.mark? s'.tokens = some '^') :
    s.cursor.ReadsOn s'.pass.skipSpaces.cursor :=
  ((readsOn_of_run (c := .primary) hbase).trans (readsOn_operator .pow hmark)).trans
    (.skipSpaces s'.pass.cursor)

theorem Calls.readsOn (h : Calls rules c s c' s') : s.cursor.ReadsOn s'.cursor := by
  cases h with
  | operand rank => exact .refl _
  | tail hleft => exact readsOn_of_operand hleft
  | right left hop hfollow =>
    exact (readsOn_operator _ (mark?_of_operator? hop).1).trans (.skipSpaces s.pass.cursor)
  | next hop hnode =>
    exact readsOn_operation _ (mark?_of_operator? hop).1 (fun _ _ => readsOn_of_operand) hnode
  | enter hlimit => exact .refl _
  | sign hsign => exact readsOn_sign hsign
  | base hsign => exact .refl _
  | exponent hsign hbase hmark hfollow => exact readsOn_base hbase hmark
  | group hmark => exact Reader.readsOn_pass hmark (by decide) (by decide)
  | argument htokens hname => exact s.readsOn_passWord

theorem Reached.readsOn {n : Nat} (h : Reached rules c s n c' s') : s.cursor.ReadsOn s'.cursor := by
  induction h with
  | here c s => exact .refl _
  | through h hreached ih => exact h.readsOn.trans ih

theorem Joins.readsOn {m : Nat} (h : Joins rules c s m s') : s.cursor.ReadsOn s'.cursor := by
  cases h with
  | operation hop hright =>
    exact ((readsOn_operator _ (mark?_of_operator? hop).1).trans (.skipSpaces s.pass.cursor)).trans
      (readsOn_of_operand hright)
  | sign hsign hoperand =>
    exact (readsOn_sign hsign).trans
      (readsOn_of_run (c := .factor) (s := s.pass.note _) hoperand)
  | power hsign hbase hmark hexponent =>
    exact (readsOn_base hbase hmark).trans (readsOn_of_run (c := .factor) hexponent)
  | call htokens hname hargument =>
    exact s.readsOn_passWord.trans
      (readsOn_of_run (c := .factor) (s := (s.passRun _).note _) hargument)

end Grammar

end Calculator
