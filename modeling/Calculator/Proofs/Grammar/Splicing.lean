import Calculator.Proofs.Expr.Variables
import Calculator.Proofs.Grammar.Recognition
import Calculator.Proofs.Grammar.Scanning
import Calculator.Proofs.Grammar.Tightening

/-!
# Splicing

A text in parentheses may be put in the place of a variable of another text. The
parentheses keep its tokens apart from their neighbours, and make an operand of
it wherever the variable was one. So the tree of the first text takes the place
of the variable.
-/

namespace Calculator

/-- The text with `(e)` in the place of every word `x`. -/
def splice (x e source : String) : String :=
  .ofList ((Token.scan source.toList).flatMap fun t =>
    if t = .word x.toList then '(' :: e.toList ++ [')'] else t.text)

example : splice "x" "a - b" "x * xx - sqrt x" = "(a - b) * xx - sqrt (a - b)" := by cbv

namespace Token

/-- What comes in the place of a token if the tokens `es` come, in parentheses, in the place of
the word `x`. -/
def spliced (x : List Char) (es : List Token) (t : Token) : List Token :=
  if t = word x then mark '(' :: es ++ [mark ')'] else [t]

variable {x : List Char} {es ts : List Token}

@[simp] theorem spliced_mark (c : Char) : spliced x es (mark c) = [mark c] :=
  if_neg nofun

@[simp] theorem spliced_number (run : List Char) : spliced x es (number run) = [number run] :=
  if_neg nofun

theorem spliced_self : spliced x es (word x) = mark '(' :: es ++ [mark ')'] :=
  if_pos rfl

theorem spliced_word {run : List Char} (h : run ≠ x) : spliced x es (word run) = [word run] :=
  if_neg fun hword => h (Token.word.inj hword)

theorem flatMap_spliced_mark (c : Char) (ts : List Token) :
    (mark c :: ts).flatMap (spliced x es) = mark c :: ts.flatMap (spliced x es) := by
  rw [List.flatMap_cons, spliced_mark, List.singleton_append]

/-! ## Tokens of the spliced text -/

theorem mark_of_mem_head?_flatMap_spliced {u : Token}
    (h : u ∈ (ts.flatMap (spliced x es)).head?) : u = mark '(' ∨ u ∈ ts.head? := by
  cases ts with
  | nil => cases h
  | cons t ts =>
    rw [List.flatMap_cons, spliced] at h
    split at h
    · cases h
      exact .inl rfl
    · cases h
      exact .inr rfl

theorem separated_enclosed (hes : Separated es) (hts : Separated ts) :
    Separated (mark '(' :: es ++ mark ')' :: ts) := by
  have hclose : Separated (mark ')' :: ts) :=
    hts.cons (by decide : isMarkChar ')' = true) fun u _ => mark_apart ')' u
  refine Separated.cons (hes.append hclose ?_) (by decide : isMarkChar '(' = true)
    fun u _ => mark_apart '(' u
  rintro t - u ⟨⟩
  exact apart_mark t ')'

theorem separated_flatMap_spliced (hes : Separated es) (hts : Separated ts) :
    Separated (ts.flatMap (spliced x es)) := by
  induction ts with
  | nil => exact .nil
  | cons t ts ih =>
    rw [List.flatMap_cons, spliced]
    split
    · rw [List.append_assoc]
      exact separated_enclosed hes (ih hts.tail)
    · refine (ih hts.tail).cons (hts.wellFormed t List.mem_cons_self) fun u hu => ?_
      rcases mark_of_mem_head?_flatMap_spliced hu with rfl | hu
      · exact apart_mark t '('
      · exact (hts.head hu).1

theorem scan_splice (x e source : String) :
    scan (splice x e source).toList =
      (scan source.toList).flatMap (spliced x.toList (scan e.toList)) := by
  refine scan_eq_iff.2
    ⟨?_, separated_flatMap_spliced (separated_scan e.toList) (separated_scan source.toList)⟩
  rw [splice, String.toList_ofList, List.flatMap_assoc]
  refine List.flatMap_congr fun t _ => ?_
  rw [spliced]
  split
  · rw [List.flatMap_append, List.flatMap_cons, flatMap_text_scan]
    rfl
  · exact List.flatMap_singleton _ _

theorem visible_flatMap_spliced (x : List Char) (es ts : List Token) :
    visible (ts.flatMap (spliced x es)) = (visible ts).flatMap (spliced x (visible es)) := by
  induction ts with
  | nil => rfl
  | cons t ts ih =>
    have happend : visible ((t :: ts).flatMap (spliced x es)) =
        visible (spliced x es t) ++ visible (ts.flatMap (spliced x es)) := List.filter_append _ _
    rw [happend, ih]
    cases hspace : t.isSpace with
    | true =>
      rw [visible_space hspace, eq_of_beq hspace, spliced_mark]
      rfl
    | false =>
      rw [visible_cons hspace, List.flatMap_cons]
      congr 1
      rw [spliced, spliced]
      split
      · exact congrArg (mark '(' :: ·) (List.filter_append _ _)
      · exact visible_cons hspace []

theorem ofText_splice (x e source : String) :
    ofText (splice x e source).toList =
      (ofText source.toList).flatMap (spliced x.toList (ofText e.toList)) := by
  rw [ofText, scan_splice, visible_flatMap_spliced]
  rfl

end Token

/-! ## Derivations -/

theorem FollowsOperator.spliced {x : List Char} {es ts : List Token} (h : FollowsOperator ts) :
    FollowsOperator (ts.flatMap (Token.spliced x es)) := by
  intro c hc hmark
  obtain ⟨us, hus⟩ := Token.mark?_eq_some_iff.1 hmark
  have hhead : Token.mark c ∈ (ts.flatMap (Token.spliced x es)).head? := by
    rw [hus]
    rfl
  rcases Token.mark_of_mem_head?_flatMap_spliced hhead with hopen | hhead
  · cases hopen
    exact absurd hc (by decide)
  · obtain ⟨vs, rfl⟩ := List.head?_eq_some_iff.1 hhead
    exact h c hc rfl

/-- By induction on the derivation. A variable is a base, and so is a group. -/
theorem Derives.substitute {x : String} {us : List Token} {u : Expr} {m : Nat}
    (hx : Function.ofName? x = none) (hu : Derives .expression us u m)
    {nt : Nonterminal} {ts : List Token} {t : Expr} {n : Nat} (h : Derives nt ts t n) :
    ∃ k, Derives nt (ts.flatMap (Token.spliced x.toList us)) (Expr.substitute x u t) k := by
  induction h with
  | term _ ih =>
    obtain ⟨k, hk⟩ := ih
    exact ⟨k, .term hk⟩
  | sum column hop _ hus _ ihl ihr =>
    obtain ⟨k, hk⟩ := ihl
    obtain ⟨l, hl⟩ := ihr
    rw [List.flatMap_append, Token.flatMap_spliced_mark]
    exact ⟨max k l, .sum column hop hk hus.spliced hl⟩
  | factor _ ih =>
    obtain ⟨k, hk⟩ := ih
    exact ⟨k, .factor hk⟩
  | product column hop _ hus _ ihl ihr =>
    obtain ⟨k, hk⟩ := ihl
    obtain ⟨l, hl⟩ := ihr
    rw [List.flatMap_append, Token.flatMap_spliced_mark]
    exact ⟨max k l, .product column hop hk hus.spliced hl⟩
  | signed sign column _ ih =>
    obtain ⟨k, hk⟩ := ih
    rw [Token.flatMap_spliced_mark]
    exact ⟨k + 1, .signed sign column hk⟩
  | primary _ ih =>
    obtain ⟨k, hk⟩ := ih
    exact ⟨k + 1, .primary hk⟩
  | power column _ hus _ ihl ihr =>
    obtain ⟨k, hk⟩ := ihl
    obtain ⟨l, hl⟩ := ihr
    rw [List.flatMap_append, Token.flatMap_spliced_mark]
    exact ⟨max k l + 1, .power column hk hus.spliced hl⟩
  | base _ ih =>
    obtain ⟨k, hk⟩ := ih
    exact ⟨k, .base hk⟩
  | call function column _ ih =>
    obtain ⟨k, hk⟩ := ih
    have hname : function.name.toList ≠ x.toList := by
      intro hname
      rw [Function.ofName?_eq_some_iff.2 (String.toList_injective hname).symm] at hx
      cases hx
    rw [List.flatMap_cons, Token.spliced_word hname, List.singleton_append]
    exact ⟨k, .call function column hk⟩
  | number column hrun =>
    rw [List.flatMap_singleton, Token.spliced_number]
    exact ⟨0, .number column hrun⟩
  | @var run column hrun =>
    rw [List.flatMap_singleton, Expr.substitute]
    by_cases hname : run = x.toList
    · rw [hname, Token.spliced_self, if_pos String.ofList_toList]
      exact ⟨m, .group hu⟩
    · rw [Token.spliced_word hname, if_neg fun h => hname (by rw [← h, String.toList_ofList])]
      exact ⟨0, .var column hrun⟩
  | group _ ih =>
    obtain ⟨k, hk⟩ := ih
    rw [List.flatMap_append, Token.flatMap_spliced_mark, List.flatMap_singleton,
      Token.spliced_mark]
    exact ⟨k, .group hk⟩

/-! ## Trees -/

theorem Expr.exists_parse_splice {x e source : String} {t u : Expr}
    (hx : Function.ofName? x = none) (ht : Expr.parse .strictly source = .ok t)
    (hu : Expr.parse .strictly e = .ok u)
    (hnested : ∀ column,
      Expr.parse .strictly (splice x e source) ≠ .error ⟨.tooDeeplyNested, column⟩) :
    ∃ t', Expr.parse .strictly (splice x e source) = .ok t' ∧
      t'.bare = (substitute x u t).bare := by
  obtain ⟨m, -, -, hderives⟩ := derives_of_parse ht
  obtain ⟨n, -, -, hderives'⟩ := derives_of_parse hu
  obtain ⟨k, hk⟩ := hderives'.substitute hx hderives
  rw [← Token.ofText_splice] at hk
  have hunlimited : ∃ t', Expr.parse ⟨true, .unlimited⟩ (splice x e source) = .ok t' ∧
      t'.bare = (substitute x u t).bare := Expr.exists_parse_of_derives rfl rfl hk
  obtain ⟨t', ht', hbare⟩ := hunlimited
  rcases Expr.parse_narrows (Rules.bounded_tighter_unlimited true .standard)
    (splice x e source) with hsame | ⟨⟨kind, column⟩, herror, hadds, -⟩
  · exact ⟨t', hsame.trans ht', hbare⟩
  · obtain rfl : kind = .tooDeeplyNested := Rules.eq_of_adds_bounded hadds
    exact absurd herror (hnested column)

end Calculator
