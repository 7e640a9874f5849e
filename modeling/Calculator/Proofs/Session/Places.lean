import Calculator.Proofs.CommandLine.Steps
import Calculator.Proofs.Grammar.Nodes
import Calculator.Proofs.Grammar.Truth
import Calculator.Proofs.Session.Resolution

/-!
# The places of errors

The column of an error cuts the text in two. Only characters of the grammar stand before it, and
an error of a variable stands where the name of the variable begins.
-/

namespace Calculator

/-- The variable that the error is about. -/
def EvalError.variable? : EvalError → Option String
  | parse _ => none
  | invalidValue name _ _ => some name
  | unresolved name _ _ => some name

/-- The name stands between the two texts and the rest of the second one, as a run of letters to
which nothing can be added. -/
structure Stands (name : String) (before after : List Char) : Prop where
  ne_empty : name ≠ ""
  takeWhile_eq : after.takeWhile Char.isLower = name.toList
  isLower_getLast? : ∀ c ∈ before.getLast?, c.isLower = false

/-- The column cuts the text where the error is. -/
def EvalError.PointsInto (source : String) (e : EvalError) : Prop :=
  ∃ before after, source.toList = before ++ after ∧ e.column = before.length + 1 ∧
    (∀ c ∈ before, isGrammarChar c = true) ∧ ∀ name ∈ e.variable?, Stands name before after

/-- The two parts of the text are those before the column and from it on. -/
theorem EvalError.PointsInto.at_column {source : String} {e : EvalError}
    (h : e.PointsInto source) :
    let before := source.toList.take (e.column - 1)
    let after := source.toList.drop (e.column - 1)
    before.length + 1 = e.column ∧ (∀ c ∈ before, isGrammarChar c = true) ∧
      ∀ name ∈ e.variable?, Stands name before after := by
  intro before after
  obtain ⟨read, rest, hsource, hcolumn, hgrammar, hname⟩ := h
  have hbefore : before = read := by simp [before, hsource, hcolumn]
  have hafter : after = rest := by simp [after, hsource, hcolumn]
  rw [hbefore, hafter]
  exact ⟨hcolumn.symm, hgrammar, hname⟩

/-! ## Words of a text -/

namespace Token

/-- A word is cut off on both sides. -/
theorem stands_of_separated {us vs : List Token} {run : List Char}
    (h : Separated (us ++ word run :: vs)) :
    Stands (String.ofList run) (us.flatMap text) (run ++ vs.flatMap text) := by
  obtain ⟨hus, hvs, hbetween⟩ := List.isChain_append.1 h.apart
  have hleft : Separated us := ⟨fun t ht => h.wellFormed t (List.mem_append_left _ ht), hus⟩
  have hright : Separated (word run :: vs) :=
    ⟨fun t ht => h.wellFormed t (List.mem_append_right us ht), hvs⟩
  have hword : (word run).WellFormed := hright.wellFormed _ List.mem_cons_self
  apply Stands.mk
  · intro hempty
    apply hword.1
    rw [← String.toList_ofList (l := run), hempty, String.toList_empty]
  · rw [String.toList_ofList]
    exact (takeWhile_flatMap_text hword.2 hright.tail fun u hu =>
      isLower_eq_false_of_apart (hright.head hu).1 (hright.head hu).2).1
  · intro c hc
    cases hlast : us.getLast? with
    | none =>
      obtain rfl := List.getLast?_eq_none_iff.1 hlast
      cases hc
    | some u =>
      have hscan : u ∈ (scan (us.flatMap text)).getLast? := by
        rw [scan_flatMap_text hleft]
        exact hlast
      obtain ⟨d, hd, hmem⟩ := exists_getLast_of_scan hscan
      obtain rfl : c = d := Option.mem_unique hc hd
      have hapart : (word run).Apart u := (hbetween u hlast _ rfl).symm
      have hu : u.WellFormed := hleft.wellFormed u (List.mem_of_getLast? hlast)
      exact isLower_eq_false_of_apart hapart hu c hmem

theorem stands_of_mem_sites {source : String} {run : List Char} {column : Nat}
    (h : (word run, column) ∈ sites source) :
    ∃ before after, source.toList = before ++ after ∧ column = before.length + 1 ∧
      Stands (String.ofList run) before after := by
  obtain ⟨us, vs, hscan, hcolumn⟩ := exists_of_mem_locate (List.mem_filter.1 h).1
  refine ⟨us.flatMap text, run ++ vs.flatMap text, ?_, ?_, ?_⟩
  · rw [← flatMap_text_scan source.toList, hscan, List.flatMap_append, List.flatMap_cons]
    rfl
  · exact hcolumn.trans (Nat.add_comm _ _)
  · apply stands_of_separated
    rw [← hscan]
    exact separated_scan source.toList

end Token

/-! ## Variables of a tree -/

namespace Expr

variable {source name : String} {column : Nat} {rules : Rules} {t : Expr}

theorem var_mem_nodes (h : (name, column) ∈ t.occurrences) : var name column ∈ t.nodes := by
  induction t with
  | number value column => cases h
  | var name' column' =>
    cases List.mem_singleton.1 h
    exact List.mem_singleton_self _
  | unary sign operand column ih => exact List.mem_cons_of_mem _ (ih h)
  | binary op left right column ihl ihr =>
    rcases List.mem_append.1 h with h | h
    · exact List.mem_append_left _ (ihl h)
    · exact List.mem_append_right _ (List.mem_cons_of_mem _ (ihr h))
  | call function argument column ih => exact List.mem_cons_of_mem _ (ih h)

theorem exists_site {xs : List Expr} {sites : List (Token × Nat)} {x : Expr}
    (h : List.Forall₂ Sits xs sites) (hx : x ∈ xs) : ∃ site ∈ sites, x.Sits site := by
  induction h with
  | nil => cases hx
  | cons hsits _ ih =>
    rcases List.mem_cons.1 hx with rfl | hx
    · exact ⟨_, List.mem_cons_self, hsits⟩
    · obtain ⟨site, hsite, hsits⟩ := ih hx
      exact ⟨site, List.mem_cons_of_mem _ hsite, hsits⟩

/-- Every variable stands in the text at its column. -/
theorem stands_of_mem_occurrences (h : Expr.parse rules source = .ok t)
    (hleaf : (name, column) ∈ t.occurrences) :
    ∃ before after, source.toList = before ++ after ∧ column = before.length + 1 ∧
      Stands name before after := by
  obtain ⟨c, hend, hsited⟩ := sited_of_parse h
  obtain ⟨sites, hsites, hsits⟩ := hsited.sits
  rw [hend, List.append_nil] at hsites
  have hnode : var name column ∈ t.nodes.filter fun x => !x.isVacant source :=
    List.mem_filter.2 ⟨var_mem_nodes hleaf, rfl⟩
  obtain ⟨site, hsite, hsits⟩ := exists_site hsits hnode
  cases hsits with
  | var run column =>
    apply Token.stands_of_mem_sites
    rw [← hsites] at hsite
    exact hsite

/-- A text with a tree is made of characters of the grammar only. -/
theorem isGrammarChar_of_parse (h : Expr.parse rules source = .ok t) :
    ∀ c ∈ source.toList, isGrammarChar c = true := by
  obtain ⟨m, s, hrun, hend, -⟩ := Expr.parse_eq_ok_iff.1 h
  have hon : (Reader.ofText source).cursor.ReadsOn s.skipSpaces.cursor :=
    (Grammar.readsOn_of_run (c := .chain .sum) hrun).trans (.skipSpaces s.cursor)
  have hrest : s.skipSpaces.cursor.rest = [] :=
    List.head?_eq_none_iff.1 (s.current?_eq_none_iff.2 hend)
  obtain ⟨text, hreads, hlegible⟩ := hon
  have hsource : source.toList = text ++ s.skipSpaces.cursor.rest := hreads.rest_eq
  rw [hsource, hrest, List.append_nil]
  exact hlegible.grammar

end Expr

/-! ## Errors -/

variable {σ : Type} {ask : Resolver (StateM σ)} {st st' : σ} {s s' : Session} {source : String}

/-- An error of a variable is about a leaf of the tree. -/
theorem Refuses.eq_leaf {leaf : String × Nat} {e : EvalError} (h : Refuses ask st leaf e st') :
    e.variable? = some leaf.1 ∧ e.column = leaf.2 := by
  cases h <;> exact ⟨rfl, rfl⟩

namespace EvalError

theorem pointsInto_of_parse {e : ParseError} (h : Expr.parse s.rules source = .error e) :
    (parse e).PointsInto source := by
  obtain ⟨before, after, hsource, hcolumn, hlegible, -⟩ := ParseError.trueOf_of_parse h
  exact ⟨before, after, hsource, hcolumn, hlegible.grammar, nofun⟩

theorem pointsInto_of_value {t : Expr} {e : EvalError} (hparse : Expr.parse s.rules source = .ok t)
    {s₁ : Session} (h : Arrives (Evaluation.value ask t) s₁ st (.error e) s' st') :
    e.PointsInto source := by
  have hresolved := h.resolved
  generalize s'.bindings = b' at hresolved
  cases hresolved with
  | @stopped asked rest leaf _ _ _ _ hmissing _ _ hrefuses =>
    have hleaf : leaf ∈ t.missing s₁.bindings := by
      rw [hmissing]
      exact List.mem_append_right asked List.mem_cons_self
    obtain ⟨hname, hcolumn⟩ := hrefuses.eq_leaf
    obtain ⟨before, after, hsource, hbefore, hstands⟩ :=
      Expr.stands_of_mem_occurrences hparse (Expr.mem_occurrences_of_mem_missing hleaf)
    refine ⟨before, after, hsource, hcolumn.trans hbefore, ?_, ?_⟩
    · intro c hc
      apply Expr.isGrammarChar_of_parse hparse
      rw [hsource]
      exact List.mem_append_left after hc
    · intro name hmem
      rw [hname] at hmem
      cases hmem
      exact hstands

/-- Whatever goes wrong in an evaluation, the error points into the text. -/
theorem pointsInto_of_evaluate {e : EvalError}
    (h : Arrives (Evaluation.evaluate ask source) s st (.error e) s' st') :
    e.PointsInto source := by
  cases hparse : Expr.parse s.rules source with
  | error error =>
    obtain ⟨herror, -, -⟩ := h.unique (.evaluate_of_error hparse)
    cases herror
    exact pointsInto_of_parse hparse
  | ok t => exact pointsInto_of_value hparse ((Arrives.evaluate_iff_of_ok hparse).1 h)

end EvalError

end Calculator
