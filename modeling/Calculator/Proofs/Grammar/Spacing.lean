import Calculator.Proofs.Grammar.Sites
import Calculator.Proofs.Grammar.Transport

/-!
# Spaces between tokens

A space that is put between two tokens, or at an end of the text, changes no token. It only moves
the columns of what stands behind it.
-/

namespace Calculator

namespace Cursor

/-- The tokens that the grammar still sees, with their columns. -/
def seen (c : Cursor) : List (Token × Nat) :=
  c.counting fun t => !t.isSpace

/-- The column behind the last character. -/
def endColumn (c : Cursor) : Nat :=
  c.column + c.rest.length

theorem Reaches.endColumn_eq {c c' : Cursor} (h : c.Reaches c') : c'.endColumn = c.endColumn := by
  obtain ⟨text, hrest, hposition⟩ := h
  simp only [endColumn, column, hrest, hposition, List.length_append]
  omega

end Cursor

namespace Reader

variable {s : Reader}

theorem map_fst_seen (s : Reader) : s.cursor.seen.map Prod.fst = s.tokens := by
  rw [Cursor.seen, Cursor.counting, Cursor.located,
    ← Function.comp_def (fun t : Token => !t.isSpace) Prod.fst, ← List.filter_map,
    Token.map_fst_locate]
  rfl

theorem seen_cons {token : Token} {n : Nat} {c' : Cursor}
    (h : s.skipSpaces.cursor.located = (token, n) :: c'.located) (hspace : token.isSpace = false) :
    s.cursor.seen = (token, n) :: c'.seen :=
  counting_cons _ rfl h (by simp [hspace])

theorem seen_mark {c : Char} (h : Token.mark? s.tokens = some c) :
    s.cursor.seen = (.mark c, s.nextColumn) :: s.pass.cursor.seen := by
  refine seen_cons (located_mark h) (beq_eq_false_iff_ne.2 fun hspace => ?_)
  cases hspace
  exact s.current?_skipSpaces_ne_space (look_of_mark h).1

theorem seen_number {run : List Char} {ts : List Token} (h : s.tokens = .number run :: ts) :
    s.cursor.seen = (.number run, s.nextColumn) :: (s.passRun isNumberChar).cursor.seen :=
  seen_cons (located_number h) rfl

theorem seen_word {run : List Char} {ts : List Token} (h : s.tokens = .word run :: ts) :
    s.cursor.seen = (.word run, s.nextColumn) :: (s.passRun Char.isLower).cursor.seen :=
  seen_cons (located_word h) rfl

theorem nextColumn_eq_endColumn (h : s.tokens = []) : s.nextColumn = s.cursor.endColumn := by
  have hrest : s.skipSpaces.cursor.rest = [] :=
    List.head?_eq_none_iff.1 (s.current?_eq_none_iff.2 h)
  rw [← s.cursor.reaches_skipSpaces.endColumn_eq]
  show _ = s.skipSpaces.cursor.endColumn
  rw [Cursor.endColumn, hrest]
  rfl

/-- The next column is that of the next token, or of the end of the text. -/
theorem nextColumn_eq_seen (s : Reader) :
    s.nextColumn = (s.cursor.seen.head?.map Prod.snd).getD s.cursor.endColumn := by
  cases htokens : s.tokens with
  | nil =>
    have hseen : s.cursor.seen = [] := counting_eq_nil _ rfl htokens
    rw [hseen, nextColumn_eq_endColumn htokens]
    rfl
  | cons t ts =>
    cases t with
    | number run => rw [seen_number htokens]; rfl
    | word run => rw [seen_word htokens]; rfl
    | mark c =>
      have hmark : Token.mark? s.tokens = some c := by rw [htokens]; rfl
      rw [seen_mark hmark]
      rfl

end Reader

namespace Grammar

/-- At the second cursor the same tokens are seen as at the first, but at moved columns. -/
structure SeesMoved (f : Nat → Nat) (c d : Cursor) : Prop where
  seen_eq : d.seen = c.seen.map (Prod.map id f)
  endColumn_eq : d.endColumn = f c.endColumn

namespace SeesMoved

variable {f : Nat → Nat} {s q : Reader}

theorem tokens_eq (h : SeesMoved f s.cursor q.cursor) : q.tokens = s.tokens := by
  rw [← q.map_fst_seen, ← s.map_fst_seen, h.seen_eq, List.map_map]
  rfl

theorem nextColumn_eq (h : SeesMoved f s.cursor q.cursor) : q.nextColumn = f s.nextColumn := by
  rw [q.nextColumn_eq_seen, s.nextColumn_eq_seen, h.seen_eq, h.endColumn_eq]
  cases s.cursor.seen <;> rfl

/-- Behind the first token that both cursors see. -/
theorem tail {c c' d d' : Cursor} {x y : Token × Nat} (h : SeesMoved f c d)
    (hc : c.seen = x :: c'.seen) (hd : d.seen = y :: d'.seen) (hcc' : c.Reaches c')
    (hdd' : d.Reaches d') : SeesMoved f c' d' := by
  have hseen := h.seen_eq
  rw [hc, hd, List.map_cons] at hseen
  refine ⟨(List.cons.inj hseen).2, ?_⟩
  rw [hdd'.endColumn_eq, hcc'.endColumn_eq, h.endColumn_eq]

end SeesMoved

theorem transport_seesMoved (f : Nat → Nat) : Transport f (SeesMoved f) where
  tokens_eq := SeesMoved.tokens_eq
  nextColumn_eq := SeesMoved.nextColumn_eq
  skipSpaces {s q} h := by
    refine ⟨?_, ?_⟩
    · rw [Cursor.seen, Reader.counting_skipSpaces _ rfl, Cursor.seen,
        Reader.counting_skipSpaces _ rfl]
      exact h.seen_eq
    · exact q.cursor.reaches_skipSpaces.endColumn_eq.trans
        (h.endColumn_eq.trans (congrArg f s.cursor.reaches_skipSpaces.endColumn_eq.symm))
  pass {s q c} h hmark := by
    have hmark' : Token.mark? q.tokens = some c := by rw [h.tokens_eq, hmark]
    exact h.tail (Reader.seen_mark hmark) (Reader.seen_mark hmark') s.continues_pass.reaches
      q.continues_pass.reaches
  passNumber {s q run ts} h htokens :=
    h.tail (Reader.seen_number htokens) (Reader.seen_number (h.tokens_eq.trans htokens))
      (s.continues_passRun _).reaches (q.continues_passRun _).reaches
  passWord {s q run ts} h htokens :=
    h.tail (Reader.seen_word htokens) (Reader.seen_word (h.tokens_eq.trans htokens))
      (s.continues_passRun _).reaches (q.continues_passRun _).reaches

end Grammar

/-! ## One space more -/

/-- The text with a space behind its first `p` characters. -/
def spaced (p : Nat) (source : String) : String :=
  .ofList (source.toList.take p ++ ' ' :: source.toList.drop p)

/-- Where a column is then. Columns count from one. -/
def spacedColumn (p column : Nat) : Nat :=
  if p < column then column + 1 else column

open Token Grammar

theorem map_locate_before {p n : Nat} {ts : List Token} (hts : ∀ t ∈ ts, t.WellFormed)
    (h : n + (ts.flatMap text).length ≤ p + 1) :
    (locate n ts).map (Prod.map id (spacedColumn p)) = locate n ts := by
  refine (List.map_congr_left fun site hsite => ?_).trans (List.map_id _)
  exact Prod.ext rfl (if_neg (by have := lt_of_mem_locate hts hsite; omega))

theorem map_locate_behind {p n : Nat} (h : p < n) (ts : List Token) :
    (locate n ts).map (Prod.map id (spacedColumn p)) = locate (n + 1) ts := by
  rw [locate_succ]
  refine List.map_congr_left fun site hsite => ?_
  exact Prod.ext rfl (if_pos (Nat.lt_of_lt_of_le h (le_of_mem_locate hsite)))

/-- The tokens on the two sides of a place that is inside no run, and the same with a space
between them. -/
theorem scan_spaced {p : Nat} {source : String}
    (hbreaks : Breaks (source.toList.take p) (source.toList.drop p)) :
    scan source.toList = scan (source.toList.take p) ++ scan (source.toList.drop p) ∧
      scan (spaced p source).toList =
        scan (source.toList.take p) ++ mark ' ' :: scan (source.toList.drop p) := by
  constructor
  · rw [← scan_append hbreaks, List.take_append_drop]
  · rw [spaced, String.toList_ofList, scan_append (breaks_mark rfl _ _), scan_mark rfl]

theorem seesMoved_spaced {p : Nat} {source : String} (hp : p ≤ source.length)
    (hbreaks : Breaks (source.toList.take p) (source.toList.drop p)) :
    SeesMoved (spacedColumn p) (.ofText source) (.ofText (spaced p source)) := by
  obtain ⟨hscan, hscan'⟩ := scan_spaced hbreaks
  have hlength : (source.toList.take p).length = p := by
    rw [List.length_take, String.length_toList, Nat.min_eq_left hp]
  have htext : ((scan (source.toList.take p)).flatMap text).length = p := by
    rw [flatMap_text_scan, hlength]
  have hlocated : (Cursor.ofText source).located =
      locate 1 (scan (source.toList.take p)) ++ locate (1 + p) (scan (source.toList.drop p)) := by
    rw [Cursor.located, Cursor.ofText, hscan, locate_append, htext]
    rfl
  have hlocated' : (Cursor.ofText (spaced p source)).located =
      locate 1 (scan (source.toList.take p)) ++
        (mark ' ', 1 + p) :: locate (1 + p + 1) (scan (source.toList.drop p)) := by
    rw [Cursor.located, Cursor.ofText, hscan', locate_append, htext]
    rfl
  have hmoved : (Cursor.ofText source).located.map (Prod.map id (spacedColumn p)) =
      locate 1 (scan (source.toList.take p)) ++
        locate (1 + p + 1) (scan (source.toList.drop p)) := by
    rw [hlocated, List.map_append, map_locate_before (separated_scan _).wellFormed (by omega),
      map_locate_behind (by omega)]
  constructor
  · calc (Cursor.ofText (spaced p source)).seen
        = ((Cursor.ofText source).located.map (Prod.map id (spacedColumn p))).filter
            fun site => !site.1.isSpace := by
          rw [Cursor.seen, Cursor.counting, hlocated', hmoved, List.filter_append,
            List.filter_append, List.filter_cons_of_neg (by simp [isSpace])]
      _ = (Cursor.ofText source).seen.map (Prod.map id (spacedColumn p)) := List.filter_map
  · have hend : p < (Cursor.ofText source).endColumn := by
      rw [Cursor.endColumn, Cursor.ofText, String.length_toList]
      exact Nat.lt_of_le_of_lt hp (Nat.lt_add_of_pos_left (Nat.succ_pos _))
    rw [spacedColumn, if_pos hend]
    simp only [Cursor.endColumn, Cursor.ofText, Cursor.column, spaced, String.toList_ofList,
      List.length_append, List.length_cons, List.length_drop, hlength, String.length_toList]
    omega

/-- A space more, at a place inside no run, only moves columns. An error about deep nesting may
stand in the space before the token on which it stood. -/
theorem parse_spaced (rules : Rules) {p : Nat} {source : String} (hp : p ≤ source.length)
    (hbreaks : Breaks (source.toList.take p) (source.toList.drop p)) :
    match Expr.parse rules source, Expr.parse rules (spaced p source) with
    | .ok t, .ok t' => t' = t.mapColumns (spacedColumn p)
    | .error e, .error e' =>
      e'.kind = e.kind ∧ (e.kind ≠ .tooDeeplyNested → e'.column = spacedColumn p e.column)
    | _, _ => False := by
  have hagree := Reader.parse_agree (transport_seesMoved (spacedColumn p)) rules
    (s := .ofText source) (q := .ofText (spaced p source)) ⟨seesMoved_spaced hp hbreaks, rfl⟩
  simp only [Expr.parse]
  generalize ((Reader.ofText source).parse rules).1 = r at hagree
  generalize ((Reader.ofText (spaced p source)).parse rules).1 = r' at hagree
  cases hagree with
  | ok t => rfl
  | error h => exact ⟨h.kind_eq, fun hkind => h.column.resolve_right fun hdeep => hkind hdeep.1⟩

theorem parse_spaced_argument :
    4 ≤ "-sin30".length ∧ Breaks ("-sin30".toList.take 4) ("-sin30".toList.drop 4) ∧
      spaced 4 "-sin30" = "-sin 30" ∧
      Expr.parse .strictly "-sin 30" =
        .ok (.unary .minus (.call .sin (.number 30.0 6) 2) 1) := by
  have hp : 4 ≤ "-sin30".length := by decide
  have hbreaks : Breaks ("-sin30".toList.take 4) ("-sin30".toList.drop 4) := by decide
  have hspaced : spaced 4 "-sin30" = "-sin 30" := by decide
  have htree : Expr.parse .strictly "-sin30" =
      .ok (.unary .minus (.call .sin (.number 30.0 5) 2) 1) := by
    decide +kernel
  have h := parse_spaced .strictly hp hbreaks
  rw [hspaced, htree] at h
  cases hparse : Expr.parse .strictly "-sin 30" with
  | error e => rw [hparse] at h; exact h.elim
  | ok t =>
    rw [hparse] at h
    exact ⟨hp, hbreaks, hspaced, congrArg Except.ok h⟩

end Calculator
