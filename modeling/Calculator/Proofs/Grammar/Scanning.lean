import Calculator.Proofs.Grammar.Token
import Mathlib.Data.List.Chain

/-!
# Scanning

The tokens of a text are the only ones that make up the text, are runs of their
kind of characters or single marks, and never put two runs of one kind side by
side.
-/

namespace Calculator.Token

/-- The token is made of the characters of its kind. -/
def WellFormed : Token → Prop
  | number run => run ≠ [] ∧ ∀ c ∈ run, isNumberChar c = true
  | word run => run ≠ [] ∧ ∀ c ∈ run, c.isLower = true
  | mark c => isMarkChar c = true

theorem WellFormed.text_ne_nil {t : Token} (h : t.WellFormed) : t.text ≠ [] := by
  cases t with
  | number run => exact h.1
  | word run => exact h.1
  | mark c => exact List.cons_ne_nil _ _

/-- The tokens stay apart when one is written behind the other. -/
def Apart : Token → Token → Prop
  | number _, number _ => False
  | word _, word _ => False
  | _, _ => True

theorem Apart.symm {t u : Token} (h : t.Apart u) : u.Apart t := by
  cases t <;> cases u <;> exact h

/-- The tokens can be read off the text that they make up. -/
structure Separated (ts : List Token) : Prop where
  wellFormed : ∀ t ∈ ts, t.WellFormed
  apart : ts.IsChain Apart

theorem Separated.nil : Separated [] :=
  ⟨fun _ h => absurd h List.not_mem_nil, .nil⟩

theorem Separated.tail {t : Token} {ts : List Token} (h : Separated (t :: ts)) : Separated ts :=
  ⟨fun u hu => h.wellFormed u (List.mem_cons_of_mem t hu), h.apart.tail⟩

theorem Separated.cons {t : Token} {ts : List Token} (h : Separated ts) (ht : t.WellFormed)
    (hapart : ∀ u ∈ ts.head?, t.Apart u) : Separated (t :: ts) := by
  refine ⟨?_, ?_⟩
  · intro u hu
    rcases List.mem_cons.1 hu with rfl | hu
    · exact ht
    · exact h.wellFormed u hu
  · cases ts with
    | nil => exact .singleton t
    | cons u us => exact .cons_cons (hapart u rfl) h.apart

theorem Separated.append {ts us : List Token} (hts : Separated ts) (hus : Separated us)
    (hapart : ∀ t ∈ ts.getLast?, ∀ u ∈ us.head?, t.Apart u) : Separated (ts ++ us) := by
  refine ⟨?_, List.isChain_append.2 ⟨hts.apart, hus.apart, hapart⟩⟩
  intro t ht
  rcases List.mem_append.1 ht with ht | ht
  · exact hts.wellFormed t ht
  · exact hus.wellFormed t ht

theorem apart_mark (t : Token) (c : Char) : t.Apart (mark c) := by
  cases t <;> trivial

theorem mark_apart (c : Char) (t : Token) : (mark c).Apart t := by
  cases t <;> trivial

/-! ## From texts to tokens -/

theorem head_of_scan_number {cs run : List Char} {ts : List Token}
    (h : scan cs = number run :: ts) : ∃ c ∈ cs.head?, isNumberChar c = true := by
  cases cs with
  | nil =>
    rw [scan] at h
    cases h
  | cons c cs =>
    rw [scan] at h
    split at h
    · next hc => exact ⟨c, rfl, hc⟩
    · split at h <;> cases h

theorem head_of_scan_word {cs run : List Char} {ts : List Token}
    (h : scan cs = word run :: ts) : ∃ c ∈ cs.head?, c.isLower = true := by
  cases cs with
  | nil =>
    rw [scan] at h
    cases h
  | cons c cs =>
    rw [scan] at h
    split at h
    · cases h
    · split at h
      · next hc => exact ⟨c, rfl, hc⟩
      · cases h

theorem flatMap_text_scan (cs : List Char) : (scan cs).flatMap text = cs := by
  induction cs using scan.induct with
  | case1 => simp [scan]
  | case2 c cs hc ih =>
    rw [scan_number hc, List.flatMap_cons, text, List.dropWhile_cons_of_pos hc, ih,
      List.takeWhile_cons_of_pos hc, List.cons_append, List.takeWhile_append_dropWhile]
  | case3 c cs _ hc ih =>
    rw [scan_word hc, List.flatMap_cons, text, List.dropWhile_cons_of_pos hc, ih,
      List.takeWhile_cons_of_pos hc, List.cons_append, List.takeWhile_append_dropWhile]
  | case4 c cs hn hl ih =>
    rw [scan_mark (by simp [isMarkChar, hn, hl]), List.flatMap_cons, ih]
    rfl

theorem not_of_head_dropWhile {p : Char → Bool} {cs : List Char} {c : Char}
    (h : c ∈ (cs.dropWhile p).head?) : p c = false := by
  have hnot := List.head?_dropWhile_not p cs
  rw [h] at hnot
  exact hnot

theorem of_mem_cons_takeWhile {p : Char → Bool} {c : Char} {cs : List Char} (hc : p c = true) :
    ∀ d ∈ c :: cs.takeWhile p, p d = true := by
  intro d hd
  rcases List.mem_cons.1 hd with rfl | hd
  · exact hc
  · exact List.all_eq_true.1 List.all_takeWhile d hd

theorem separated_scan (cs : List Char) : Separated (scan cs) := by
  induction cs using scan.induct with
  | case1 =>
    rw [scan]
    exact .nil
  | case2 c cs hc ih =>
    rw [scan, if_pos hc]
    refine ih.cons ⟨List.cons_ne_nil _ _, of_mem_cons_takeWhile hc⟩ fun u hu => ?_
    cases u with
    | word run => trivial
    | mark d => trivial
    | number run =>
      obtain ⟨ts, hts⟩ := List.head?_eq_some_iff.1 hu
      obtain ⟨d, hd, hd'⟩ := head_of_scan_number hts
      exact absurd hd' (Bool.eq_false_iff.1 (not_of_head_dropWhile hd))
  | case3 c cs hn hc ih =>
    rw [scan, if_neg hn, if_pos hc]
    refine ih.cons ⟨List.cons_ne_nil _ _, of_mem_cons_takeWhile hc⟩ fun u hu => ?_
    cases u with
    | number run => trivial
    | mark d => trivial
    | word run =>
      obtain ⟨ts, hts⟩ := List.head?_eq_some_iff.1 hu
      obtain ⟨d, hd, hd'⟩ := head_of_scan_word hts
      exact absurd hd' (Bool.eq_false_iff.1 (not_of_head_dropWhile hd))
  | case4 c cs hn hl ih =>
    have hc : isMarkChar c = true := by simp [isMarkChar, hn, hl]
    rw [scan_mark hc]
    exact ih.cons hc fun u _ => mark_apart c u

/-! ## From tokens to texts -/

theorem head_of_flatMap_text {t : Token} {ts : List Token} (h : Separated (t :: ts)) :
    ∃ c ∈ ((t :: ts).flatMap text).head?, c ∈ t.text := by
  obtain ⟨c, cs, hcs⟩ :=
    List.exists_cons_of_ne_nil (h.wellFormed t List.mem_cons_self).text_ne_nil
  rw [List.flatMap_cons, hcs]
  exact ⟨c, rfl, List.mem_cons_self⟩

/-- The class of characters of a run ends with the run. -/
theorem takeWhile_flatMap_text {p : Char → Bool} {run : List Char} {ts : List Token}
    (hrun : ∀ c ∈ run, p c = true) (hts : Separated ts)
    (hstop : ∀ u ∈ ts.head?, ∀ c ∈ u.text, p c = false) :
    (run ++ ts.flatMap text).takeWhile p = run ∧
      (run ++ ts.flatMap text).dropWhile p = ts.flatMap text := by
  rw [List.takeWhile_append_of_pos hrun, List.dropWhile_append_of_pos hrun]
  cases ts with
  | nil => simp
  | cons u us =>
    obtain ⟨c, hc, hmem⟩ := head_of_flatMap_text hts
    obtain ⟨cs, hcs⟩ := List.head?_eq_some_iff.1 hc
    have hpc : ¬ p c = true := by simp [hstop u rfl c hmem]
    rw [hcs, List.takeWhile_cons_of_neg hpc, List.dropWhile_cons_of_neg hpc]
    simp

theorem isNumberChar_eq_false_of_apart {run : List Char} {u : Token}
    (h : (number run).Apart u) (hu : u.WellFormed) : ∀ c ∈ u.text, isNumberChar c = false := by
  intro c hc
  cases u with
  | number run' => exact absurd h id
  | word run' =>
    rw [Bool.eq_false_iff]
    intro hn
    exact absurd (hu.2 c hc) (Bool.eq_false_iff.1 (isLower_eq_false_of_isNumberChar hn))
  | mark d =>
    obtain rfl := List.mem_singleton.1 hc
    have hd : isMarkChar c = true := hu
    simp only [isMarkChar, Bool.and_eq_true, Bool.not_eq_true'] at hd
    exact hd.1

theorem isLower_eq_false_of_apart {run : List Char} {u : Token}
    (h : (word run).Apart u) (hu : u.WellFormed) : ∀ c ∈ u.text, c.isLower = false := by
  intro c hc
  cases u with
  | number run' => exact isLower_eq_false_of_isNumberChar (hu.2 c hc)
  | word run' => exact absurd h id
  | mark d =>
    obtain rfl := List.mem_singleton.1 hc
    have hd : isMarkChar c = true := hu
    simp only [isMarkChar, Bool.and_eq_true, Bool.not_eq_true'] at hd
    exact hd.2

theorem Separated.head {t u : Token} {ts : List Token} (h : Separated (t :: ts))
    (hu : u ∈ ts.head?) : t.Apart u ∧ u.WellFormed := by
  obtain ⟨us, rfl⟩ := List.head?_eq_some_iff.1 hu
  exact ⟨(List.isChain_cons_cons.1 h.apart).1, h.wellFormed u (by simp)⟩

theorem scan_flatMap_text {ts : List Token} (h : Separated ts) : scan (ts.flatMap text) = ts := by
  induction ts with
  | nil => simp [scan]
  | cons t ts ih =>
    have ht := h.wellFormed t List.mem_cons_self
    rw [List.flatMap_cons]
    cases t with
    | number run =>
      obtain ⟨c, cs, rfl⟩ := List.exists_cons_of_ne_nil ht.1
      obtain ⟨htake, hdrop⟩ := takeWhile_flatMap_text ht.2 h.tail fun u hu =>
        isNumberChar_eq_false_of_apart (h.head hu).1 (h.head hu).2
      rw [text, List.cons_append, scan_number (ht.2 c List.mem_cons_self), ← List.cons_append,
        htake, hdrop, ih h.tail]
    | word run =>
      obtain ⟨c, cs, rfl⟩ := List.exists_cons_of_ne_nil ht.1
      obtain ⟨htake, hdrop⟩ := takeWhile_flatMap_text ht.2 h.tail fun u hu =>
        isLower_eq_false_of_apart (h.head hu).1 (h.head hu).2
      rw [text, List.cons_append, scan_word (ht.2 c List.mem_cons_self), ← List.cons_append,
        htake, hdrop, ih h.tail]
    | mark c => rw [text, List.singleton_append, scan_mark ht, ih h.tail]

theorem scan_eq_iff {cs : List Char} {ts : List Token} :
    scan cs = ts ↔ ts.flatMap text = cs ∧ Separated ts := by
  constructor
  · rintro rfl
    exact ⟨flatMap_text_scan cs, separated_scan cs⟩
  · rintro ⟨rfl, h⟩
    exact scan_flatMap_text h

/-! ## Texts one behind the other -/

/-- Whether the characters, one behind the other, belong to one run. -/
def sameRun (a b : Char) : Bool :=
  isNumberChar a && isNumberChar b || a.isLower && b.isLower

/-- No run goes on from the first text to the second. -/
def Breaks (cs ds : List Char) : Prop :=
  ∀ a ∈ cs.getLast?, ∀ b ∈ ds.head?, sameRun a b = false

instance (cs ds : List Char) : Decidable (Breaks cs ds) :=
  decidable_of_iff ((cs.getLast?.all fun a => ds.head?.all fun b => !sameRun a b) = true) <| by
    simp only [Breaks, Option.all_eq_true, Bool.not_eq_true', Option.mem_def]

theorem sameRun_of_isMarkChar {a : Char} (h : isMarkChar a = true) (b : Char) :
    sameRun a b = false := by
  simp only [isMarkChar, Bool.and_eq_true, Bool.not_eq_true'] at h
  simp [sameRun, h.1, h.2]

/-- No run goes on across a mark. -/
theorem breaks_mark {d : Char} (hd : isMarkChar d = true) (cs ds : List Char) :
    Breaks cs (d :: ds) := by
  rintro a - b hb
  cases hb
  simp only [isMarkChar, Bool.and_eq_true, Bool.not_eq_true'] at hd
  simp [sameRun, hd.1, hd.2]

theorem Breaks.append {cs ds es : List Char} (h : Breaks cs (ds ++ es)) (h' : Breaks ds es) :
    Breaks (cs ++ ds) es := by
  intro a ha b hb
  rw [List.getLast?_append] at ha
  cases hds : ds.getLast? with
  | some d =>
    rw [hds] at ha
    exact h' a (hds.trans ha) b hb
  | none =>
    obtain rfl := List.getLast?_eq_none_iff.1 hds
    exact h a ha b hb

theorem apart_of_sameRun_eq_false {t u : Token} (ht : t.WellFormed) (hu : u.WellFormed)
    {a b : Char} (ha : a ∈ t.text) (hb : b ∈ u.text) (h : sameRun a b = false) : t.Apart u := by
  simp only [sameRun, Bool.or_eq_false_iff] at h
  cases t with
  | mark c => exact mark_apart c u
  | number run =>
    cases u with
    | mark d => exact apart_mark _ d
    | word run' => trivial
    | number run' => simp [ht.2 a ha, hu.2 b hb] at h
  | word run =>
    cases u with
    | mark d => exact apart_mark _ d
    | number run' => trivial
    | word run' => simp [ht.2 a ha, hu.2 b hb] at h

theorem exists_getLast_of_scan {cs : List Char} {t : Token} (h : t ∈ (scan cs).getLast?) :
    ∃ a ∈ cs.getLast?, a ∈ t.text := by
  obtain ⟨ts, hts⟩ := List.getLast?_eq_some_iff.1 h
  have ht : t ∈ scan cs := by simp [hts]
  obtain ⟨run, a, hrun⟩ := (List.eq_nil_or_concat' t.text).resolve_left
    ((separated_scan cs).wellFormed t ht).text_ne_nil
  refine ⟨a, ?_, by simp [hrun]⟩
  rw [← flatMap_text_scan cs, hts]
  simp [hrun]

theorem exists_head_of_scan {cs : List Char} {t : Token} (h : t ∈ (scan cs).head?) :
    ∃ a ∈ cs.head?, a ∈ t.text := by
  obtain ⟨ts, hts⟩ := List.head?_eq_some_iff.1 h
  have hcs := flatMap_text_scan cs
  rw [hts] at hcs
  rw [← hcs]
  exact head_of_flatMap_text (hts ▸ separated_scan cs)

/-- Two texts keep their tokens when one is written behind the other. -/
theorem scan_append {cs ds : List Char} (h : Breaks cs ds) :
    scan (cs ++ ds) = scan cs ++ scan ds := by
  refine scan_eq_iff.2 ⟨?_, ?_⟩
  · rw [List.flatMap_append, flatMap_text_scan, flatMap_text_scan]
  · refine (separated_scan cs).append (separated_scan ds) fun t ht u hu => ?_
    obtain ⟨a, hlast, ha⟩ := exists_getLast_of_scan ht
    obtain ⟨b, hhead, hb⟩ := exists_head_of_scan hu
    exact apart_of_sameRun_eq_false ((separated_scan cs).wellFormed t (List.mem_of_getLast? ht))
      ((separated_scan ds).wellFormed u (List.mem_of_head? hu)) ha hb (h a hlast b hhead)

end Calculator.Token
