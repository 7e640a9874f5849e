import Calculator.Session.Evaluation

/-!
# Questions

The questions to a resolver, each with the bindings at the time. Where questions
lead from some bindings to others, the bindings change by nothing but answers,
and a name that has got a value is not asked for again.
-/

namespace Calculator

namespace Bindings

/-- What is bound stays bound to the same value. -/
def Grows (b b' : Bindings) : Prop :=
  ∀ (name : String) (value : Float), b[name]? = some value → b'[name]? = some value

namespace Grows

variable {b b' b'' : Bindings}

theorem refl (b : Bindings) : Grows b b := fun _ _ h => h

theorem trans (h : Grows b b') (h' : Grows b' b'') : Grows b b'' := fun name value hb =>
  h' name value (h name value hb)

end Grows

end Bindings

open Bindings

/-- A question to a resolver: the bindings when it is asked, the name, and what comes back. -/
structure Question where
  bindings : Bindings
  name : String
  response : Except Fault String

namespace Question

/-- The number that comes back, if one does. -/
def value? (q : Question) : Option Float :=
  q.response.toOption.bind answerValue?

/-- The bindings after the question. -/
def settled (q : Question) : Bindings :=
  match q.value? with
  | some value => q.bindings.insert q.name value
  | none => q.bindings

variable {q : Question} {name : String} {value : Float}

theorem settled_of_value (h : q.value? = some value) :
    q.settled = q.bindings.insert q.name value := by
  rw [settled, h]

theorem settled_of_none (h : q.value? = none) : q.settled = q.bindings := by
  rw [settled, h]

theorem settled_getElem? (hunbound : q.bindings[q.name]? = none) :
    q.settled[name]? = some value ↔
      q.bindings[name]? = some value ∨ q.name = name ∧ q.value? = some value := by
  cases hvalue : q.value? with
  | none => simp [settled_of_none hvalue]
  | some x =>
    rw [settled_of_value hvalue, Std.ExtTreeMap.getElem?_insert]
    by_cases hname : q.name = name
    · subst hname
      simp [hunbound]
    · simp [hname]

theorem grows_settled (hunbound : q.bindings[q.name]? = none) : Grows q.bindings q.settled :=
  fun _ _ h => (settled_getElem? hunbound).2 (.inl h)

end Question

/-- The questions lead from the bindings to the others. Each is for a name that has no value at
the time. -/
inductive Leads : Bindings → List Question → Bindings → Prop where
  | nil (b : Bindings) : Leads b [] b
  | cons {q : Question} {qs : List Question} {b' : Bindings}
      (hunbound : q.bindings[q.name]? = none) (h : Leads q.settled qs b') :
      Leads q.bindings (q :: qs) b'

/-- The bindings before the first question, at each question, and after the last one. -/
def moments (b : Bindings) (qs : List Question) (b' : Bindings) : List Bindings :=
  b :: (qs.map Question.bindings ++ [b'])

namespace Leads

variable {b b' b'' : Bindings} {q : Question} {qs qs' : List Question} {name : String}
  {value : Float}

theorem single (hunbound : q.bindings[q.name]? = none) : Leads q.bindings [q] q.settled :=
  .cons hunbound (.nil _)

theorem append (h : Leads b qs b') (h' : Leads b' qs' b'') : Leads b (qs ++ qs') b'' := by
  induction h with
  | nil => exact h'
  | cons hunbound _ ih => exact .cons hunbound (ih h')

theorem unbound (h : Leads b qs b') : ∀ q ∈ qs, q.bindings[q.name]? = none := by
  induction h with
  | nil => exact fun _ hq => absurd hq List.not_mem_nil
  | cons hunbound _ ih => exact List.forall_mem_cons.2 ⟨hunbound, ih⟩

theorem pairwise_moments (h : Leads b qs b') : (moments b qs b').Pairwise Grows := by
  induction h with
  | nil b =>
    refine .cons (fun c hc => ?_) (List.pairwise_singleton _ _)
    rw [List.mem_singleton.1 hc]
    exact .refl b
  | @cons q qs b' hunbound _ ih =>
    obtain ⟨hgrows, hpairwise⟩ := List.pairwise_cons.1 ih
    have hlater : ∀ c ∈ qs.map Question.bindings ++ [b'], Grows q.bindings c := fun c hc =>
      (Question.grows_settled hunbound).trans (hgrows c hc)
    apply List.Pairwise.cons
    · exact List.forall_mem_cons.2 ⟨.refl _, hlater⟩
    · exact .cons hlater hpairwise

theorem grows_of_mem (h : Leads b qs b') (hq : q ∈ qs) : Grows b q.bindings :=
  (List.pairwise_cons.1 h.pairwise_moments).1 _
    (List.mem_append_left _ (List.mem_map_of_mem hq))

theorem grows (h : Leads b qs b') : Grows b b' :=
  (List.pairwise_cons.1 h.pairwise_moments).1 _
    (List.mem_append_right _ (List.mem_singleton_self _))

/-- What is bound in the end was bound before or is the number that came back for a question. -/
theorem getElem?_eq_some_iff (h : Leads b qs b') :
    b'[name]? = some value ↔
      b[name]? = some value ∨ ∃ q ∈ qs, q.name = name ∧ q.value? = some value := by
  induction h with
  | nil => simp
  | cons hunbound _ ih =>
    rw [ih, Question.settled_getElem? hunbound, or_assoc]
    simp

theorem pairwise_name_ne (h : Leads b qs b') :
    qs.Pairwise fun q q' => q.value?.isSome → q'.name ≠ q.name := by
  induction h with
  | nil => exact .nil
  | @cons q qs _ hunbound h ih =>
    refine .cons (fun q' hq' hvalue hname => ?_) ih
    obtain ⟨value, hvalue⟩ := Option.isSome_iff_exists.1 hvalue
    have hsettled : q.settled[q.name]? = some value :=
      (Question.settled_getElem? hunbound).2 (.inr ⟨rfl, hvalue⟩)
    have hbound := h.grows_of_mem hq' q.name value hsettled
    rw [← hname, h.unbound q' hq'] at hbound
    cases hbound

theorem head_moments (h : Leads b qs b') :
    (qs.map Question.bindings ++ [b']).head? = some b := by
  cases h <;> rfl

/-- The bindings after a question are those at the next one. -/
theorem head_moments_after (h : Leads b (qs ++ q :: qs') b') :
    (qs'.map Question.bindings ++ [b']).head? = some q.settled := by
  induction qs generalizing b with
  | nil =>
    cases h with
    | cons _ h => exact h.head_moments
  | cons _ _ ih =>
    cases h with
    | cons _ h => exact ih h

end Leads

end Calculator
