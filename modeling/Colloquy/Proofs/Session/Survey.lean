import Colloquy.Proofs.Session.Viable

/-!
# What a step considers and takes

A step considers the transitions that the speaker can take out of the state, in their order, and
after them the pending answer if it is admitted (`offers_eq`).  `TurnSetting.ViableAt` says that a
viable candidate stands at a place among these; `viableAt_iff` finds it in the offers.

If the scores are numbers, as they are in a well-formed flow over a sound standing, a step takes no
candidate only if none is viable (`choice_eq_none_iff`), and a candidate that it takes is viable,
with no viable one of greater score beside it (`choice_greatest`).
-/

namespace Colloquy

/-- The state exists, and a pending answer is that of a rule which can answer. -/
structure Standing.Sound (flow : Flow) (st : Standing) : Prop where
  state_lt : st.state < flow.stateCount
  pending_rule : ∀ answer ∈ st.pending, ∃ rule, flow.rules[answer.rule]? = some rule ∧
    rule.postcondition.isSome = true ∧ answer.score = rule.score

namespace TurnSetting

variable (given : TurnSetting)

/-! ### What a step considers -/

/-- What is left of the source when the first transitions have been considered, as many as the
number says. -/
def sourceAt (st : Standing) (i : Nat) (src : Source) : Source :=
  (given.offersOf st ((given.flow.outgoing st.state given.speaker).take i) src).2

theorem offersOf_getElem? (st : Standing) (ts : List Transition) :
    ∀ (i : Nat) (src : Source), (given.offersOf st ts src).1[i]? =
      ts[i]?.map fun t => (given.offer st t (given.offersOf st (ts.take i) src).2).1 := by
  induction ts with
  | nil => intro i src; rfl
  | cons t ts ih =>
    intro i src
    have hcons : ∀ ts' : List Transition, given.offersOf st (t :: ts') src =
        ((given.offer st t src).1 :: (given.offersOf st ts' (given.offer st t src).2).1,
          (given.offersOf st ts' (given.offer st t src).2).2) := fun _ => rfl
    rw [hcons]
    cases i with
    | zero => rfl
    | succ i =>
      rw [List.getElem?_cons_succ, List.getElem?_cons_succ, ih, List.take_succ_cons, hcons]

theorem offersOf_length (st : Standing) (ts : List Transition) (src : Source) :
    (given.offersOf st ts src).1.length = ts.length := by
  induction ts generalizing src with
  | nil => rfl
  | cons t ts ih =>
    show (given.offersOf st ts (given.offer st t src).2).1.length + 1 = ts.length + 1
    rw [ih]

/-- What a step considers: the transitions, and after them the pending answer if it is admitted. -/
theorem offers_eq (st : Standing) (withAnswer : Bool) (src : Source) :
    (given.offers st withAnswer src).1 =
      (given.offersOf st (given.flow.outgoing st.state given.speaker) src).1 ++
        if withAnswer then
          (st.pending.bind fun answer => (given.answerOffer st answer
            (given.sourceAt st (given.flow.outgoing st.state given.speaker).length src)).1).toList
        else [] := by
  unfold offers sourceAt
  rw [List.take_length, Draw.bind_apply]
  cases st.pending with
  | none =>
    rw [Option.bind_none, Option.toList_none, ite_self, List.append_nil]
    rfl
  | some answer =>
    cases withAnswer with
    | false =>
      rw [if_neg Bool.false_ne_true, List.append_nil]
      rfl
    | true => rfl

/-- The offer at the place of a transition is the transition's. -/
theorem offers_getElem?_transition {st : Standing} {i : Nat} {t : Transition}
    (h : (given.flow.outgoing st.state given.speaker)[i]? = some t) (withAnswer : Bool)
    (src : Source) :
    (given.offers st withAnswer src).1[i]? =
      some (given.offer st t (given.sourceAt st i src)).1 := by
  have hlt : i < (given.offersOf st (given.flow.outgoing st.state given.speaker) src).1.length := by
    rw [offersOf_length]
    exact (List.getElem?_eq_some_iff.mp h).1
  rw [offers_eq, List.getElem?_append_left hlt, offersOf_getElem?, h]
  rfl

/-- After the transitions stands the offer of the pending answer, if it is admitted. -/
theorem offers_getElem?_answer (st : Standing) (src : Source) :
    (given.offers st true src).1[(given.flow.outgoing st.state given.speaker).length]? =
      st.pending.bind fun answer => (given.answerOffer st answer
        (given.sourceAt st (given.flow.outgoing st.state given.speaker).length src)).1 := by
  rw [offers_eq, List.getElem?_append_right (by rw [offersOf_length]), offersOf_length,
    Nat.sub_self, if_pos rfl, ← List.head?_eq_getElem?, Option.head?_toList]

/-! ### Viable candidates and their places -/

/-- When the turn considers its offers with the words of `src`, the candidate is viable and stands
at the place: either it is a transition's, or it is the pending answer's, after all transitions. -/
inductive ViableAt (p : Progress) (src : Source) : Nat → Candidate → Prop
  | transition {i : Nat} {t : Transition} {c : Candidate} {src' : Source}
      (considered : (given.flow.outgoing p.standing.state given.speaker)[i]? = some t)
      (viable : given.Viable p.standing t (given.sourceAt p.standing i src) c src') :
      ViableAt p src i c
  | answer {a : RuleAnswer} {c : Candidate} {src' : Source}
      (admitted : given.admitsAnswer p = true) (pending : p.standing.pending = some a)
      (answers : given.Answers p.standing a (given.sourceAt p.standing
        (given.flow.outgoing p.standing.state given.speaker).length src) c src') :
      ViableAt p src (given.flow.outgoing p.standing.state given.speaker).length c

/-- At most one offer follows the transitions. -/
theorem getElem?_toList_eq_some {α : Type} {x : Option α} {j : Nat} {a : α}
    (h : x.toList[j]? = some a) : j = 0 ∧ x = some a := by
  cases x with
  | none => cases h
  | some b =>
    cases j with
    | zero => exact ⟨rfl, h⟩
    | succ j => cases h

theorem viableAt_iff {p : Progress} {src : Source} {i : Nat} {c : Candidate} :
    given.ViableAt p src i c ↔ ∃ o,
      (given.offers p.standing (given.admitsAnswer p) src).1[i]? = some o ∧
        o.candidate = some c := by
  constructor
  · rintro (⟨considered, viable⟩ | ⟨admitted, pending, answers⟩)
    · exact ⟨_, given.offers_getElem?_transition considered _ _, (given.viable_iff.mp viable).1⟩
    · obtain ⟨o, ho, hc⟩ := Option.bind_eq_some_iff.mp (given.answers_iff.mp answers).1
      rw [admitted, offers_getElem?_answer, pending]
      exact ⟨o, ho, hc⟩
  · rintro ⟨o, ho, hc⟩
    cases ht : (given.flow.outgoing p.standing.state given.speaker)[i]? with
    | some t =>
      rw [given.offers_getElem?_transition ht] at ho
      obtain rfl := Option.some.inj ho
      exact .transition ht (given.viable_iff.mpr ⟨hc, rfl⟩)
    | none =>
      -- No transition stands at the place, so it is that of the answer.
      rw [offers_eq, List.getElem?_append_right (by
        rw [offersOf_length]; exact List.getElem?_eq_none_iff.mp ht), offersOf_length] at ho
      cases hadmits : given.admitsAnswer p with
      | false =>
        rw [hadmits] at ho
        cases ho
      | true =>
        rw [hadmits, if_pos rfl] at ho
        obtain ⟨hplace, hoffer⟩ := getElem?_toList_eq_some ho
        obtain ⟨a, ha, ho⟩ := Option.bind_eq_some_iff.mp hoffer
        have hlast : i = (given.flow.outgoing p.standing.state given.speaker).length :=
          Nat.le_antisymm (Nat.le_of_sub_eq_zero hplace) (List.getElem?_eq_none_iff.mp ht)
        rw [hlast]
        exact .answer hadmits ha (given.answers_iff.mpr ⟨by rw [ho]; exact hc, rfl⟩)

/-! ### The choice -/

theorem mem_viable_iff {offers : List Offer} {c : Candidate} {i : Nat} :
    (c, i) ∈ Offer.viable offers ↔ ∃ o, offers[i]? = some o ∧ o.candidate = some c := by
  unfold Offer.viable
  rw [List.mem_filterMap]
  constructor
  · rintro ⟨⟨o, j⟩, hmem, h⟩
    obtain ⟨c', hc', hpair⟩ := Option.map_eq_some_iff.mp h
    obtain ⟨rfl, rfl⟩ := Prod.mk.inj hpair
    exact ⟨o, List.mem_zipIdx_iff_getElem?.mp hmem, hc'⟩
  · rintro ⟨o, ho, hc⟩
    exact ⟨(o, i), List.mem_zipIdx_iff_getElem?.mpr ho, by simp [hc]⟩

/-- A survey considers the offers of the step and leaves the choice to one draw. -/
theorem survey_eq (p : Progress) (src : Source) :
    given.survey p src =
      let offers := given.offers p.standing (given.admitsAnswer p) src
      let draw := Selection.argmaxRandom ((Offer.viable offers.1).map (·.1.score)) offers.2
      ((offers.1, draw.1.bind fun i => (Offer.viable offers.1)[i]?), draw.2) := by
  unfold survey
  rw [Draw.bind_apply, Draw.bind_apply]
  rfl

theorem survey_offers (p : Progress) (src : Source) :
    (given.survey p src).1.1 = (given.offers p.standing (given.admitsAnswer p) src).1 := by
  rw [survey_eq]

theorem mem_viable_survey_iff {p : Progress} {src : Source} {c : Candidate} {i : Nat} :
    (c, i) ∈ Offer.viable (given.survey p src).1.1 ↔ given.ViableAt p src i c := by
  rw [mem_viable_iff, viableAt_iff, survey_offers]

/-- The draw that settles between the candidates of a survey. -/
theorem survey_choice (p : Progress) (src : Source) :
    (given.survey p src).1.2 =
      (Selection.argmaxRandom ((Offer.viable (given.survey p src).1.1).map (·.1.score))
        (given.offers p.standing (given.admitsAnswer p) src).2).1.bind
        fun i => (Offer.viable (given.survey p src).1.1)[i]? := by
  rw [survey_offers, survey_eq]

/-- The candidate that is taken is viable, and none of greater score is. -/
theorem choice_greatest {p : Progress} {src : Source} {c : Candidate} {place : Nat}
    (h : (given.survey p src).1.2 = some (c, place)) :
    given.ViableAt p src place c ∧
      ∀ i c', given.ViableAt p src i c' → ¬ c.score < c'.score := by
  rw [survey_choice] at h
  obtain ⟨j, hj, hc⟩ := Option.bind_eq_some_iff.mp h
  obtain ⟨s, hs, -, hgreatest⟩ := Selection.argmaxRandom_greatest hj
  rw [List.getElem?_map, hc, Option.map_some] at hs
  obtain rfl := Option.some.inj hs
  refine ⟨given.mem_viable_survey_iff.mp (List.mem_of_getElem? hc), fun i c' hc' => ?_⟩
  exact hgreatest c'.score (List.mem_map_of_mem (given.mem_viable_survey_iff.mpr hc'))

/-- The scores of viable candidates are finite. -/
theorem ViableAt.score_finite {p : Progress} {src : Source} {i : Nat} {c : Candidate}
    (h : given.ViableAt p src i c) (hflow : given.flow.WellFormed)
    (hsound : p.standing.Sound given.flow) : c.score.isFinite = true := by
  cases h with
  | transition considered viable =>
    rw [viable.score_eq]
    exact hflow.score_finite _ (List.mem_filter.mp (List.mem_of_getElem? considered)).1
  | answer admitted pending answers =>
    obtain ⟨rule, hrule, -, hscore⟩ := hsound.pending_rule _ pending
    rw [answers.score_eq, hscore]
    exact hflow.rule_score_finite rule (List.mem_of_getElem? hrule)

/-- A viable candidate leads to a state that exists. -/
theorem ViableAt.target_lt {p : Progress} {src : Source} {i : Nat} {c : Candidate}
    (h : given.ViableAt p src i c) (hflow : given.flow.WellFormed)
    (hsound : p.standing.Sound given.flow) : c.target < given.flow.stateCount := by
  cases h with
  | transition considered viable =>
    exact viable.target_lt hflow (List.mem_filter.mp (List.mem_of_getElem? considered)).1
  | answer admitted pending answers =>
    rw [answers.target_eq]
    exact hsound.state_lt

/-- Where a viable candidate leads, an answer leading nowhere else, is its target. -/
theorem ViableAt.landing_eq {p : Progress} {src : Source} {i : Nat} {c : Candidate}
    (h : given.ViableAt p src i c) :
    (if c.fromRule then p.standing.state else c.target) = c.target := by
  cases h with
  | transition considered viable =>
    rw [viable.fromRule_eq]
    rfl
  | answer admitted pending answers =>
    rw [answers.fromRule_eq, answers.target_eq]
    rfl

/-- Only a pending answer that is admitted is taken as one. -/
theorem ViableAt.of_fromRule {p : Progress} {src : Source} {i : Nat} {c : Candidate}
    (h : given.ViableAt p src i c) (hrule : c.fromRule = true) :
    given.admitsAnswer p = true ∧ p.standing.pending.isSome = true := by
  cases h with
  | transition considered viable =>
    rw [viable.fromRule_eq] at hrule
    cases hrule
  | answer admitted pending answers => exact ⟨admitted, by rw [pending]; rfl⟩

/-- The gate of a viable candidate is open. -/
theorem ViableAt.gate_open {p : Progress} {src : Source} {i : Nat} {c : Candidate}
    (h : given.ViableAt p src i c) : ∀ key ∈ c.gate, p.standing.gates.isClosed key = false := by
  cases h with
  | transition considered viable => exact viable.gate_open
  | answer admitted pending answers =>
    rw [answers.gate_eq]
    rintro key ⟨⟩

/-- No candidate is taken only if none is viable. -/
theorem choice_eq_none_iff {p : Progress} {src : Source} (hflow : given.flow.WellFormed)
    (hsound : p.standing.Sound given.flow) :
    (given.survey p src).1.2 = none ↔ ∀ i c, ¬ given.ViableAt p src i c := by
  rw [survey_choice]
  cases hj : (Selection.argmaxRandom ((Offer.viable (given.survey p src).1.1).map (·.1.score))
      (given.offers p.standing (given.admitsAnswer p) src).2).1 with
  | none =>
    -- The score of a viable candidate is a number, which would have been chosen.
    refine iff_of_true rfl fun i c hc => ?_
    have hnan := Selection.argmaxRandom_eq_none_iff.mp hj c.score
      (List.mem_map_of_mem (given.mem_viable_survey_iff.mpr hc))
    have hnum := Selection.isNaN_eq_false_of_isFinite (hc.score_finite given hflow hsound)
    rw [hnum] at hnan
    cases hnan
  | some j =>
    obtain ⟨s, hs, -⟩ := Selection.argmaxRandom_greatest hj
    rw [List.getElem?_map, Option.map_eq_some_iff] at hs
    obtain ⟨⟨c, i⟩, hc, -⟩ := hs
    refine iff_of_false (by simp [hc]) fun h => ?_
    exact h i c (given.mem_viable_survey_iff.mp (List.mem_of_getElem? hc))

/-- A step that takes no candidate leaves the source where its offers left it. -/
theorem survey_source_of_none {p : Progress} {src : Source}
    (h : ∀ i c, ¬ given.ViableAt p src i c) :
    (given.survey p src).2 = (given.offers p.standing (given.admitsAnswer p) src).2 := by
  have hnil : Offer.viable (given.survey p src).1.1 = [] := by
    rw [List.eq_nil_iff_forall_not_mem]
    rintro ⟨c, i⟩ hc
    exact h i c (given.mem_viable_survey_iff.mp hc)
  rw [survey_offers] at hnil
  rw [survey_eq]
  dsimp only
  rw [hnil]
  rfl

end TurnSetting

end Colloquy
