import Colloquy.Proofs.Session.Course

/-!
# Steps follow the flow

A step of a turn is sound and complete against the flow: `TurnSetting.Faithful` lists what is
considered and in which order, exactly when each of these offers is viable, that a viable offer is
taken if there is one, that none of greater score is, and what taking it changes.
`Reachable.step_faithful` says so of every step of every turn from a reachable session.

Viability is `Viable` for transitions and `Answers` for the pending answer.  Every offer sees the
bindings and the gates as they were at the start of the step; only the random source moves on from
one to the next.
-/

namespace Colloquy

namespace TurnSetting

variable (given : TurnSetting)

/-- What is traced of a transition that is considered. -/
def tracedOf (t : Transition) : String × Float :=
  (t.phrase.source, t.score)

/-- What is traced of a pending answer that is considered: the rule's precondition. -/
def tracedOfAnswer (answer : RuleAnswer) : Option (String × Float) :=
  given.flow.rules[answer.rule]?.map fun rule => (rule.precondition.source, answer.score)

/-- The step with a number, counted from zero, considered the offers and took the given one of them:
all of this is as the flow has it. -/
structure Faithful (leg : Leg) (i : Nat) (offers : List Offer)
    (choice : Option (Candidate × Nat)) : Prop where
  /-- The transitions of the speaker out of the state are considered, once each and in the order in
  which they were added; after them, in the first step of a system turn only, the pending answer. -/
  considered : offers.map (fun o => (o.trace.source, o.trace.score)) =
    (given.flow.outgoing leg.state given.speaker).map tracedOf ++
      if given.speaker = .system ∧ i = 0 then
        (leg.before.standing.pending.bind given.tracedOfAnswer).toList
      else []
  /-- A transition is viable exactly if it says something under the bindings, leads to a state that
  exists and lets it in, and has no closed gate. -/
  transition_iff : ∀ j t, (given.flow.outgoing leg.state given.speaker)[j]? = some t → ∀ c,
    (∃ o, offers[j]? = some o ∧ o.candidate = some c) ↔
      ∃ src, given.Viable leg.before.standing t
        (given.sourceAt leg.before.standing j leg.source) c src
  /-- The pending answer is viable exactly if the rule's postcondition generates. -/
  answer_iff : given.speaker = .system → i = 0 → ∀ answer ∈ leg.before.standing.pending, ∀ c,
    (∃ o, offers[(given.flow.outgoing leg.state given.speaker).length]? = some o ∧
        o.candidate = some c) ↔
      ∃ src, given.Answers leg.before.standing answer
        (given.sourceAt leg.before.standing
          (given.flow.outgoing leg.state given.speaker).length leg.source) c src
  /-- The trace tells the viable offers from the others. -/
  verdict_iff : ∀ o ∈ offers, o.trace.verdict = .viable ↔ o.candidate.isSome = true
  /-- None is taken only if none is viable. -/
  none_iff : choice = none ↔ ∀ o ∈ offers, o.candidate = none
  /-- What is taken is viable, and nothing viable has a greater score. -/
  greatest : ∀ c place, choice = some (c, place) →
    (∃ o, offers[place]? = some o ∧ o.candidate = some c) ∧
      ∀ o ∈ offers, ∀ c' ∈ o.candidate, ¬ c.score < c'.score
  /-- Taking it leads to its target with its bindings, closes its gate and says its text; an answer
  that was considered is used up. -/
  committed : ∀ c place, choice = some (c, place) → ∃ p,
    ((given.step leg.before leg.source).1 = .goOn p ∨
      (given.step leg.before leg.source).1 = .stop p) ∧
    p.standing.state = c.target ∧ p.standing.vars = c.vars ∧
    p.standing.gates = gatesAfter leg.before.standing.gates c ∧
    p.standing.pending =
      (if given.speaker = .system ∧ i = 0 then none else leg.before.standing.pending) ∧
    p.outputs = (if c.text = "" then leg.before.outputs else leg.before.outputs ++ [c.text]) ∧
    ∃ trace, p.steps = leg.before.steps ++ [trace] ∧ trace.candidates = offers.map (·.trace) ∧
      trace.chosen = some place

variable {given}

theorem offersOf_map {α : Type} {f : Offer → α} {g : Transition → α} {st : Standing}
    (hfg : ∀ t src, f (given.offer st t src).1 = g t) (ts : List Transition) :
    ∀ src, (given.offersOf st ts src).1.map f = ts.map g := by
  induction ts with
  | nil => intro src; rfl
  | cons t ts ih =>
    intro src
    show f (given.offer st t src).1 :: (given.offersOf st ts (given.offer st t src).2).1.map f = _
    rw [hfg, ih, List.map_cons]

/-- Every offer is that of a transition or of the pending answer. -/
theorem mem_offers {st : Standing} {withAnswer : Bool} {src : Source} {o : Offer}
    (h : o ∈ (given.offers st withAnswer src).1) :
    (∃ t src', o = (given.offer st t src').1) ∨
      ∃ answer ∈ st.pending, ∃ src', (given.answerOffer st answer src').1 = some o := by
  rw [offers_eq] at h
  rcases List.mem_append.mp h with h | h
  · obtain ⟨i, hi⟩ := List.mem_iff_getElem?.mp h
    rw [offersOf_getElem?] at hi
    obtain ⟨t, -, rfl⟩ := Option.map_eq_some_iff.mp hi
    exact .inl ⟨t, _, rfl⟩
  · split at h
    · obtain ⟨answer, hanswer, ho⟩ := Option.bind_eq_some_iff.mp (Option.mem_toList.mp h)
      exact .inr ⟨answer, hanswer, _, ho⟩
    · cases h

/-- What is traced of the pending answer, if there is one and its rule exists. -/
theorem answerOffer_traced {st : Standing} (hsound : st.Sound given.flow) (src : Source) :
    ((st.pending.bind fun answer => (given.answerOffer st answer src).1).toList.map
      fun o => (o.trace.source, o.trace.score)) =
        (st.pending.bind given.tracedOfAnswer).toList := by
  cases hpending : st.pending with
  | none => rfl
  | some answer =>
    obtain ⟨rule, hrule, -, -⟩ := hsound.pending_rule answer hpending
    obtain ⟨o, ho, hsource, hscore, -⟩ := given.answerOffer_isSome st hrule src
    rw [Option.bind_some, Option.bind_some, ho, tracedOfAnswer, hrule]
    show [(o.trace.source, o.trace.score)] = _
    rw [hsource, hscore]
    rfl

/-- Whether the pending answer is considered hangs on the number of the step. -/
theorem OnCourse.admitted {p : Progress} (h : given.OnCourse p) {i : Nat}
    (hlength : p.steps.length = i) (hzero : i = 0 → p.first = true) :
    (given.admitsAnswer p = true ↔ given.speaker = .system ∧ i = 0) ∨
      p.standing.pending = none := by
  cases hfirst : p.first with
  | false =>
    have hne : i ≠ 0 := fun hi => by rw [hzero hi] at hfirst; cases hfirst
    exact .inl (iff_of_false (by simp [admitsAnswer, hfirst]) fun h => hne h.2)
  | true =>
    cases hretried : p.retried with
    | true => exact .inr (h.tried hfirst hretried)
    | false =>
      rw [(h.fresh hfirst hretried).1] at hlength
      have hi : i = 0 := hlength.symm
      exact .inl (by simp [admitsAnswer, hfirst, hi])

/-- What taking the candidate that a survey gives commits the turn to. -/
theorem OnCourse.commit_eq {p : Progress} (h : given.OnCourse p) {i : Nat}
    (hlength : p.steps.length = i) (hzero : i = 0 → p.first = true) {src : Source} {c : Candidate}
    {place : Nat} (hviable : given.ViableAt p src place c) (offers : List Offer) :
    (given.commit (given.afterSurvey p) offers c place).standing =
      { p.standing with
        state := c.target, vars := c.vars, gates := gatesAfter p.standing.gates c
        pending := if given.speaker = .system ∧ i = 0 then none else p.standing.pending } := by
  have hpending : (if given.admitsAnswer p then none else p.standing.pending) =
      if given.speaker = .system ∧ i = 0 then none else p.standing.pending := by
    rcases h.admitted hlength hzero with hiff | hnone
    · simp only [hiff]
    · rw [hnone, ite_self, ite_self]
  rw [afterSurvey_eq, commit_standing]
  dsimp only
  rw [hviable.landing_eq, hpending]

theorem OnCourse.faithful (hflow : given.flow.WellFormed) {leg : Leg} {i : Nat}
    (h : given.OnCourse leg.before) (hlength : leg.before.steps.length = i)
    (hzero : i = 0 → leg.before.first = true) :
    given.Faithful leg i (given.survey leg.before leg.source).1.1
      (given.survey leg.before leg.source).1.2 where
  considered := by
    show ((given.offers leg.before.standing (given.admitsAnswer leg.before) leg.source).1.map _) = _
    rw [offers_eq, List.map_append, offersOf_map (g := tracedOf)
      fun t src => Prod.ext (given.offer_trace _ t src).1 (given.offer_trace _ t src).2.1]
    congr 1
    rcases h.admitted hlength hzero with hiff | hnone
    · by_cases hadmits : given.admitsAnswer leg.before = true
      · rw [if_pos hadmits, if_pos (hiff.mp hadmits)]
        exact answerOffer_traced h.sound _
      · rw [if_neg hadmits, if_neg (mt hiff.mpr hadmits), List.map_nil]
    · rw [hnone]
      simp
  transition_iff := by
    intro j t ht c
    have hoffer := given.offers_getElem?_transition ht (given.admitsAnswer leg.before) leg.source
    constructor
    · rintro ⟨o, ho, hc⟩
      obtain rfl := Option.some.inj (ho.symm.trans hoffer)
      exact ⟨_, given.viable_iff.mpr ⟨hc, rfl⟩⟩
    · rintro ⟨src, hviable⟩
      exact ⟨_, hoffer, (given.viable_iff.mp hviable).1⟩
  answer_iff := by
    intro hspeaker hi answer hanswer c
    have hadmits : given.admitsAnswer leg.before = true := by
      simp [admitsAnswer, hspeaker, hzero hi]
    show (∃ o, (given.offers _ (given.admitsAnswer leg.before) _).1[_]? = some o ∧ _) ↔ _
    rw [hadmits, Leg.state, offers_getElem?_answer, hanswer, Option.bind_some]
    constructor
    · rintro ⟨o, ho, hc⟩
      exact ⟨_, given.answers_iff.mpr ⟨Option.bind_eq_some_iff.mpr ⟨o, ho, hc⟩, rfl⟩⟩
    · rintro ⟨src, hanswers⟩
      exact Option.bind_eq_some_iff.mp (given.answers_iff.mp hanswers).1
  verdict_iff := by
    intro o ho
    rcases mem_offers ho with ⟨t, src, rfl⟩ | ⟨answer, hanswer, src, hoffer⟩
    · exact (given.offer_trace _ t src).2.2
    · obtain ⟨rule, hrule, -, -⟩ := h.sound.pending_rule answer hanswer
      obtain ⟨o', ho', -, -, hverdict⟩ := given.answerOffer_isSome leg.before.standing hrule src
      obtain rfl := Option.some.inj (ho'.symm.trans hoffer)
      exact hverdict
  none_iff := by
    rw [given.choice_eq_none_iff hflow h.sound]
    constructor
    · intro hnone o ho
      obtain ⟨j, hj⟩ := List.mem_iff_getElem?.mp ho
      rw [Option.eq_none_iff_forall_ne_some]
      exact fun c hc => hnone j c (given.viableAt_iff.mpr ⟨o, hj, hc⟩)
    · intro hnone j c hviable
      obtain ⟨o, ho, hc⟩ := given.viableAt_iff.mp hviable
      cases (hnone o (List.mem_of_getElem? ho)).symm.trans hc
  greatest := by
    intro c place hchoice
    obtain ⟨hviable, hgreatest⟩ := given.choice_greatest hchoice
    refine ⟨given.viableAt_iff.mp hviable, fun o ho c' hc' => ?_⟩
    obtain ⟨j, hj⟩ := List.mem_iff_getElem?.mp ho
    exact hgreatest j c' (given.viableAt_iff.mpr ⟨o, hj, hc'⟩)
  committed := by
    intro c place hchoice
    have hstanding := h.commit_eq hlength hzero (given.choice_greatest hchoice).1
      (given.survey leg.before leg.source).1.1
    have houtputs := given.commit_outputs (given.afterSurvey leg.before)
      (given.survey leg.before leg.source).1.1 c place
    have hsteps := given.commit_steps (given.afterSurvey leg.before)
      (given.survey leg.before leg.source).1.1 c place
    simp only [String.isEmpty_iff] at houtputs
    have hsettles := given.step_settles leg.before leg.source
    generalize (given.step leg.before leg.source).1 = m at hsettles ⊢
    rw [hchoice] at hsettles
    rw [afterSurvey_eq] at hstanding houtputs hsteps
    -- Passing the floor and going on change nothing of what is committed.
    cases hsettles with
    | answer =>
      exact ⟨_, .inr rfl, congrArg (·.state) hstanding, congrArg (·.vars) hstanding,
        congrArg (·.gates) hstanding, congrArg (·.pending) hstanding, houtputs, _, hsteps, rfl, rfl⟩
    | answerOnward =>
      exact ⟨_, .inl rfl, congrArg (·.state) hstanding, congrArg (·.vars) hstanding,
        congrArg (·.gates) hstanding, congrArg (·.pending) hstanding, houtputs, _, hsteps, rfl, rfl⟩
    | arrival =>
      exact ⟨_, .inr rfl, congrArg (·.state) hstanding, congrArg (·.vars) hstanding,
        congrArg (·.gates) hstanding, congrArg (·.pending) hstanding, houtputs, _, hsteps, rfl, rfl⟩
    | hop =>
      exact ⟨_, .inl rfl, congrArg (·.state) hstanding, congrArg (·.vars) hstanding,
        congrArg (·.gates) hstanding, congrArg (·.pending) hstanding, houtputs, _, hsteps, rfl, rfl⟩

end TurnSetting

namespace Session

/-- Every step of a turn from a reachable session follows the flow. -/
theorem Reachable.step_faithful {flow : Flow} (hbuilt : flow.Built) {s : Session}
    (h : Reachable flow s) {speaker : Speaker} {utterance : Option String} {st : Standing}
    {outcome : RuleOutcome}
    (hprepare : prepare flow (heard flow utterance) speaker s.standing = .ok (st, outcome))
    {i : Nat} {leg : Leg}
    (hleg : (setting flow speaker utterance).leg? ⟨.opening st, s.source⟩ i =
      some leg) :
    (setting flow speaker utterance).Faithful leg i
      ((setting flow speaker utterance).survey leg.before leg.source).1.1
      ((setting flow speaker utterance).survey leg.before leg.source).1.2 := by
  have hopening : (setting flow speaker utterance).OnCourse (.opening st) :=
    TurnSetting.onCourse_opening (prepare_sound hprepare (h.sound hbuilt))
  obtain ⟨hcourse, hlength⟩ := hopening.leg? hbuilt.wellFormed rfl i hleg
  refine hcourse.faithful hbuilt.wellFormed hlength fun hi => ?_
  -- The first leg is the one with which the turn begins.
  rw [hi] at hleg
  rw [← Option.some.inj hleg]
  rfl

/-- On the tour, the second step of the first turn takes a transition that is led to the garden,
though it is drawn to the tower. -/
theorem step_faithful_tour :
    ∃ leg, (setting .tour .system none).leg? ⟨.opening (.initial .tour), .mixed 7⟩ 1 = some leg ∧
      (setting .tour .system none).Faithful leg 1
        ((setting .tour .system none).survey leg.before leg.source).1.1
        ((setting .tour .system none).survey leg.before leg.source).1.2 ∧
      ((setting .tour .system none).survey leg.before leg.source).1.2.map (·.1.target) = some 3 ∧
      (Flow.tour.outgoing leg.state .system).map (·.target) = [2] := by
  have hsome : ((setting .tour .system none).leg? ⟨.opening (.initial .tour), .mixed 7⟩
      1).isSome = true := by
    decide +kernel
  obtain ⟨leg, hleg⟩ := Option.isSome_iff_exists.mp hsome
  have hled : (((setting .tour .system none).leg? ⟨.opening (.initial .tour), .mixed 7⟩
      1).bind fun leg =>
        ((setting .tour .system none).survey leg.before leg.source).1.2.map (·.1.target)) =
          some 3 := by
    decide +kernel
  have hdrawn : ((setting .tour .system none).leg? ⟨.opening (.initial .tour), .mixed 7⟩
      1).map (fun leg => (Flow.tour.outgoing leg.state .system).map (·.target)) = some [2] := by
    decide +kernel
  rw [hleg, Option.bind_some] at hled
  rw [hleg, Option.map_some, Option.some.injEq] at hdrawn
  have hprepare : prepare .tour (heard .tour none) .system (start .tour (.mixed 7)).standing =
      .ok (.initial .tour, { vars := (Standing.initial .tour).vars }) := rfl
  exact ⟨leg, hleg, (Reachable.start (.mixed 7)).step_faithful Flow.tour_built hprepare hleg, hled,
    hdrawn⟩

end Session

end Colloquy
