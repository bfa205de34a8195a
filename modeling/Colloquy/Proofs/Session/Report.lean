import Colloquy.Proofs.Session.Completed
import Colloquy.Proofs.Session.Faithful

/-!
# Reports tell what a turn did

The report of a turn that succeeds is faithful (`Reachable.report_faithful`): its steps are numbered
and lead from the state in which the turn began to the one in which the session is left; what was
chosen is one of the candidates traced, and the best of the viable ones; and the counts are those of
the candidates traced (`TurnReport.Faithful`).

A step adds one trace and counts what is traced (`step_notes`), so that this holds before each leg
of the turn (`Traced.step`), and after the last one.
-/

namespace Colloquy

/-- The kinds of steps that end a turn without having taken a candidate. -/
def StepKind.Closes (kind : StepKind) : Prop :=
  kind = .errorSuccessor ∨ kind = .stay ∨ kind = .finish

namespace StepTrace

/-- How many of the candidates traced are viable. -/
def viable (step : StepTrace) : Nat :=
  step.candidates.countP fun entry => entry.verdict = .viable

/-- What was chosen is told by the step: the place of a viable candidate that leads to the step's
target and has the greatest score of those that are viable. -/
structure Faithful (step : StepTrace) : Prop where
  chosen_iff : step.chosen.isSome = true ↔ step.kind = .transition ∨ step.kind = .updateRule
  entry : ∀ place ∈ step.chosen, ∃ entry, step.candidates[place]? = some entry ∧
    entry.verdict = .viable ∧ entry.target = step.target ∧
    ∀ other ∈ step.candidates, other.verdict = .viable → other.score ≤ entry.score

/-- The steps lead from the one state to the other, each from where the one before it ended. -/
def Lead : String → List StepTrace → String → Prop
  | first, [], last => first = last
  | first, step :: steps, last => step.state = first ∧ Lead step.target steps last

theorem Lead.concat {last : String} {step : StepTrace} :
    ∀ {steps : List StepTrace} {first : String}, Lead first steps last → step.state = last →
      Lead first (steps ++ [step]) step.target := by
  intro steps
  induction steps with
  | nil =>
    intro first h hstate
    exact ⟨hstate.trans (Eq.symm h), rfl⟩
  | cons head steps ih =>
    intro first h hstate
    exact ⟨h.1, ih h.2 hstate⟩

end StepTrace

/-- A report that tells what the turn did. -/
structure TurnReport.Faithful (report : TurnReport) : Prop where
  steps_pos : 1 ≤ report.metrics.steps
  /-- The steps have the numbers from one on, as many as the report counts. -/
  numbered : report.steps.map (·.step) = List.range' 1 report.metrics.steps
  /-- The first step starts in the state in which the turn began, each of the others where the one
  before it ended, and the last one ends in the state in which the turn ended. -/
  leads : StepTrace.Lead report.startState report.steps report.endState
  closes_last : ∀ step ∈ report.steps.dropLast, ¬ step.kind.Closes
  faithful : ∀ step ∈ report.steps, step.Faithful
  evaluated_eq : report.metrics.candidatesEvaluated =
    (report.steps.map (·.candidates.length)).sum
  viable_eq : report.metrics.candidatesViable = (report.steps.map (·.viable)).sum

namespace TurnSetting

variable (given : TurnSetting)

/-! ### Offers and their traces -/

/-- The trace of an offer tells whether it is viable and, if so, where it leads and its score. -/
structure TracesOffer (o : Offer) : Prop where
  verdict_iff : o.trace.verdict = .viable ↔ o.candidate.isSome = true
  candidate : ∀ c ∈ o.candidate,
    o.trace.target = given.stateName c.target ∧ o.trace.score = c.score

variable {given}

theorem tracesOffer_of_mem {st : Standing} (hsound : st.Sound given.flow) {withAnswer : Bool}
    {src : Source} {o : Offer} (h : o ∈ (given.offers st withAnswer src).1) :
    given.TracesOffer o := by
  rcases mem_offers h with ⟨t, src, rfl⟩ | ⟨answer, hanswer, src, hoffer⟩
  · exact ⟨(given.offer_trace st t src).2.2, fun c hc => given.offer_trace_of_candidate hc⟩
  · obtain ⟨rule, hrule, -, -⟩ := hsound.pending_rule answer hanswer
    obtain ⟨o', ho', -, -, hverdict⟩ := given.answerOffer_isSome st hrule src
    obtain rfl := Option.some.inj (ho'.symm.trans hoffer)
    exact ⟨hverdict, fun c hc => given.answerOffer_trace_of_candidate hoffer hc⟩

/-- There are as many viable candidates as viable entries in the traces. -/
theorem length_viable {offers : List Offer} (h : ∀ o ∈ offers, given.TracesOffer o) :
    (Offer.viable offers).length =
      (offers.map (·.trace)).countP fun entry => entry.verdict = .viable := by
  have hplaces : (Offer.viable offers).length =
      offers.zipIdx.countP ((fun o => o.candidate.isSome) ∘ Prod.fst) := by
    rw [Offer.viable, List.length_filterMap_eq_countP]
    refine List.countP_congr fun x _ => ?_
    rw [Option.isSome_map]
    rfl
  rw [hplaces, ← List.countP_map, List.zipIdx_map_fst, List.countP_map]
  refine List.countP_congr fun o ho => ?_
  show _ ↔ decide (o.trace.verdict = .viable) = true
  rw [decide_eq_true_iff, (h o ho).verdict_iff]

/-! ### What a step notes -/

variable (given)

/-- The trace is that of a step which leads from `p` to `q`. -/
structure Notes (p q : Progress) (trace : StepTrace) : Prop where
  steps_eq : q.steps = p.steps ++ [trace]
  step_eq : trace.step = p.steps.length + 1
  state_eq : trace.state = given.stateName p.standing.state
  target_eq : trace.target = given.stateName q.standing.state
  faithful : trace.Faithful
  evaluated_eq : q.candidatesEvaluated = p.candidatesEvaluated + trace.candidates.length
  viable_eq : q.candidatesViable = p.candidatesViable + trace.viable

variable {given}

/-- The trace of a step that takes no candidate. -/
theorem traceOf_faithful_of_none (p : Progress) (offers : List Offer) (kind : StepKind)
    (target : StateId) (htransition : kind ≠ .transition) (hrule : kind ≠ .updateRule) :
    (given.traceOf p offers kind none target).Faithful := by
  refine ⟨iff_of_false Bool.false_ne_true ?_, ?_⟩
  · rintro (h | h)
    · exact htransition h
    · exact hrule h
  · rintro place ⟨⟩

/-- The trace of a step that takes a candidate: its entry stands at the place of the candidate. -/
theorem traceOf_faithful_of_choice (hflow : given.flow.WellFormed) {p : Progress}
    (hsound : p.standing.Sound given.flow) {src : Source} {c : Candidate} {place : Nat}
    (hchoice : (given.survey p src).1.2 = some (c, place)) :
    (given.traceOf p (given.survey p src).1.1 (if c.fromRule then .updateRule else .transition)
      (some place) (if c.fromRule then p.standing.state else c.target)).Faithful := by
  obtain ⟨hviable, hgreatest⟩ := given.choice_greatest hchoice
  obtain ⟨o, ho, hc⟩ := given.viableAt_iff.mp hviable
  have htraced := tracesOffer_of_mem hsound (List.mem_of_getElem? ho)
  obtain ⟨htarget, hscore⟩ := htraced.candidate c hc
  rw [hviable.landing_eq]
  refine ⟨iff_of_true rfl ?_, ?_⟩
  · show (if c.fromRule = true then _ else _) = _ ∨ (if c.fromRule = true then _ else _) = _
    cases c.fromRule with
    | true => exact .inr rfl
    | false => exact .inl rfl
  · intro place' hplace'
    obtain rfl : place = place' := Option.some.inj hplace'
    refine ⟨o.trace, ?_, htraced.verdict_iff.mpr (by rw [hc]; rfl), htarget, ?_⟩
    · show ((given.survey p src).1.1.map _)[place]? = _
      rw [survey_offers, List.getElem?_map, ho]
      rfl
    · intro other hother hverdict
      obtain ⟨o', ho', rfl⟩ := List.mem_map.mp hother
      rw [survey_offers] at ho'
      have htraced' := tracesOffer_of_mem hsound ho'
      obtain ⟨c', hc'⟩ := Option.isSome_iff_exists.mp (htraced'.verdict_iff.mp hverdict)
      obtain ⟨i, hi⟩ := List.mem_iff_getElem?.mp ho'
      have hviable' : given.ViableAt p src i c' := given.viableAt_iff.mpr ⟨o', hi, hc'⟩
      rw [hscore, (htraced'.candidate c' hc').2]
      -- Finite scores are numbers, so that none exceeds this one means that it is the greatest.
      exact Selection.le_of_not_lt
        (Selection.isNaN_eq_false_of_isFinite (hviable.score_finite given hflow hsound))
        (Selection.isNaN_eq_false_of_isFinite (hviable'.score_finite given hflow hsound))
        (hgreatest i c' hviable')

theorem not_closes_taken (c : Candidate) :
    ¬ (if c.fromRule then StepKind.updateRule else .transition).Closes := by
  cases c.fromRule <;> simp [StepKind.Closes]

/-- What a move notes after `p`: a step that closes a turn only if the turn ends with it. -/
def NotesMove (given : TurnSetting) (p : Progress) : Move → Prop
  | .goOn q => ∃ trace, given.Notes p q trace ∧ ¬ trace.kind.Closes
  | .stop q => ∃ trace, given.Notes p q trace
  | .fail _ => True

theorem step_notes (hflow : given.flow.WellFormed) {p : Progress}
    (hsound : p.standing.Sound given.flow) (src : Source) :
    given.NotesMove p (given.step p src).1 := by
  have htraced : ∀ o ∈ (given.survey p src).1.1, given.TracesOffer o := by
    intro o ho
    rw [survey_offers] at ho
    exact tracesOffer_of_mem hsound ho
  have hviable := length_viable htraced
  -- Whatever the step does, it notes the trace of its offers and counts them.
  have key : ∀ {q : Progress} {kind : StepKind} {chosen : Option Nat} {target : StateId},
      (given.traceOf p (given.survey p src).1.1 kind chosen target).Faithful →
      q.steps = p.steps ++ [given.traceOf p (given.survey p src).1.1 kind chosen target] →
      q.standing.state = target →
      q.candidatesEvaluated = p.candidatesEvaluated + (given.survey p src).1.1.length →
      q.candidatesViable = p.candidatesViable + (Offer.viable (given.survey p src).1.1).length →
      given.Notes p q (given.traceOf p (given.survey p src).1.1 kind chosen target) := by
    intro q kind chosen target hfaithful hsteps hstate hevaluated hcount
    refine ⟨hsteps, rfl, rfl, by rw [hstate]; rfl, hfaithful, ?_, ?_⟩
    · rw [hevaluated]
      show _ = _ + (List.map _ _).length
      rw [List.length_map]
    · rw [hcount, hviable]
      rfl
  have hnone : ∀ kind target, kind ≠ .transition → kind ≠ .updateRule →
      (given.traceOf p (given.survey p src).1.1 kind none target).Faithful :=
    fun kind target => traceOf_faithful_of_none p _ kind target
  have hsettles := given.step_settles p src
  generalize hchoice : (given.survey p src).1.2 = choice at hsettles
  generalize (given.step p src).1 = m at hsettles ⊢
  cases hsettles with
  | answer | arrival =>
    exact ⟨_, key (traceOf_faithful_of_choice hflow hsound hchoice) rfl rfl rfl rfl⟩
  | answerOnward | hop =>
    exact ⟨_, key (traceOf_faithful_of_choice hflow hsound hchoice) rfl rfl rfl rfl,
      not_closes_taken _⟩
  | finish => exact ⟨_, key (hnone .finish p.standing.state nofun nofun) rfl rfl rfl rfl⟩
  | @errorSuccessor successor =>
    exact ⟨_, key (hnone .errorSuccessor successor nofun nofun) rfl rfl rfl rfl⟩
  | stay => exact ⟨_, key (hnone .stay p.standing.state nofun nofun) rfl rfl rfl rfl⟩
  | @fallback fallback =>
    refine ⟨_, key (hnone .fallback fallback nofun nofun) rfl rfl rfl rfl, ?_⟩
    rintro (⟨⟨⟩⟩ | ⟨⟨⟩⟩ | ⟨⟨⟩⟩)
  | stuckUser => trivial
  | stuckSystem => trivial

/-! ### Along a turn -/

/-- What the steps noted so far tell of a turn that began in the state. -/
structure Traced (given : TurnSetting) (start : StateId) (p : Progress) : Prop where
  numbered : p.steps.map (·.step) = List.range' 1 p.steps.length
  leads : StepTrace.Lead (given.stateName start) p.steps (given.stateName p.standing.state)
  faithful : ∀ step ∈ p.steps, step.Faithful
  evaluated_eq : p.candidatesEvaluated = (p.steps.map (·.candidates.length)).sum
  viable_eq : p.candidatesViable = (p.steps.map (·.viable)).sum

theorem traced_opening (st : Standing) : given.Traced st.state (.opening st) where
  numbered := rfl
  leads := rfl
  faithful := nofun
  evaluated_eq := rfl
  viable_eq := rfl

theorem Traced.step {start : StateId} {p q : Progress} {trace : StepTrace}
    (h : given.Traced start p) (hnotes : given.Notes p q trace) : given.Traced start q where
  numbered := by
    rw [hnotes.steps_eq, List.map_append, h.numbered, List.length_append, List.map_singleton,
      List.length_singleton, List.range'_1_concat, hnotes.step_eq, Nat.add_comm 1]
  -- The new step begins where the last one has led.
  leads := by
    rw [hnotes.steps_eq, ← hnotes.target_eq]
    exact h.leads.concat hnotes.state_eq
  faithful := by
    rw [hnotes.steps_eq]
    intro step hstep
    rcases List.mem_append.mp hstep with hstep | hstep
    · exact h.faithful step hstep
    · rw [List.mem_singleton.mp hstep]
      exact hnotes.faithful
  evaluated_eq := by
    rw [hnotes.evaluated_eq, h.evaluated_eq, hnotes.steps_eq, List.map_append, List.sum_append]
    rfl
  viable_eq := by
    rw [hnotes.viable_eq, h.viable_eq, hnotes.steps_eq, List.map_append, List.sum_append]
    rfl

/-- Before each leg of a turn: the legs so far are traced, and none of them closed the turn. -/
theorem traced_leg? (hflow : given.flow.WellFormed) {st : Standing} (hsound : st.Sound given.flow)
    {src : Source} {leg : Leg} {i : Nat} (hleg : given.leg? ⟨.opening st, src⟩ i = some leg) :
    given.Traced st.state leg.before ∧ ∀ step ∈ leg.before.steps, ¬ step.kind.Closes := by
  have hinvariant : leg.before.standing.Sound given.flow ∧ given.Traced st.state leg.before ∧
      ∀ step ∈ leg.before.steps, ¬ step.kind.Closes := by
    -- By induction on the legs; the standing has to stay sound along the way.
    refine leg?_induct hleg (P := fun p => p.standing.Sound given.flow ∧
      given.Traced st.state p ∧ ∀ step ∈ p.steps, ¬ step.kind.Closes)
      ⟨hsound, traced_opening st, nofun⟩ ?_
    rintro p src q ⟨hp, htraced, hopen⟩ hstep
    have hsound' := step_sound hflow hp src
    have hnotes := step_notes hflow hp src
    rw [hstep] at hsound' hnotes
    obtain ⟨trace, hnotes, hkind⟩ := hnotes
    refine ⟨hsound', htraced.step hnotes, ?_⟩
    rw [hnotes.steps_eq]
    intro step hmem
    rcases List.mem_append.mp hmem with hmem | hmem
    · exact hopen step hmem
    · rw [List.mem_singleton.mp hmem]
      exact hkind
  exact hinvariant.2

/-- What the steps of a turn that succeeds tell of it. -/
theorem Completes.traced (hflow : given.flow.WellFormed) {st : Standing} {src src' : Source}
    {i : Nat} {last : Leg} {q : Progress} (hsound : st.Sound given.flow)
    (h : given.Completes ⟨.opening st, src⟩ i last q src') :
    given.Traced st.state q ∧ 1 ≤ q.steps.length ∧
      ∀ step ∈ q.steps.dropLast, ¬ step.kind.Closes := by
  obtain ⟨htraced, hopen⟩ := traced_leg? hflow hsound h.isLeg
  have hnotes := step_notes hflow h.onCourse.sound last.source
  rw [h.stops] at hnotes
  obtain ⟨trace, hnotes⟩ := hnotes
  refine ⟨htraced.step hnotes, ?_, ?_⟩
  · rw [hnotes.steps_eq, List.length_append]
    exact Nat.le_add_left 1 _
  · rw [hnotes.steps_eq, List.dropLast_concat]
    exact hopen

end TurnSetting

namespace Session

/-- The report of a turn that succeeds, taken from a reachable session, is faithful; it begins in
the state of that session and ends in that of the session which the turn leaves. -/
theorem Reachable.report_faithful {flow : Flow} (hbuilt : flow.Built) {s : Session}
    (h : Reachable flow s) {speaker : Speaker} {utterance : Option String} {report : TurnReport}
    (hturn : (s.turn flow speaker utterance).1 = .ok report) :
    report.Faithful ∧ report.startState = (flow.key s.standing.state).render ∧
      report.endState =
        (flow.key (s.turn flow speaker utterance).2.standing.state).render := by
  obtain ⟨-, st, outcome, i, last, q, hprepare, hcompletes, hstanding, rfl⟩ :=
    h.turn_completes hbuilt hturn
  obtain ⟨htraced, hpos, hcloses⟩ :=
    hcompletes.traced hbuilt.wellFormed (prepare_sound hprepare (h.sound hbuilt))
  -- The update rules leave the state alone.
  have hstate : st.state = s.standing.state := by
    rcases prepare_eq_ok hprepare with ⟨-, rfl⟩ | ⟨-, -, rfl⟩ <;> rfl
  rw [hstate] at htraced
  rw [hstanding]
  exact ⟨⟨hpos, htraced.numbered, htraced.leads, hcloses, htraced.faithful, htraced.evaluated_eq,
    htraced.viable_eq⟩, rfl, rfl⟩

theorem report_faithful_greeting :
    ∃ report, ((start .greeting (.mixed 7)).turn .greeting .system none).1 = .ok report ∧
      report.Faithful ∧ report.startState = "door" ∧ report.endState = "hall" := by
  have hok : ((start .greeting (.mixed 7)).turn .greeting .system none).1.toOption.isSome =
      true := by decide +kernel
  cases hturn : ((start .greeting (.mixed 7)).turn .greeting .system none).1 with
  | error e =>
    rw [hturn] at hok
    cases hok
  | ok report =>
    obtain ⟨hfaithful, hstart, hend⟩ :=
      (Reachable.start (.mixed 7)).report_faithful Flow.greeting_built hturn
    have hnames : (Flow.greeting.key (start .greeting (.mixed 7)).standing.state).render = "door" ∧
        (Flow.greeting.key ((start .greeting (.mixed 7)).turn .greeting .system
          none).2.standing.state).render = "hall" := by decide +kernel
    exact ⟨report, rfl, hfaithful, hstart.trans hnames.1, hend.trans hnames.2⟩

end Session

end Colloquy
