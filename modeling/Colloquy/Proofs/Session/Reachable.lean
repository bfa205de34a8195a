import Colloquy.Proofs.Flow.Rules
import Colloquy.Proofs.Session.Step
import Colloquy.Session.Snapshot

/-!
# Reachable sessions

A session is reachable if turns, resets and restores, failing ones included, lead to it from a fresh
one.  In a flow that was built, the standing of a reachable session is sound
(`Reachable.sound`), and so is every standing that a turn goes through from there
(`prepare_sound`, `step_sound`).
-/

namespace Colloquy

/-- The session is what a fresh one becomes through some calls in a row. -/
inductive Session.Reachable (flow : Flow) : Session → Prop
  | start (src : Source) : Reachable flow (.start flow src)
  | turn {s : Session} (speaker : Speaker) (utterance : Option String) :
      Reachable flow s → Reachable flow (s.turn flow speaker utterance).2
  | reset {s : Session} : Reachable flow s → Reachable flow (s.reset flow)
  | restore {s : Session} (snap : Snapshot) :
      Reachable flow s → Reachable flow (s.restore flow snap).2

/-- The move, unless it fails, leads to a turn with the property. -/
def Move.Holds (P : Progress → Prop) : Move → Prop
  | .goOn p | .stop p => P p
  | .fail _ => True

namespace TurnSetting

variable {given : TurnSetting}

theorem afterSurvey_sound {p : Progress} (h : p.standing.Sound given.flow) :
    (given.afterSurvey p).standing.Sound given.flow := by
  rw [afterSurvey_eq]
  refine ⟨h.state_lt, fun answer hanswer => ?_⟩
  dsimp only at hanswer
  split at hanswer
  · cases hanswer
  · exact h.pending_rule answer hanswer

theorem Settles.sound {p : Progress} {offers : List Offer} {choice : Option (Candidate × Nat)}
    {m : Move} (h : given.Settles p offers choice m) (hflow : given.flow.WellFormed)
    (hsound : p.standing.Sound given.flow)
    (hchoice : ∀ c place, choice = some (c, place) → c.target < given.flow.stateCount) :
    m.Holds fun q => q.standing.Sound given.flow := by
  -- Committing leads to the chosen target, or, for a rule's answer, nowhere.
  have hcommit : ∀ c place, choice = some (c, place) →
      (given.commit p offers c place).standing.Sound given.flow := by
    intro c place hc
    refine ⟨?_, hsound.pending_rule⟩
    rw [commit_standing]
    dsimp only
    split
    · exact hsound.state_lt
    · exact hchoice c place hc
  cases h with
  | answer => exact ⟨(hcommit _ _ rfl).state_lt, (hcommit _ _ rfl).pending_rule⟩
  | answerOnward => exact hcommit _ _ rfl
  | arrival => exact ⟨(hcommit _ _ rfl).state_lt, (hcommit _ _ rfl).pending_rule⟩
  | hop => exact hcommit _ _ rfl
  | finish => exact ⟨hsound.state_lt, hsound.pending_rule⟩
  | errorSuccessor first user some_successor =>
    exact ⟨hflow.successor_lt _ _ some_successor, hsound.pending_rule⟩
  | stay => exact ⟨hsound.state_lt, hsound.pending_rule⟩
  | fallback first system some_fallback =>
    exact ⟨hflow.fallback_lt _ some_fallback, hsound.pending_rule⟩
  | stuckUser => trivial
  | stuckSystem => trivial

theorem step_sound {p : Progress} (hflow : given.flow.WellFormed)
    (hsound : p.standing.Sound given.flow) (src : Source) :
    (given.step p src).1.Holds fun q => q.standing.Sound given.flow := by
  refine (given.settle_settles p _ _).sound hflow (afterSurvey_sound hsound) fun c place hc => ?_
  exact (given.choice_greatest hc).1.target_lt given hflow hsound

theorem steps_sound (hflow : given.flow.WellFormed) (n : Nat) :
    ∀ {p q : Progress} {src : Source}, p.standing.Sound given.flow →
      (given.steps n p src).1 = .ok q → q.standing.Sound given.flow := by
  induction n with
  | zero =>
    intro p q src hsound h
    rw [← Except.ok.inj h]
    exact hsound
  | succ n ih =>
    intro p q src hsound h
    have hstep := step_sound hflow hsound src
    rw [steps_succ] at h
    rcases hmove : given.step p src with ⟨p' | p' | e, src'⟩
    · rw [hmove] at h hstep
      exact ih hstep h
    · rw [hmove] at h hstep
      rw [← Except.ok.inj h]
      exact hstep
    · rw [hmove] at h
      cases h

end TurnSetting

namespace Session

variable {flow : Flow}

/-! ### Turns -/

/-- What the steps of a turn are given. -/
abbrev setting (flow : Flow) (speaker : Speaker) (utterance : Option String) : TurnSetting :=
  ⟨flow, speaker, heard flow utterance⟩

/-- A turn of the side that does not hold the floor draws nothing. -/
theorem turn_of_wrongSpeaker {s : Session} {speaker : Speaker} (h : s.standing.speaker ≠ speaker)
    (utterance : Option String) :
    s.turn flow speaker utterance = (.error (.wrongSpeaker speaker s.standing.speaker), s) := by
  unfold turn turnFrom
  rw [if_pos h]
  rfl

/-- Nor does one whose update rules diverge. -/
theorem turn_of_prepare_error {s : Session} {speaker : Speaker} {utterance : Option String}
    {e : TurnError} (hfloor : s.standing.speaker = speaker)
    (h : prepare flow (heard flow utterance) speaker s.standing = .error e) :
    s.turn flow speaker utterance = (.error e, s) := by
  unfold turn turnFrom
  rw [if_neg (not_not_intro hfloor), h]
  rfl

/-- Otherwise the turn takes its steps. -/
theorem turn_of_steps_error {s : Session} {speaker : Speaker} {utterance : Option String}
    {st : Standing} {outcome : RuleOutcome} {e : TurnError} {src : Source}
    (hfloor : s.standing.speaker = speaker)
    (hprepare : prepare flow (heard flow utterance) speaker s.standing = .ok (st, outcome))
    (h : (setting flow speaker utterance).steps (flow.stateCount + 1) (.opening st)
      s.source = (.error e, src)) :
    s.turn flow speaker utterance = (.error e, { s with source := src }) := by
  unfold turn turnFrom
  rw [if_neg (not_not_intro hfloor), hprepare]
  dsimp only
  rw [Draw.bind_apply, h]
  rfl

/-- The report of a turn from a state whose update rules gave the outcome and whose steps ended
with `p`. -/
def reportOf (flow : Flow) (speaker : Speaker) (utterance : Option String) (state : StateId)
    (outcome : RuleOutcome) (p : Progress) : TurnReport :=
  { speaker, utterance
    output := String.intercalate flow.options.outputSeparator p.outputs
    startState := (setting flow speaker utterance).stateName state
    endState := (setting flow speaker utterance).stateName p.standing.state
    rulesFired := outcome.fired
    steps := p.steps
    metrics :=
      { ruleEvaluations := outcome.evaluations, steps := p.steps.length
        candidatesEvaluated := p.candidatesEvaluated
        candidatesViable := p.candidatesViable } }

theorem turn_eq_of_steps_ok {s : Session} {speaker : Speaker} {utterance : Option String}
    {st : Standing} {outcome : RuleOutcome} {p : Progress} {src : Source}
    (hfloor : s.standing.speaker = speaker)
    (hprepare : prepare flow (heard flow utterance) speaker s.standing = .ok (st, outcome))
    (h : (setting flow speaker utterance).steps (flow.stateCount + 1) (.opening st)
      s.source = (.ok p, src)) :
    s.turn flow speaker utterance =
      (.ok (reportOf flow speaker utterance s.standing.state outcome p), ⟨p.standing, src⟩) := by
  unfold turn turnFrom
  rw [if_neg (not_not_intro hfloor), hprepare]
  dsimp only
  rw [Draw.bind_apply, h]
  rfl

theorem turn_of_steps_ok {s : Session} {speaker : Speaker} {utterance : Option String}
    {st : Standing} {outcome : RuleOutcome} {p : Progress} {src : Source}
    (hfloor : s.standing.speaker = speaker)
    (hprepare : prepare flow (heard flow utterance) speaker s.standing = .ok (st, outcome))
    (h : (setting flow speaker utterance).steps (flow.stateCount + 1) (.opening st)
      s.source = (.ok p, src)) :
    ∃ report, s.turn flow speaker utterance = (.ok report, ⟨p.standing, src⟩) ∧
      report.steps = p.steps :=
  ⟨_, turn_eq_of_steps_ok hfloor hprepare h, rfl⟩

/-- The steps of a system turn start from the standing as it is, those of a user turn after the
update rules. -/
theorem prepare_eq_ok {u : Utterance} {speaker : Speaker} {st st' : Standing}
    {outcome : RuleOutcome} (h : prepare flow u speaker st = .ok (st', outcome)) :
    speaker = .system ∧ st' = st ∨
      speaker = .user ∧ Rules.run ⟨flow.macros, u, flow.options⟩ flow.rules st.vars = .ok outcome ∧
        st' = { st with vars := outcome.vars, pending := outcome.answer } := by
  unfold prepare at h
  cases speaker with
  | system =>
    obtain ⟨rfl, -⟩ := Prod.mk.inj (Except.ok.inj h)
    exact .inl ⟨rfl, rfl⟩
  | user =>
    dsimp only at h
    cases hrun : Rules.run ⟨flow.macros, u, flow.options⟩ flow.rules st.vars with
    | error cause =>
      rw [hrun] at h
      cases h
    | ok o =>
      rw [hrun] at h
      obtain ⟨rfl, rfl⟩ := Prod.mk.inj (Except.ok.inj h)
      exact .inr ⟨rfl, rfl, rfl⟩

/-- The update rules leave the gates alone. -/
theorem prepare_gates {u : Utterance} {speaker : Speaker} {st st' : Standing}
    {outcome : RuleOutcome} (h : prepare flow u speaker st = .ok (st', outcome)) :
    st'.gates = st.gates := by
  rcases prepare_eq_ok h with ⟨-, rfl⟩ | ⟨-, -, rfl⟩ <;> rfl

/-! ### Soundness -/

theorem prepare_sound {u : Utterance} {speaker : Speaker} {st st' : Standing}
    {outcome : RuleOutcome} (h : prepare flow u speaker st = .ok (st', outcome))
    (hsound : st.Sound flow) : st'.Sound flow := by
  rcases prepare_eq_ok h with ⟨-, rfl⟩ | ⟨-, hrun, rfl⟩
  · exact hsound
  · exact ⟨hsound.state_lt, Rules.run_answer hrun⟩

theorem initial_sound (hflow : flow.WellFormed) : (Standing.initial flow).Sound flow :=
  ⟨hflow.initial_lt, fun _ h => nomatch h⟩

/-- The standing that a snapshot describes: its state is found by name, and nothing is pending. -/
theorem resolve_eq_ok {snap : Snapshot} {st : Standing} (h : snap.resolve flow = .ok st) :
    flow.lookup (.ofString snap.state) = some st.state ∧ st.pending = none := by
  unfold Snapshot.resolve Snapshot.resolveState at h
  cases hstate : flow.lookup (.ofString snap.state) with
  | none =>
    rw [hstate] at h
    cases h
  | some id =>
    rw [hstate] at h
    cases hgates : Snapshot.resolveGates flow snap.gates with
    | error name =>
      rw [hgates] at h
      cases h
    | ok gates =>
      rw [hgates] at h
      rw [← Except.ok.inj h]
      exact ⟨rfl, rfl⟩

theorem resolve_sound {snap : Snapshot} {st : Standing} (h : snap.resolve flow = .ok st) :
    st.Sound flow := by
  obtain ⟨hstate, hpending⟩ := resolve_eq_ok h
  refine ⟨Flow.lookup_lt hstate, fun answer hanswer => ?_⟩
  rw [hpending] at hanswer
  cases hanswer

theorem turn_sound (hflow : flow.WellFormed) {s : Session} (hsound : s.standing.Sound flow)
    (speaker : Speaker) (utterance : Option String) :
    (s.turn flow speaker utterance).2.standing.Sound flow := by
  by_cases hfloor : s.standing.speaker = speaker
  · cases hprepare : prepare flow (heard flow utterance) speaker s.standing with
    | error e =>
      rw [turn_of_prepare_error hfloor hprepare]
      exact hsound
    | ok prepared =>
      obtain ⟨st, outcome⟩ := prepared
      have hst := prepare_sound hprepare hsound
      -- A turn that fails leaves the standing as it was.
      rcases hsteps : (setting flow speaker utterance).steps (flow.stateCount + 1)
        (.opening st) s.source with ⟨e | p, src⟩
      · rw [turn_of_steps_error hfloor hprepare hsteps]
        exact hsound
      · obtain ⟨report, hturn, -⟩ := turn_of_steps_ok hfloor hprepare hsteps
        rw [hturn]
        exact TurnSetting.steps_sound hflow _ hst (congrArg Prod.fst hsteps)
  · rw [turn_of_wrongSpeaker hfloor]
    exact hsound

/-- The standing of a reachable session is sound. -/
theorem Reachable.sound (hbuilt : flow.Built) {s : Session} (h : Reachable flow s) :
    s.standing.Sound flow := by
  have hflow := hbuilt.wellFormed
  induction h with
  | start src => exact initial_sound hflow
  | turn speaker utterance _ ih => exact turn_sound hflow ih speaker utterance
  | reset _ _ => exact initial_sound hflow
  | restore snap _ ih =>
    unfold Session.restore
    split
    · rename_i st hst
      exact resolve_sound hst
    · exact ih

end Session

end Colloquy
