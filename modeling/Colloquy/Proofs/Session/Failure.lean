import Colloquy.Proofs.Session.Course

/-!
# When turns fail

`Reachable.turn_fails_iff` says exactly when a turn fails.  The side that does not hold the floor
never gets a turn.  A user turn fails if the update rules diverge or leave no way on (`UserStuck`),
a system turn if neither its first step nor the retry from the fallback state finds anything viable
(`SystemStuck`).  Once a candidate has been taken, the turn cannot fail any more.

A turn that fails leaves the standing of the session as it was, whatever rules have fired and
wherever the turn has moved by then.
-/

namespace Colloquy

namespace TurnSetting

variable (given : TurnSetting)

/-- From the standing, with the words of `src`, no transition of the speaker is viable. -/
def NoneViable (st : Standing) (src : Source) : Prop :=
  ∀ i t, (given.flow.outgoing st.state given.speaker)[i]? = some t →
    ∀ c src', ¬ given.Viable st t (given.sourceAt st i src) c src'

/-- Considered after all transitions, the pending answer is not viable either. -/
def Unanswered (st : Standing) (src : Source) : Prop :=
  ∀ answer ∈ st.pending, ∀ c src', ¬ given.Answers st answer
    (given.sourceAt st (given.flow.outgoing st.state given.speaker).length src) c src'

variable {given}

theorem forall_not_viableAt_iff {p : Progress} {src : Source} :
    (∀ i c, ¬ given.ViableAt p src i c) ↔
      given.NoneViable p.standing src ∧
        (given.admitsAnswer p = true → given.Unanswered p.standing src) := by
  constructor
  · intro h
    exact ⟨fun i t ht c src' hviable => h i c (.transition ht hviable),
      fun hadmits answer hanswer c src' hanswers => h _ c (.answer hadmits hanswer hanswers)⟩
  · rintro ⟨hnone, hunanswered⟩ i c (⟨considered, viable⟩ | ⟨admitted, pending, answers⟩)
    · exact hnone _ _ considered _ _ viable
    · exact hunanswered admitted _ pending _ _ answers

/-! ### Steps that do not fail -/

/-- Once a candidate is taken, or has been taken before, a step goes on or ends the turn, but it
does not fail. -/
theorem step_taken {p : Progress} {src : Source}
    (h : p.first = false ∨ (given.survey p src).1.2 ≠ none) :
    (∀ e, (given.step p src).1 ≠ .fail e) ∧
      ∀ q, (given.step p src).1 = .goOn q → q.first = false := by
  have hsettles := given.step_settles p src
  generalize (given.step p src).1 = m at hsettles ⊢
  generalize (given.survey p src).1.2 = choice at hsettles h
  cases hsettles with
  | answer | arrival | finish =>
    constructor
    · rintro e ⟨⟩
    · rintro q ⟨⟩
  | answerOnward | hop =>
    constructor
    · rintro e ⟨⟩
    · intro q hq
      rw [← Move.goOn.inj hq]
  | errorSuccessor first | stay first | fallback first | stuckUser first | stuckSystem first =>
    -- These moves are for a turn in which nothing has been taken.
    rcases h with hlater | htaken
    · cases hlater.symm.trans first
    · exact absurd rfl htaken

theorem steps_later (n : Nat) : ∀ {p : Progress} {src : Source}, p.first = false →
    ∀ e, (given.steps n p src).1 ≠ .error e := by
  induction n with
  | zero => intro p src _ e h; cases h
  | succ n ih =>
    -- Where the turn goes on, it has taken a candidate before, as `ih` asks.
    intro p src hlater e h
    obtain ⟨hfail, hgoOn⟩ : (∀ e, (given.step p src).1 ≠ .fail e) ∧
        ∀ q, (given.step p src).1 = .goOn q → q.first = false := step_taken (.inl hlater)
    rw [steps_succ] at h
    rcases hmove : given.step p src with ⟨q | q | e', src'⟩
    · rw [hmove] at h hgoOn
      exact ih (hgoOn q rfl) e h
    · rw [hmove] at h
      cases h
    · rw [hmove] at hfail
      exact hfail e' rfl

/-- A turn that takes a candidate does not fail. -/
theorem steps_taken {p : Progress} {src : Source} (h : (given.survey p src).1.2 ≠ none) (n : Nat) :
    ¬ ∃ e, (given.steps (n + 1) p src).1 = .error e := by
  rintro ⟨e, he⟩
  obtain ⟨hfail, hgoOn⟩ := step_taken (.inr h)
  rw [steps_succ] at he
  rcases hmove : given.step p src with ⟨q | q | e', src'⟩
  · rw [hmove] at he hgoOn
    exact steps_later n (hgoOn q rfl) e he
  · rw [hmove] at he
    cases he
  · rw [hmove] at hfail
    exact hfail e' rfl

/-! ### Steps without a candidate -/

/-- Without a candidate the first step of a user turn ends the turn: it fails if there is no error
successor and no answer is pending. -/
theorem step_user {p : Progress} {src : Source} (hfirst : p.first = true)
    (hspeaker : given.speaker = .user) (hnone : (given.survey p src).1.2 = none) :
    ((∃ e, (given.step p src).1 = .fail e) ↔
      (given.flow.node p.standing.state).errorSuccessor = none ∧ p.standing.pending = none) ∧
    ∀ q, (given.step p src).1 ≠ .goOn q := by
  -- A rule's answer is for the system to say.
  have hadmits : given.admitsAnswer p = false := by simp [admitsAnswer, hspeaker]
  have hsettles := given.step_settles p src
  rw [hadmits, hnone] at hsettles
  generalize (given.step p src).1 = m at hsettles ⊢
  cases hsettles with
  | finish later => cases hfirst.symm.trans later
  | errorSuccessor _ _ some_successor =>
    refine ⟨iff_of_false ?_ ?_, ?_⟩
    · rintro ⟨e, ⟨⟩⟩
    · rintro ⟨hsuccessor, -⟩
      cases some_successor.symm.trans hsuccessor
    · rintro q ⟨⟩
  | stay _ _ _ pending =>
    refine ⟨iff_of_false ?_ ?_, ?_⟩
    · rintro ⟨e, ⟨⟩⟩
    · rintro ⟨-, hpending⟩
      have hsome : p.standing.pending.isSome = true := pending
      rw [hpending] at hsome
      cases hsome
    · rintro q ⟨⟩
  | fallback _ system | stuckSystem _ system => cases hspeaker.symm.trans system
  | stuckUser _ _ no_successor no_answer =>
    refine ⟨iff_of_true ⟨_, rfl⟩ ⟨no_successor, no_answer⟩, ?_⟩
    rintro q ⟨⟩

/-- Without a candidate the first step of a system turn, or its retry, fails, unless there is
another fallback state to go on from. -/
theorem step_system {p : Progress} {src : Source} (hfirst : p.first = true)
    (hspeaker : given.speaker = .system) (hnone : (given.survey p src).1.2 = none) :
    ((∃ e, (given.step p src).1 = .fail e) ∧
      ∀ fallback ∈ given.flow.fallback, p.retried = true ∨ fallback = p.standing.state) ∨
    ∃ q fallback, (given.step p src).1 = .goOn q ∧ q.first = true ∧ q.retried = true ∧
      p.retried = false ∧ given.flow.fallback = some fallback ∧ fallback ≠ p.standing.state ∧
      q.standing = { p.standing with state := fallback, pending := none } := by
  have hadmits : given.admitsAnswer p = true := by simp [admitsAnswer, hspeaker, hfirst]
  have hsettles := given.step_settles p src
  rw [hadmits, hnone] at hsettles
  generalize (given.step p src).1 = m at hsettles ⊢
  cases hsettles with
  | finish later => cases hfirst.symm.trans later
  | errorSuccessor _ user | stay _ user | stuckUser _ user => cases hspeaker.symm.trans user
  | @fallback fallback first _ some_fallback once elsewhere =>
    exact .inr ⟨_, fallback, rfl, first, rfl, once, some_fallback, elsewhere, rfl⟩
  | stuckSystem _ _ hopeless => exact .inl ⟨⟨_, rfl⟩, hopeless⟩

/-! ### Whole turns -/

theorem steps_error_iff_user (hflow : given.flow.WellFormed) {st : Standing}
    (hsound : st.Sound given.flow) (hspeaker : given.speaker = .user) (n : Nat) {src : Source} :
    (∃ e, (given.steps (n + 1) (.opening st) src).1 = .error e) ↔
      given.NoneViable st src ∧ (given.flow.node st.state).errorSuccessor = none ∧
        st.pending = none := by
  have hadmits : given.admitsAnswer (.opening st) = false := by simp [admitsAnswer, hspeaker]
  have hviable : (given.survey (.opening st) src).1.2 = none ↔ given.NoneViable st src := by
    rw [given.choice_eq_none_iff hflow hsound, forall_not_viableAt_iff, hadmits]
    simp [Progress.opening]
  rw [← hviable]
  -- Once a transition has been taken, the turn can no longer fail.
  by_cases hnone : (given.survey (.opening st) src).1.2 = none
  · obtain ⟨hfail, hgoOn⟩ := step_user rfl hspeaker hnone
    rw [steps_succ]
    rcases hmove : given.step (.opening st) src with ⟨q | q | e, src'⟩
    · exact absurd (congrArg Prod.fst hmove) (hgoOn q)
    · rw [hmove] at hfail
      refine iff_of_false (by rintro ⟨e, ⟨⟩⟩) fun h => ?_
      obtain ⟨e, ⟨⟩⟩ := hfail.mpr h.2
    · rw [hmove] at hfail
      exact iff_of_true ⟨e, rfl⟩ ⟨hnone, hfail.mp ⟨e, rfl⟩⟩
  · exact iff_of_false (steps_taken hnone n) fun h => hnone h.1

/-- The retry from the fallback state fails if nothing is viable there. -/
theorem steps_error_iff_retry (hflow : given.flow.WellFormed) {p : Progress}
    (hsound : p.standing.Sound given.flow) (hspeaker : given.speaker = .system)
    (hfirst : p.first = true) (hretried : p.retried = true) (hpending : p.standing.pending = none)
    (n : Nat) {src : Source} :
    (∃ e, (given.steps (n + 1) p src).1 = .error e) ↔ given.NoneViable p.standing src := by
  have hviable : (given.survey p src).1.2 = none ↔ given.NoneViable p.standing src := by
    rw [given.choice_eq_none_iff hflow hsound, forall_not_viableAt_iff, Unanswered, hpending]
    -- The first step has used up the pending answer.
    refine and_iff_left ?_
    rintro - answer ⟨⟩
  rw [← hviable]
  by_cases hnone : (given.survey p src).1.2 = none
  · rcases step_system hfirst hspeaker hnone with ⟨⟨e, hfail⟩, -⟩ | ⟨q, -, -, -, -, honce, -⟩
    · refine iff_of_true ⟨e, ?_⟩ hnone
      rw [steps_succ]
      rcases hmove : given.step p src with ⟨q | q | e', src'⟩ <;> rw [hmove] at hfail <;>
        cases hfail
      rfl
    · cases hretried.symm.trans honce
  · exact iff_of_false (steps_taken hnone n) hnone

theorem steps_error_iff_system (hflow : given.flow.WellFormed) {st : Standing}
    (hsound : st.Sound given.flow) (hspeaker : given.speaker = .system) (n : Nat) {src : Source} :
    (∃ e, (given.steps (n + 2) (.opening st) src).1 = .error e) ↔
      given.NoneViable st src ∧ given.Unanswered st src ∧
        ∀ fallback ∈ given.flow.fallback, fallback = st.state ∨
          given.NoneViable { st with state := fallback, pending := none }
            (given.offers st true src).2 := by
  have hadmits : given.admitsAnswer (.opening st) = true := by
    simp [admitsAnswer, hspeaker, Progress.opening]
  have hchoice : (given.survey (.opening st) src).1.2 = none ↔
      ∀ i c, ¬ given.ViableAt (.opening st) src i c := given.choice_eq_none_iff hflow hsound
  have hviable : (given.survey (.opening st) src).1.2 = none ↔
      given.NoneViable st src ∧ given.Unanswered st src := by
    rw [hchoice, forall_not_viableAt_iff, hadmits]
    simp [Progress.opening]
  rw [← and_assoc, ← hviable]
  by_cases hnone : (given.survey (.opening st) src).1.2 = none
  · rw [steps_succ]
    rcases step_system rfl hspeaker hnone with ⟨⟨e, hfail⟩, hhopeless⟩ |
      ⟨q, fallback, hgoOn, hfirst, hretried, -, hfallback, helsewhere, hstanding⟩
    · refine iff_of_true ⟨e, ?_⟩ ⟨hnone, fun fallback hfallback => .inl ?_⟩
      · rcases hmove : given.step (.opening st) src with ⟨q | q | e', src'⟩ <;>
          rw [hmove] at hfail <;> cases hfail
        rfl
      · exact (hhopeless fallback hfallback).resolve_left Bool.false_ne_true
    · -- Without a candidate the choice draws nothing.
      have hsource := given.survey_source_of_none (hchoice.mp hnone)
      rw [hadmits] at hsource
      have hmove : given.step (.opening st) src = (.goOn q, (given.offers st true src).2) :=
        Prod.ext hgoOn hsource
      have hqsound : q.standing.Sound given.flow := by
        have hstep := step_sound (p := .opening st) hflow hsound src
        rwa [hmove] at hstep
      rw [hmove]
      dsimp only
      rw [steps_error_iff_retry hflow hqsound hspeaker hfirst hretried (by rw [hstanding]),
        hstanding]
      -- The fallback state is another one, so only the retry decides.
      constructor
      · intro hretry
        refine ⟨hnone, fun other hother => .inr ?_⟩
        obtain rfl : fallback = other := Option.some.inj (hfallback.symm.trans hother)
        exact hretry
      · rintro ⟨-, hfallbacks⟩
        exact (hfallbacks fallback hfallback).resolve_left helsewhere
  · exact iff_of_false (steps_taken hnone (n + 1)) fun h => hnone h.1

/-! ### Failing legs -/

/-- Before the first hop no leg has taken a candidate. -/
theorem first_of_onward {leg next : Leg} (h : given.onward leg = some next)
    (hfirst : next.before.first = true) :
    leg.before.first = true ∧ (given.survey leg.before leg.source).1.2 = none := by
  obtain ⟨p, src⟩ := leg
  obtain ⟨q, src'⟩ := next
  have hsettles := given.step_settles p src
  rw [onward_eq_some_iff.mp h] at hsettles
  dsimp only at hfirst hsettles ⊢
  generalize (given.survey p src).1.2 = choice at hsettles ⊢
  cases hsettles with
  | answerOnward | hop => cases hfirst
  | fallback first => exact ⟨first, rfl⟩

theorem none_taken_of_first {start : Leg} (i : Nat) : ∀ {leg : Leg},
    given.leg? start i = some leg → leg.before.first = true →
      ∀ j < i, ∀ earlier, given.leg? start j = some earlier →
        (given.survey earlier.before earlier.source).1.2 = none := by
  induction i with
  | zero => intro leg _ _ j hj; exact absurd hj (Nat.not_lt_zero j)
  | succ i ih =>
    intro leg hleg hfirst j hj earlier hearlier
    obtain ⟨previous, hprevious, hnext⟩ := leg?_succ_eq_some_iff.mp hleg
    obtain ⟨hfirst', hchoice⟩ := first_of_onward hnext hfirst
    rcases Nat.lt_succ_iff_lt_or_eq.mp hj with hj | rfl
    · exact ih hprevious hfirst' j hj earlier hearlier
    · obtain rfl := Option.some.inj (hprevious.symm.trans hearlier)
      exact hchoice

/-- A leg that fails comes after legs which took nothing. -/
theorem none_taken_of_fail {start leg : Leg} {i : Nat} (hleg : given.leg? start i = some leg)
    {e : TurnError} (hfail : (given.step leg.before leg.source).1 = .fail e) :
    ∀ j < i, ∀ earlier, given.leg? start j = some earlier →
      (given.survey earlier.before earlier.source).1.2 = none := by
  refine none_taken_of_first i hleg ?_
  cases hfirst : leg.before.first with
  | true => rfl
  | false => exact absurd hfail ((step_taken (.inl hfirst)).1 e)

end TurnSetting

namespace Session

variable {flow : Flow}

/-- A user turn has no way on: the rules diverge, or under the bindings that they leave no
transition is viable, the state has no error successor, and the rules gave no answer. -/
def UserStuck (flow : Flow) (utterance : Option String) (s : Session) : Prop :=
  (∃ cause, Rules.run ⟨flow.macros, heard flow utterance, flow.options⟩ flow.rules
      s.standing.vars = .error cause) ∨
    ∃ outcome, Rules.run ⟨flow.macros, heard flow utterance, flow.options⟩ flow.rules
        s.standing.vars = .ok outcome ∧
      (setting flow .user utterance).NoneViable
        { s.standing with vars := outcome.vars, pending := outcome.answer } s.source ∧
      (flow.node s.standing.state).errorSuccessor = none ∧ outcome.answer = none

/-- A system turn has no way on: neither a transition nor the pending answer is viable, and there is
no fallback state, or it is the present one, or no transition is viable there either. -/
def SystemStuck (flow : Flow) (utterance : Option String) (s : Session) : Prop :=
  (setting flow .system utterance).NoneViable s.standing s.source ∧
  (setting flow .system utterance).Unanswered s.standing s.source ∧
  ∀ fallback ∈ flow.fallback, fallback = s.standing.state ∨
    (setting flow .system utterance).NoneViable
      { s.standing with state := fallback, pending := none }
      ((setting flow .system utterance).offers s.standing true s.source).2

/-- Once the steps are reached, a turn fails if they do. -/
theorem turn_error_iff_steps {s : Session} {speaker : Speaker} {utterance : Option String}
    {st : Standing} {outcome : RuleOutcome} (hfloor : s.standing.speaker = speaker)
    (hprepare : prepare flow (heard flow utterance) speaker s.standing = .ok (st, outcome)) :
    (∃ e, (s.turn flow speaker utterance).1 = .error e) ↔
      ∃ e, ((setting flow speaker utterance).steps (flow.stateCount + 1)
        (.opening st) s.source).1 = .error e := by
  rcases hsteps : (setting flow speaker utterance).steps (flow.stateCount + 1)
    (.opening st) s.source with ⟨e | p, src⟩
  · rw [turn_of_steps_error hfloor hprepare hsteps]
    exact iff_of_true ⟨e, rfl⟩ ⟨e, rfl⟩
  · obtain ⟨report, hturn, -⟩ := turn_of_steps_ok hfloor hprepare hsteps
    rw [hturn]
    refine iff_of_false ?_ ?_
    · rintro ⟨e, ⟨⟩⟩
    · rintro ⟨e, ⟨⟩⟩

theorem turn_error_iff_user (hflow : flow.WellFormed) {s : Session}
    (hsound : s.standing.Sound flow) (hfloor : s.standing.speaker = .user)
    (utterance : Option String) :
    (∃ e, (s.turn flow .user utterance).1 = .error e) ↔ UserStuck flow utterance s := by
  unfold UserStuck
  -- The rules are run first, and may fail to converge.
  cases hrun : Rules.run ⟨flow.macros, heard flow utterance, flow.options⟩ flow.rules
      s.standing.vars with
  | error cause =>
    have hprepare : prepare flow (heard flow utterance) .user s.standing =
        .error (.rulesDiverge cause) := by
      rw [prepare, hrun]
    rw [turn_of_prepare_error hfloor hprepare]
    exact iff_of_true ⟨_, rfl⟩ (.inl ⟨cause, rfl⟩)
  | ok outcome =>
    have hprepare : prepare flow (heard flow utterance) .user s.standing =
        .ok ({ s.standing with vars := outcome.vars, pending := outcome.answer }, outcome) := by
      rw [prepare, hrun]
    rw [turn_error_iff_steps hfloor hprepare, TurnSetting.steps_error_iff_user hflow
      (prepare_sound hprepare hsound) rfl]
    constructor
    · exact fun h => .inr ⟨outcome, rfl, h⟩
    · rintro (⟨cause, ⟨⟩⟩ | ⟨o, ho, h⟩)
      obtain rfl := Except.ok.inj ho
      exact h

theorem turn_error_iff_system (hflow : flow.WellFormed) {s : Session}
    (hsound : s.standing.Sound flow) (hfloor : s.standing.speaker = .system)
    (utterance : Option String) :
    (∃ e, (s.turn flow .system utterance).1 = .error e) ↔ SystemStuck flow utterance s := by
  have hprepare : prepare flow (heard flow utterance) .system s.standing =
      .ok (s.standing, { vars := s.standing.vars }) := rfl
  -- There is a state, so the bound leaves room for the retry.
  obtain ⟨n, hn⟩ : ∃ n, flow.stateCount = n + 1 :=
    Nat.exists_eq_succ_of_ne_zero (Nat.ne_of_gt (Nat.zero_lt_of_lt hsound.state_lt))
  rw [turn_error_iff_steps hfloor hprepare, hn, TurnSetting.steps_error_iff_system hflow hsound rfl]
  exact Iff.rfl

/-- A turn that fails leaves the standing as it was. -/
theorem turn_error_standing {s : Session} {speaker : Speaker} {utterance : Option String}
    {e : TurnError} (h : (s.turn flow speaker utterance).1 = .error e) :
    (s.turn flow speaker utterance).2.standing = s.standing := by
  unfold turn at h ⊢
  generalize turnFrom flow speaker utterance s.standing s.source = result at h ⊢
  rcases result with ⟨e' | ⟨report, st⟩, src⟩
  · rfl
  · cases h

/-- Exactly when a turn from a reachable session fails, and what it leaves. -/
theorem Reachable.turn_fails_iff (hbuilt : flow.Built) {s : Session} (h : Reachable flow s)
    (speaker : Speaker) (utterance : Option String) :
    (s.standing.speaker ≠ speaker → s.turn flow speaker utterance =
      (.error (.wrongSpeaker speaker s.standing.speaker), s)) ∧
    (s.standing.speaker = .user →
      ((∃ e, (s.turn flow .user utterance).1 = .error e) ↔ UserStuck flow utterance s)) ∧
    (s.standing.speaker = .system →
      ((∃ e, (s.turn flow .system utterance).1 = .error e) ↔ SystemStuck flow utterance s)) ∧
    (∀ st outcome, prepare flow (heard flow utterance) speaker s.standing = .ok (st, outcome) →
      ∀ i leg e, (setting flow speaker utterance).leg? ⟨.opening st, s.source⟩ i =
          some leg →
        ((setting flow speaker utterance).step leg.before leg.source).1 = .fail e →
        ∀ j < i, ∀ earlier,
          (setting flow speaker utterance).leg? ⟨.opening st, s.source⟩ j =
            some earlier →
          ((setting flow speaker utterance).survey earlier.before
            earlier.source).1.2 = none) ∧
    ∀ e, (s.turn flow speaker utterance).1 = .error e →
      (s.turn flow speaker utterance).2.standing = s.standing :=
  ⟨fun hfloor => turn_of_wrongSpeaker hfloor utterance,
    fun hfloor => turn_error_iff_user hbuilt.wellFormed (h.sound hbuilt) hfloor utterance,
    fun hfloor => turn_error_iff_system hbuilt.wellFormed (h.sound hbuilt) hfloor utterance,
    fun _ _ _ _ _ _ hleg hfail => TurnSetting.none_taken_of_fail hleg hfail,
    fun _ hfail => turn_error_standing hfail⟩

/-- When the user has come back to the porch, the system is stuck there: the gate to the hall is
closed, and there is no other way. -/
theorem turn_fails_iff_tour :
    let s := (((start .tour (.mixed 7)).turn .tour .system none).2.turn .tour .user
      (some "again")).2
    Reachable .tour s ∧ s.standing.speaker = .system ∧
      (∃ e, (s.turn .tour .system none).1 = .error e) ∧ SystemStuck .tour none s := by
  intro s
  have hreachable : Reachable .tour s := .turn .user _ (.turn .system none (.start _))
  have hfloor : s.standing.speaker = .system := by decide +kernel
  have hnone : (s.turn .tour .system none).1.toOption.isNone = true := by decide +kernel
  have hfails : ∃ e, (s.turn .tour .system none).1 = .error e := by
    cases hturn : (s.turn .tour .system none).1 with
    | error e => exact ⟨e, rfl⟩
    | ok report =>
      rw [hturn] at hnone
      cases hnone
  exact ⟨hreachable, hfloor, hfails,
    ((hreachable.turn_fails_iff Flow.tour_built .system none).2.2.1 hfloor).mp hfails⟩

end Session

end Colloquy
