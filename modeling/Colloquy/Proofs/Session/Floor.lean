import Colloquy.Proofs.Session.Calls
import Colloquy.Proofs.Session.Completed

/-!
# The floor and the pending answer

A turn that succeeds hands the floor to the other side.  An answer of an update rule is pending only
while the system holds the floor: a user turn that succeeds leaves the one that its update rules
gave, and a system turn that succeeds leaves none, whether or not it was given (`Reachable.floor`).

Over a whole history, `Disciplined` says that turns alternate and that an answer is given at most
once, by the first step of the first system turn to succeed after the user turn that prompted it.
-/

namespace Colloquy

namespace TurnSetting

variable {given : TurnSetting}

/-- A step uses up the pending answer if it considers it. -/
theorem step_pending (p : Progress) (src : Source) :
    (given.step p src).1.Holds fun q =>
      q.standing.pending = if given.admitsAnswer p then none else p.standing.pending := by
  have hsettles := given.step_settles p src
  generalize (given.step p src).1 = m at hsettles ⊢
  generalize (given.survey p src).1.2 = choice at hsettles
  cases hsettles with
  | answer | answerOnward | arrival | hop | finish | errorSuccessor | stay | fallback => exact rfl
  | stuckUser | stuckSystem => trivial

/-- A step that gives an answer takes the candidate of one. -/
theorem fromRule_of_kind? {leg : Leg} (h : given.kind? leg = some .updateRule) :
    ∃ c place, (given.survey leg.before leg.source).1.2 = some (c, place) ∧ c.fromRule = true := by
  have hsettles := given.step_settles leg.before leg.source
  rw [kind?] at h
  generalize (given.step leg.before leg.source).1 = m at h hsettles
  generalize (given.survey leg.before leg.source).1.2 = choice at hsettles ⊢
  cases hsettles with
  | answer isAnswer | answerOnward isAnswer => exact ⟨_, _, rfl, isAnswer⟩
  | arrival isTransition | hop isTransition =>
    simp [passFloor, Move.kind?, traceOf, isTransition] at h
  | finish | errorSuccessor | stay | fallback => simp [passFloor, Move.kind?, traceOf] at h
  | stuckUser | stuckSystem => simp [Move.kind?] at h

namespace Completes

variable {st : Standing} {src₀ src : Source} {last : Leg} {i : Nat} {q : Progress}

/-- A system turn leaves nothing pending. -/
theorem pending_of_system (h : given.Completes ⟨.opening st, src₀⟩ i last q src)
    (hsystem : given.speaker = .system) : q.standing.pending = none := by
  -- Once the first hop is made, the step before it has considered the answer.
  have hused : ∀ {p : Progress}, p.first = true ∨ p.standing.pending = none →
      (if given.admitsAnswer p then none else p.standing.pending) = none := by
    rintro p (hfirst | hnone)
    · rw [admitsAnswer, hsystem, hfirst]
      rfl
    · rw [hnone, ite_self]
  have hlast : last.before.first = true ∨ last.before.standing.pending = none := by
    refine leg?_induct h.isLeg (P := fun p => p.first = true ∨ p.standing.pending = none)
      (.inl rfl) fun p src q hp hmove => ?_
    have hpending := given.step_pending p src
    rw [hmove] at hpending
    exact .inr (hpending.trans (hused hp))
  have hpending := given.step_pending last.before last.source
  rw [h.stops] at hpending
  exact hpending.trans (hused hlast)

/-- A user turn leaves pending what its update rules did. -/
theorem pending_of_user (h : given.Completes ⟨.opening st, src₀⟩ i last q src)
    (huser : given.speaker = .user) : q.standing.pending = st.pending := by
  have hkept : ∀ p : Progress,
      (if given.admitsAnswer p then none else p.standing.pending) = p.standing.pending := by
    intro p
    rw [admitsAnswer, huser]
    rfl
  have hlast : last.before.standing.pending = st.pending := by
    refine leg?_induct h.isLeg (P := fun p => p.standing.pending = st.pending) rfl
      fun p src q hp hmove => ?_
    have hpending := given.step_pending p src
    rw [hmove] at hpending
    exact (hpending.trans (hkept p)).trans hp
  have hpending := given.step_pending last.before last.source
  rw [h.stops] at hpending
  exact (hpending.trans (hkept _)).trans hlast

/-- Only the first step of a system turn gives an answer, and it gives the pending one. -/
theorem of_updateRule (h : given.Completes ⟨.opening st, src₀⟩ i last q src)
    (hflow : given.flow.WellFormed) (hsound : st.Sound given.flow) {j : Nat} {step : StepTrace}
    (hj : q.steps[j]? = some step) (hkind : step.kind = .updateRule) :
    given.speaker = .system ∧ j = 0 ∧ ∃ answer, st.pending = some answer ∧
      ∃ c place src₁ src₂, (given.survey (.opening st) src₀).1.2 = some (c, place) ∧
        given.Answers st answer src₁ c src₂ := by
  have hcourse : given.OnCourse (Leg.mk (.opening st) src₀).before := onCourse_opening hsound
  obtain ⟨leg, hleg, hlegKind⟩ := h.steps_getElem? hflow hcourse rfl hj
  rw [hkind] at hlegKind
  obtain ⟨hj, hsystem⟩ := (hcourse.bounded hflow rfl).opening_only j leg hleg (.inl hlegKind)
  refine ⟨hsystem, hj, ?_⟩
  rw [hj] at hleg
  rw [← Option.some.inj hleg] at hlegKind
  obtain ⟨c, place, hchoice, hrule⟩ := fromRule_of_kind? hlegKind
  have hviable := (given.choice_greatest hchoice).1
  -- A transition is not a rule's candidate, so what was chosen is the answer.
  cases hviable with
  | transition considered viable =>
    rw [viable.fromRule_eq] at hrule
    cases hrule
  | answer admitted pending answers => exact ⟨_, pending, c, _, _, _, hchoice, answers⟩

end Completes

end TurnSetting

namespace Session

variable {flow : Flow}

/-! ### One turn -/

/-- The update rules that a user turn runs give the answer. -/
def Prompts (flow : Flow) (utterance : Option String) (s : Session) (answer : RuleAnswer) : Prop :=
  ∃ outcome, Rules.run ⟨flow.macros, heard flow utterance, flow.options⟩ flow.rules
    s.standing.vars = .ok outcome ∧ outcome.answer = some answer

/-- The first step of a system turn takes the answer. -/
def Gives (flow : Flow) (utterance : Option String) (s : Session) (answer : RuleAnswer) : Prop :=
  ∃ c place src src',
    ((setting flow .system utterance).survey (.opening s.standing) s.source).1.2 =
      some (c, place) ∧
    (setting flow .system utterance).Answers s.standing answer src c src'

/-- A turn that succeeds hands over the floor, and leaves pending what its own update rules gave. -/
theorem Reachable.floor (hbuilt : flow.Built) {s : Session} (h : Reachable flow s)
    {speaker : Speaker} {utterance : Option String} {report : TurnReport}
    (hturn : (s.turn flow speaker utterance).1 = .ok report) :
    s.standing.speaker = speaker ∧
    (s.turn flow speaker utterance).2.standing.speaker = speaker.other ∧
    (speaker = .system → (s.turn flow speaker utterance).2.standing.pending = none) ∧
    ∀ answer, (s.turn flow speaker utterance).2.standing.pending = some answer →
      speaker = .user ∧ Prompts flow utterance s answer := by
  obtain ⟨hfloor, st, outcome, i, last, q, hprepare, hcompletes, hstanding, -⟩ :=
    h.turn_ok hbuilt hturn
  have hsystem : speaker = .system →
      (s.turn flow speaker utterance).2.standing.pending = none := by
    intro hspeaker
    rw [hstanding]
    exact hcompletes.pending_of_system hspeaker
  refine ⟨hfloor, hstanding ▸ hcompletes.speaker_eq, hsystem, fun answer hanswer => ?_⟩
  rcases prepare_eq_ok hprepare with ⟨hspeaker, -⟩ | ⟨hspeaker, hrun, rfl⟩
  · rw [hsystem hspeaker] at hanswer
    cases hanswer
  · rw [hstanding, hcompletes.pending_of_user hspeaker] at hanswer
    exact ⟨hspeaker, outcome, hrun, hanswer⟩

/-- A step of a report that gives an answer is the first of a system turn, and gives the pending
one. -/
theorem Reachable.of_updateRule (hbuilt : flow.Built) {s : Session} (h : Reachable flow s)
    {speaker : Speaker} {utterance : Option String} {report : TurnReport}
    (hturn : (s.turn flow speaker utterance).1 = .ok report) {j : Nat} {step : StepTrace}
    (hj : report.steps[j]? = some step) (hkind : step.kind = .updateRule) :
    speaker = .system ∧ j = 0 ∧
      ∃ answer, s.standing.pending = some answer ∧ Gives flow utterance s answer := by
  obtain ⟨-, st, outcome, i, last, q, hprepare, hcompletes, -, hsteps⟩ :=
    h.turn_ok hbuilt hturn
  rw [hsteps] at hj
  obtain ⟨hspeaker, hzero, answer, hpending, hgives⟩ := hcompletes.of_updateRule hbuilt.wellFormed
    (prepare_sound hprepare (h.sound hbuilt)) hj hkind
  have hspeaker' : speaker = .system := hspeaker
  subst hspeaker'
  rcases prepare_eq_ok hprepare with ⟨-, rfl⟩ | ⟨⟨⟩, -⟩
  exact ⟨rfl, hzero, answer, hpending, hgives⟩

/-- An answer is pending only while the system holds the floor. -/
theorem Reachable.pending_held (hbuilt : flow.Built) {s : Session} (h : Reachable flow s)
    {answer : RuleAnswer} (hanswer : s.standing.pending = some answer) :
    s.standing.speaker = .system := by
  induction h with
  | start => cases hanswer
  | @turn s speaker utterance hs ih =>
    cases hturn : (s.turn flow speaker utterance).1 with
    | error e =>
      rw [turn_error_standing hturn] at hanswer ⊢
      exact ih hanswer
    | ok report =>
      -- An answer is left only by a user's turn, after which the system has the floor.
      obtain ⟨-, hfloor, -, hprompts⟩ := hs.floor hbuilt hturn
      rw [hfloor, (hprompts answer hanswer).1]
      rfl
  | reset => cases hanswer
  | @restore s snap hs ih =>
    unfold Session.restore at hanswer ⊢
    cases hresolve : snap.resolve flow with
    | ok st =>
      rw [hresolve] at hanswer
      cases (resolve_eq_ok hresolve).2.symm.trans hanswer
    | error name =>
      rw [hresolve] at hanswer
      exact ih hanswer

/-! ### Histories -/

variable {src : Source} {calls : List Call}

/-- In the history of a fresh session, the call with a number is a turn that succeeds and gives an
answer. -/
def AnswersAt (flow : Flow) (src : Source) (calls : List Call) (k : Nat) : Prop :=
  ∃ speaker utterance report, calls[k]? = some (.turn speaker utterance) ∧
    ((before flow src calls k).turn flow speaker utterance).1 = .ok report ∧
    ∃ step ∈ report.steps, step.kind = .updateRule

/-- In the history of a fresh session, the call with a number is a user turn that succeeds, and its
update rules give the answer. -/
def PromptsAt (flow : Flow) (src : Source) (calls : List Call) (k : Nat) (answer : RuleAnswer) :
    Prop :=
  ∃ utterance, calls[k]? = some (.turn .user utterance) ∧ SucceedsAt flow src calls k ∧
    Prompts flow utterance (before flow src calls k) answer

/-- How the floor and the pending answer go through the history of a fresh session. -/
structure Disciplined (flow : Flow) (src : Source) (calls : List Call) : Prop where
  /-- A turn that succeeds is taken by the side that holds the floor, and hands it to the other. -/
  hands_over : ∀ k speaker utterance, calls[k]? = some (.turn speaker utterance) →
    SucceedsAt flow src calls k →
    (before flow src calls k).standing.speaker = speaker ∧
      (before flow src calls (k + 1)).standing.speaker = speaker.other
  /-- Two turns that succeed are not taken by the same side, unless another turn, a reset or a
  restore succeeds between them. -/
  alternates : ∀ j k speaker speaker' utterance utterance', j < k →
    calls[j]? = some (.turn speaker utterance) → SucceedsAt flow src calls j →
    calls[k]? = some (.turn speaker' utterance') → SucceedsAt flow src calls k →
    (∀ i, j < i → i < k → ¬ SucceedsAt flow src calls i) → speaker' = speaker.other
  /-- An answer is pending only while the system holds the floor, and it is that of a rule which can
  answer. -/
  pending_held : ∀ k answer, (before flow src calls k).standing.pending = some answer →
    (before flow src calls k).standing.speaker = .system ∧
      ∃ rule, flow.rules[answer.rule]? = some rule ∧ rule.postcondition.isSome = true
  /-- A system turn that succeeds leaves nothing pending. -/
  cleared : ∀ k utterance, calls[k]? = some (.turn .system utterance) →
    SucceedsAt flow src calls k → (before flow src calls (k + 1)).standing.pending = none
  /-- A step that gives an answer is the first of a system turn.  It gives the pending answer, which
  a user turn has prompted, and no call has succeeded since. -/
  answers : ∀ k speaker utterance report j step,
    calls[k]? = some (.turn speaker utterance) →
    ((before flow src calls k).turn flow speaker utterance).1 = .ok report →
    report.steps[j]? = some step → step.kind = .updateRule →
    speaker = .system ∧ j = 0 ∧
      ∃ answer, (before flow src calls k).standing.pending = some answer ∧
        Gives flow utterance (before flow src calls k) answer ∧
        ∃ i < k, PromptsAt flow src calls i answer ∧
          ∀ m, i < m → m < k → ¬ SucceedsAt flow src calls m
  /-- Between two turns that give answers, a user turn prompts the second of these. -/
  once : ∀ k k', k < k' → AnswersAt flow src calls k → AnswersAt flow src calls k' →
    ∃ i answer, k < i ∧ i < k' ∧ PromptsAt flow src calls i answer

theorem succeeds_of_turn {k : Nat} {speaker : Speaker} {utterance : Option String}
    (hcall : calls[k]? = some (.turn speaker utterance)) (h : SucceedsAt flow src calls k) :
    ∃ report, ((before flow src calls k).turn flow speaker utterance).1 = .ok report := by
  obtain ⟨c, hc, hsucceeds⟩ := h
  obtain rfl := Option.some.inj (hcall.symm.trans hc)
  exact hsucceeds

/-- The call that has left an answer pending is a user turn, which prompted it. -/
theorem promptsAt_of_pending (hbuilt : flow.Built) {k : Nat}
    (hsucceeds : SucceedsAt flow src calls k) {answer : RuleAnswer}
    (h : (before flow src calls (k + 1)).standing.pending = some answer) :
    PromptsAt flow src calls k answer := by
  obtain ⟨c, hc, hok⟩ := id hsucceeds
  rw [before_succ hc] at h
  cases c with
  | turn speaker utterance =>
    obtain ⟨report, hturn⟩ := hok
    obtain ⟨rfl, hprompts⟩ :=
      ((reachable_before flow src calls k).floor hbuilt hturn).2.2.2 answer h
    exact ⟨utterance, hc, hsucceeds, hprompts⟩
  | reset => cases h
  -- A restored session has no answer pending.
  | restore snap =>
    rw [Call.run, Session.restore] at h
    rw [Call.Succeeds, Session.restore] at hok
    cases hresolve : snap.resolve flow with
    | ok st =>
      rw [hresolve] at h
      cases (resolve_eq_ok hresolve).2.symm.trans h
    | error name =>
      rw [hresolve] at hok
      cases hok

/-- A pending answer has been prompted by a user turn, and no call has succeeded since. -/
theorem exists_prompted (hbuilt : flow.Built) {answer : RuleAnswer} {k : Nat}
    (h : (before flow src calls k).standing.pending = some answer) :
    ∃ i < k, PromptsAt flow src calls i answer ∧
      ∀ m, i < m → m < k → ¬ SucceedsAt flow src calls m := by
  rcases exists_last_success flow src calls k with hnone | ⟨j, hj, hsucceeds, hlast⟩
  · rw [standing_before_eq (Nat.zero_le k) fun i _ => hnone i] at h
    cases h
  · rw [standing_before_eq (Nat.succ_le_of_lt hj) fun i hji => hlast i hji] at h
    exact ⟨j, hj, promptsAt_of_pending hbuilt hsucceeds h, hlast⟩

/-- The history of a fresh session over a flow that was built is disciplined. -/
theorem disciplined (hbuilt : flow.Built) (src : Source) (calls : List Call) :
    Disciplined flow src calls := by
  have hfloor : ∀ k speaker utterance, calls[k]? = some (.turn speaker utterance) →
      SucceedsAt flow src calls k →
      (before flow src calls k).standing.speaker = speaker ∧
        (before flow src calls (k + 1)).standing.speaker = speaker.other := by
    intro k speaker utterance hcall hsucceeds
    obtain ⟨report, hturn⟩ := succeeds_of_turn hcall hsucceeds
    obtain ⟨hholds, hover, -⟩ := (reachable_before flow src calls k).floor hbuilt hturn
    exact ⟨hholds, before_succ hcall ▸ hover⟩
  have hanswers : ∀ k speaker utterance report j step,
      calls[k]? = some (.turn speaker utterance) →
      ((before flow src calls k).turn flow speaker utterance).1 = .ok report →
      report.steps[j]? = some step → step.kind = .updateRule →
      speaker = .system ∧ j = 0 ∧
        ∃ answer, (before flow src calls k).standing.pending = some answer ∧
          Gives flow utterance (before flow src calls k) answer ∧
          ∃ i < k, PromptsAt flow src calls i answer ∧
            ∀ m, i < m → m < k → ¬ SucceedsAt flow src calls m := by
    intro k speaker utterance report j step hcall hturn hj hkind
    obtain ⟨hspeaker, hzero, answer, hpending, hgives⟩ :=
      (reachable_before flow src calls k).of_updateRule hbuilt hturn hj hkind
    exact ⟨hspeaker, hzero, answer, hpending, hgives, exists_prompted hbuilt hpending⟩
  refine ⟨hfloor, ?_, ?_, ?_, hanswers, ?_⟩
  · intro j k speaker speaker' utterance utterance' hjk hj hjs hk hks hbetween
    have hsame := standing_before_eq (Nat.succ_le_of_lt hjk) fun i hji => hbetween i hji
    rw [← (hfloor k speaker' utterance' hk hks).1, hsame]
    exact (hfloor j speaker utterance hj hjs).2
  · intro k answer hpending
    have hreachable := reachable_before flow src calls k
    obtain ⟨rule, hrule, hpost, -⟩ := (hreachable.sound hbuilt).pending_rule answer hpending
    exact ⟨hreachable.pending_held hbuilt hpending, rule, hrule, hpost⟩
  · intro k utterance hcall hsucceeds
    obtain ⟨report, hturn⟩ := succeeds_of_turn hcall hsucceeds
    rw [before_succ hcall]
    exact ((reachable_before flow src calls k).floor hbuilt hturn).2.2.1 rfl
  · rintro k k' hkk' ⟨speaker, utterance, report, hcall, hturn, step, hstep, hkind⟩
      ⟨speaker', utterance', report', hcall', hturn', step', hstep', hkind'⟩
    obtain ⟨j, hj⟩ := List.mem_iff_getElem?.mp hstep
    obtain ⟨j', hj'⟩ := List.mem_iff_getElem?.mp hstep'
    obtain ⟨rfl, -⟩ := hanswers k speaker utterance report j step hcall hturn hj hkind
    obtain ⟨-, -, answer, -, -, i, hi, hprompts, hsince⟩ :=
      hanswers k' speaker' utterance' report' j' step' hcall' hturn' hj' hkind'
    -- The first of the turns succeeds too, so the prompt comes after it.
    refine ⟨i, answer, ?_, hi, hprompts⟩
    rcases Nat.lt_trichotomy k i with hlt | rfl | hgt
    · exact hlt
    · obtain ⟨text, huser, -⟩ := hprompts
      cases hcall.symm.trans huser
    · exact absurd ⟨_, hcall, report, hturn⟩ (hsince k hgt hkk')

end Session

end Colloquy
