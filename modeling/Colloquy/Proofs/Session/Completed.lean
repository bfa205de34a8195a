import Colloquy.Proofs.Session.Course

/-!
# Turns that succeed

A turn succeeds with its last leg, the one that passes the floor (`Completes`,
`Reachable.turn_completes`).  What a turn leaves is therefore found in two parts: what holds before
every leg (`leg?_induct`), and what the last one makes of it.  The steps of the report are the legs,
one each, in order (`Completes.steps_getElem?`).
-/

namespace Colloquy

namespace TurnSetting

variable {given : TurnSetting}

/-! ### Single steps -/

/-- A step that goes on or ends the turn notes one trace. -/
theorem step_steps (p : Progress) (src : Source) :
    (given.step p src).1.Holds fun q => ∃ trace, q.steps = p.steps ++ [trace] := by
  have hsettles := given.step_settles p src
  generalize (given.step p src).1 = m at hsettles ⊢
  generalize (given.survey p src).1.2 = choice at hsettles
  cases hsettles with
  | answer | arrival => exact ⟨_, given.commit_steps ..⟩
  | answerOnward | hop => exact ⟨_, given.commit_steps ..⟩
  | finish | errorSuccessor | stay | fallback => exact ⟨_, given.note_steps ..⟩
  | stuckUser | stuckSystem => trivial

/-- A step that ends the turn passes the floor. -/
theorem speaker_of_stop {p q : Progress} {src : Source} (h : (given.step p src).1 = .stop q) :
    q.standing.speaker = given.speaker.other := by
  have hsettles := given.step_settles p src
  generalize (given.step p src).1 = m at hsettles h
  generalize (given.survey p src).1.2 = choice at hsettles
  cases hsettles with
  | answer | arrival | finish | errorSuccessor | stay =>
    rw [← Move.stop.inj h]
  | answerOnward | hop | fallback | stuckUser | stuckSystem => cases h

/-! ### Along the legs -/

/-- What holds when a turn begins, and is kept by every step that goes on, holds before each leg. -/
theorem leg?_induct {start leg : Leg} {i : Nat} (hleg : given.leg? start i = some leg)
    {P : Progress → Prop} (hstart : P start.before)
    (hstep : ∀ p src q, P p → (given.step p src).1 = .goOn q → P q) : P leg.before := by
  induction i generalizing leg with
  | zero =>
    rw [← Option.some.inj hleg]
    exact hstart
  | succ i ih =>
    obtain ⟨previous, hprevious, hnext⟩ := leg?_succ_eq_some_iff.mp hleg
    exact hstep _ _ _ (ih hprevious) (congrArg Prod.fst (onward_eq_some_iff.mp hnext))

/-- Each of the steps noted so far is that of the leg with its number. -/
def Noted (given : TurnSetting) (start : Leg) (steps : List StepTrace) : Prop :=
  ∀ j step, steps[j]? = some step →
    ∃ leg, given.leg? start j = some leg ∧ given.kind? leg = some step.kind

/-- One more leg, one more step. -/
theorem Noted.step {start leg : Leg} {i : Nat} (h : given.Noted start leg.before.steps)
    (hleg : given.leg? start i = some leg) (hlength : leg.before.steps.length = i) :
    (given.step leg.before leg.source).1.Holds fun q => given.Noted start q.steps := by
  have hsteps := given.step_steps leg.before leg.source
  have hkind : given.kind? leg = (given.step leg.before leg.source).1.kind? := rfl
  have key : ∀ {q : Progress} {trace : StepTrace}, q.steps = leg.before.steps ++ [trace] →
      given.kind? leg = q.steps.getLast?.map (·.kind) → given.Noted start q.steps := by
    intro q trace hq hlast j step hj
    rw [hq, List.getLast?_append] at hlast
    rw [hq] at hj
    rcases Nat.lt_or_ge j leg.before.steps.length with hlt | hge
    · rw [List.getElem?_append_left hlt] at hj
      exact h j step hj
    · rw [List.getElem?_append_right hge] at hj
      -- Behind the earlier steps stands only the new one.
      have hzero : j - leg.before.steps.length = 0 := by
        by_contra hne
        rw [List.getElem?_eq_none (Nat.one_le_iff_ne_zero.mpr hne)] at hj
        cases hj
      rw [hzero] at hj
      obtain rfl : trace = step := Option.some.inj hj
      exact ⟨leg, (Nat.le_antisymm (Nat.le_of_sub_eq_zero hzero) hge).trans hlength ▸ hleg, hlast⟩
  generalize (given.step leg.before leg.source).1 = m at hsteps hkind ⊢
  cases m with
  | goOn q | stop q =>
    obtain ⟨trace, hq⟩ := hsteps
    exact key hq hkind
  | fail => trivial

theorem noted_leg? (hflow : given.flow.WellFormed) {start : Leg}
    (hcourse : given.OnCourse start.before) (hfirst : start.before.steps = []) (i : Nat) :
    ∀ {leg : Leg}, given.leg? start i = some leg → given.Noted start leg.before.steps := by
  induction i with
  | zero =>
    intro leg hleg j step hj
    rw [← Option.some.inj hleg, hfirst] at hj
    cases hj
  | succ i ih =>
    intro leg hleg
    obtain ⟨previous, hprevious, hnext⟩ := leg?_succ_eq_some_iff.mp hleg
    have hnoted := (ih hprevious).step hprevious (hcourse.leg? hflow hfirst i hprevious).2
    rw [onward_eq_some_iff.mp hnext] at hnoted
    exact hnoted

/-! ### The last leg -/

/-- The turn that begins with the leg `start` succeeds with its leg number `i`, which ends it with
`q`. -/
structure Completes (given : TurnSetting) (start : Leg) (i : Nat) (last : Leg) (q : Progress)
    (src : Source) : Prop where
  isLeg : given.leg? start i = some last
  onCourse : given.OnCourse last.before
  stops : given.step last.before last.source = (.stop q, src)

namespace Completes

variable {start last : Leg} {i : Nat} {q : Progress} {src : Source}

theorem speaker_eq (h : given.Completes start i last q src) :
    q.standing.speaker = given.speaker.other :=
  speaker_of_stop (congrArg Prod.fst h.stops)

/-- The steps of the report are those of the legs. -/
theorem steps_getElem? (h : given.Completes start i last q src) (hflow : given.flow.WellFormed)
    (hcourse : given.OnCourse start.before) (hfirst : start.before.steps = []) {j : Nat}
    {step : StepTrace} (hj : q.steps[j]? = some step) :
    ∃ leg, given.leg? start j = some leg ∧ given.kind? leg = some step.kind := by
  have hnoted := (noted_leg? hflow hcourse hfirst i h.isLeg).step h.isLeg
    (hcourse.leg? hflow hfirst i h.isLeg).2
  rw [h.stops] at hnoted
  exact hnoted j step hj

end Completes

end TurnSetting

namespace Session

variable {flow : Flow}

/-- A turn that succeeds is taken by the side that holds the floor, and completes its legs; its
report is what they noted. -/
theorem Reachable.turn_completes (hbuilt : flow.Built) {s : Session} (h : Reachable flow s)
    {speaker : Speaker} {utterance : Option String} {report : TurnReport}
    (hturn : (s.turn flow speaker utterance).1 = .ok report) :
    s.standing.speaker = speaker ∧ ∃ st outcome i last q,
      prepare flow (heard flow utterance) speaker s.standing = .ok (st, outcome) ∧
      (setting flow speaker utterance).Completes ⟨.opening st, s.source⟩ i last q
        (s.turn flow speaker utterance).2.source ∧
      (s.turn flow speaker utterance).2.standing = q.standing ∧
      report = reportOf flow speaker utterance s.standing.state outcome q := by
  have hflow := hbuilt.wellFormed
  by_cases hfloor : s.standing.speaker = speaker
  · refine ⟨hfloor, ?_⟩
    cases hprepare : prepare flow (heard flow utterance) speaker s.standing with
    | error e =>
      rw [turn_of_prepare_error hfloor hprepare] at hturn
      cases hturn
    | ok prepared =>
      obtain ⟨st, outcome⟩ := prepared
      have hcourse : (setting flow speaker utterance).OnCourse
          (Leg.mk (.opening st) s.source).before :=
        TurnSetting.onCourse_opening (prepare_sound hprepare (h.sound hbuilt))
      -- The bound on the steps does not cut the turn short, so the last leg ends it.
      obtain ⟨i, hi, last, r, hleg, -, hending, hsteps⟩ := (hcourse.bounded hflow rfl).ends
      have hlast := (hcourse.leg? hflow rfl i hleg).1
      have hrun := hsteps (flow.stateCount + 1) (Nat.lt_succ_of_le hi)
      rcases hmove : (setting flow speaker utterance).step last.before last.source with
        ⟨q | q | e, src⟩
      · rw [hmove] at hending
        cases hending
      · rw [hmove] at hending hrun
        obtain rfl := Option.some.inj hending
        have hturn' := turn_eq_of_steps_ok hfloor hprepare hrun
        rw [hturn'] at hturn ⊢
        obtain rfl := Except.ok.inj hturn
        exact ⟨st, outcome, i, last, q, rfl, ⟨hleg, hlast, hmove⟩, rfl, rfl⟩
      · rw [hmove] at hending hrun
        obtain rfl := Option.some.inj hending
        rw [turn_of_steps_error hfloor hprepare hrun] at hturn
        cases hturn
  · rw [turn_of_wrongSpeaker hfloor] at hturn
    cases hturn

/-- The steps of the report are those of the legs. -/
theorem Reachable.turn_ok (hbuilt : flow.Built) {s : Session} (h : Reachable flow s)
    {speaker : Speaker} {utterance : Option String} {report : TurnReport}
    (hturn : (s.turn flow speaker utterance).1 = .ok report) :
    s.standing.speaker = speaker ∧ ∃ st outcome i last q,
      prepare flow (heard flow utterance) speaker s.standing = .ok (st, outcome) ∧
      (setting flow speaker utterance).Completes ⟨.opening st, s.source⟩ i last q
        (s.turn flow speaker utterance).2.source ∧
      (s.turn flow speaker utterance).2.standing = q.standing ∧ report.steps = q.steps := by
  obtain ⟨hfloor, st, outcome, i, last, q, hprepare, hcompletes, hstanding, rfl⟩ :=
    h.turn_completes hbuilt hturn
  exact ⟨hfloor, st, outcome, i, last, q, hprepare, hcompletes, hstanding, rfl⟩

end Session

end Colloquy
