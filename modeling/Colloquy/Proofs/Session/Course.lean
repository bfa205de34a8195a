import Mathlib.Data.List.Perm.Subperm
import Mathlib.Data.Nat.Find
import Colloquy.Proofs.Session.Reachable

/-!
# The course of a turn

A `Leg` is a step about to be taken, and `TurnSetting.leg?` gives the legs of a turn one after the
other, without a bound on their number.  The invariant `OnCourse` ties the states that the turn has
been in to the steps that it has taken.

From it follows that a turn has at most `stateCount + 1` legs (`leg?_eq_none`), so that the bound
which `steps` is given cuts no turn short (`steps_eq_of_last`).  Every leg but the last leads to a
state that the turn has not been in, unless it gives an answer; only the first leg of a system turn
gives an answer or moves to the fallback state.
-/

namespace Colloquy

/-- A step about to be taken: the turn before it and the source. -/
structure Leg where
  before : Progress
  source : Source

/-- The state in which the step is taken. -/
def Leg.state (leg : Leg) : StateId :=
  leg.before.standing.state

/-- What the step did that led here, according to its trace; none if the turn failed. -/
def Move.kind? : Move → Option StepKind
  | .goOn p | .stop p => p.steps.getLast?.map (·.kind)
  | .fail _ => none

/-- How the turn ends with the move. -/
def Move.ending? : Move → Option (Except TurnError Progress)
  | .goOn _ => none
  | .stop p => some (.ok p)
  | .fail e => some (.error e)

namespace TurnSetting

variable (given : TurnSetting)

/-- What a leg does. -/
def kind? (leg : Leg) : Option StepKind :=
  (given.step leg.before leg.source).1.kind?

/-- The leg that follows, if the turn goes on. -/
def onward (leg : Leg) : Option Leg :=
  match given.step leg.before leg.source with
  | (.goOn p, src) => some ⟨p, src⟩
  | _ => none

/-- The leg with a number, counted from zero, of a turn that begins with the given one; none if the
turn ends before it. -/
def leg? (start : Leg) : Nat → Option Leg
  | 0 => some start
  | i + 1 => (leg? start i).bind given.onward

variable {given}

theorem onward_eq_some_iff {leg next : Leg} :
    given.onward leg = some next ↔
      given.step leg.before leg.source = (.goOn next.before, next.source) := by
  unfold onward
  rcases given.step leg.before leg.source with ⟨p | p | e, src⟩
  · constructor
    · rintro ⟨⟩
      rfl
    · rintro ⟨⟩
      rfl
  · constructor <;> rintro ⟨⟩
  · constructor <;> rintro ⟨⟩

theorem leg?_succ_eq_some_iff {start next : Leg} {i : Nat} :
    given.leg? start (i + 1) = some next ↔
      ∃ leg, given.leg? start i = some leg ∧ given.onward leg = some next :=
  Option.bind_eq_some_iff

/-- The legs after the first. -/
theorem leg?_succ' (start : Leg) (i : Nat) :
    given.leg? start (i + 1) = (given.onward start).bind fun next => given.leg? next i := by
  induction i with
  | zero =>
    -- `leg?` grows at its end, the statement at its beginning; they meet at the second leg.
    show (some start).bind given.onward = _
    rw [Option.bind_some]
    cases given.onward start <;> rfl
  | succ i ih =>
    show (given.leg? start (i + 1)).bind given.onward = _
    rw [ih]
    cases given.onward start <;> rfl

/-! ### The invariant -/

/-- What holds of a turn before each of its legs. -/
structure OnCourse (given : TurnSetting) (p : Progress) : Prop where
  sound : p.standing.Sound given.flow
  nodup : p.visited.Nodup
  visited_lt : ∀ id ∈ p.visited, id < given.flow.stateCount
  state_mem : p.standing.state ∈ p.visited
  /-- Each step but an answer has added a state to the one in which the turn began. -/
  steps_le : p.steps.length ≤ p.visited.length
  /-- Before the first hop, the turn has at most moved to the fallback state. -/
  fresh : p.first = true → p.retried = false → p.steps = [] ∧ p.visited = [p.standing.state]
  /-- By then the system has considered the pending answer. -/
  tried : p.first = true → p.retried = true → p.standing.pending = none

theorem onCourse_opening {st : Standing} (h : st.Sound given.flow) :
    given.OnCourse (.opening st) where
  sound := h
  nodup := List.nodup_singleton _
  visited_lt := fun _ hid => List.mem_singleton.mp hid ▸ h.state_lt
  state_mem := List.mem_singleton_self _
  steps_le := Nat.zero_le _
  fresh := fun _ _ => ⟨rfl, rfl⟩
  tried := by rintro - ⟨⟩

/-- The states that the turn has been in are not more than there are. -/
theorem OnCourse.visited_length_le {p : Progress} (h : given.OnCourse p) :
    p.visited.length ≤ given.flow.stateCount := by
  have hsubset : p.visited ⊆ List.range given.flow.stateCount :=
    fun id hid => List.mem_range.mpr (h.visited_lt id hid)
  have hle := (h.nodup.subperm hsubset).length_le
  rwa [List.length_range] at hle

/-- What changes from a leg to the next one. -/
structure Advances (given : TurnSetting) (leg next : Leg) : Prop where
  onCourse : given.OnCourse next.before
  steps_length : next.before.steps.length = leg.before.steps.length + 1
  visited_subset : leg.before.visited ⊆ next.before.visited
  /-- The next state is a new one, unless the leg gives an answer. -/
  isNew : given.kind? leg = some .updateRule ∨ next.state ∉ leg.before.visited

/-- An answer is given in the first step of a system turn only. -/
theorem OnCourse.of_fromRule {p : Progress} (h : given.OnCourse p) {src : Source} {c : Candidate}
    {place : Nat} (hchoice : (given.survey p src).1.2 = some (c, place))
    (hrule : c.fromRule = true) : given.speaker = .system ∧ p.first = true ∧ p.steps = [] := by
  obtain ⟨hadmits, hpending⟩ := (given.choice_greatest hchoice).1.of_fromRule given hrule
  obtain ⟨hspeaker, hfirst⟩ : given.speaker = .system ∧ p.first = true := by
    simpa [admitsAnswer] using hadmits
  refine ⟨hspeaker, hfirst, ?_⟩
  cases hretried : p.retried with
  | false => exact (h.fresh hfirst hretried).1
  | true =>
    rw [h.tried hfirst hretried] at hpending
    cases hpending

theorem OnCourse.advances (hflow : given.flow.WellFormed) {leg next : Leg}
    (h : given.OnCourse leg.before) (hnext : given.onward leg = some next) :
    given.Advances leg next := by
  obtain ⟨p, src⟩ := leg
  obtain ⟨q, src'⟩ := next
  have hstep := onward_eq_some_iff.mp hnext
  dsimp only at h hstep
  have hkind : given.kind? ⟨p, src⟩ = q.steps.getLast?.map (·.kind) := by
    show (given.step p src).1.kind? = _
    rw [hstep]
    rfl
  have hsound : q.standing.Sound given.flow := by
    have := step_sound hflow h.sound src
    rwa [hstep] at this
  have hpos : 0 < p.visited.length := List.length_pos_of_mem h.state_mem
  have hsettles := given.step_settles p src
  rw [hstep] at hsettles
  dsimp only at hsettles
  generalize hchoice : (given.survey p src).1.2 = choice at hsettles
  -- Only three of the ten cases go on.
  cases hsettles with
  | answerOnward isAnswer stuck =>
    -- The first step may add no state: the one in which the turn began counts for it.
    obtain ⟨-, -, hsteps⟩ := h.of_fromRule hchoice isAnswer
    refine ⟨⟨hsound, h.nodup, h.visited_lt, ?_, ?_, ?_, ?_⟩,
      by simp, List.Subset.refl _, .inl ?_⟩
    · simpa [isAnswer] using h.state_mem
    · simpa [hsteps] using Nat.succ_le_of_lt hpos
    · rintro ⟨⟩
    · rintro ⟨⟩
    · rw [hkind]
      simp [traceOf, isAnswer]
  | hop isTransition isNew goesOn keeps =>
    have hlt : _ < given.flow.stateCount := hsound.state_lt
    simp only [commit_standing, isTransition, Bool.false_eq_true, if_false] at hlt
    refine ⟨⟨hsound, List.nodup_cons.mpr ⟨isNew, h.nodup⟩, ?_, ?_, ?_, ?_, ?_⟩,
      by simp, List.subset_cons_self _ _, .inr ?_⟩
    · exact List.forall_mem_cons.mpr ⟨hlt, h.visited_lt⟩
    · simp [isTransition]
    · simpa using h.steps_le
    · rintro ⟨⟩
    · rintro ⟨⟩
    · simpa [Leg.state, isTransition] using isNew
  | @fallback fallback first system some_fallback once elsewhere =>
    -- So far the turn has been in the present state only.
    obtain ⟨hsteps, hvisited⟩ := h.fresh first once
    have hnew : fallback ∉ p.visited := by
      rw [hvisited, List.mem_singleton]
      exact elsewhere
    refine ⟨⟨hsound, List.nodup_cons.mpr ⟨hnew, h.nodup⟩, ?_, ?_, ?_, ?_, ?_⟩,
      by simp, List.subset_cons_self _ _, .inr hnew⟩
    · exact List.forall_mem_cons.mpr ⟨hflow.fallback_lt _ some_fallback, h.visited_lt⟩
    · exact List.mem_cons_self
    · simpa using h.steps_le
    · rintro - ⟨⟩
    · intro _ _
      have hadmits : given.admitsAnswer p = true := by
        have hfirst : p.first = true := first
        simp [admitsAnswer, system, hfirst]
      simp [hadmits]

/-! ### Along the legs -/

/-- Before every leg of a turn, the invariant holds and as many steps have been taken as the number
of the leg says. -/
theorem OnCourse.leg? (hflow : given.flow.WellFormed) {start : Leg}
    (h : given.OnCourse start.before) (hfirst : start.before.steps = []) (i : Nat) :
    ∀ {leg : Leg}, given.leg? start i = some leg →
      given.OnCourse leg.before ∧ leg.before.steps.length = i := by
  induction i with
  | zero =>
    intro leg hleg
    obtain rfl := Option.some.inj hleg
    exact ⟨h, List.length_eq_zero_iff.mpr hfirst⟩
  | succ i ih =>
    intro leg hleg
    obtain ⟨previous, hprevious, hnext⟩ := leg?_succ_eq_some_iff.mp hleg
    obtain ⟨hcourse, hlength⟩ := ih hprevious
    have hadvances := hcourse.advances hflow hnext
    exact ⟨hadvances.onCourse, by rw [hadvances.steps_length, hlength]⟩

/-- The states of the earlier legs are among those that the turn has been in. -/
theorem OnCourse.state_mem_visited (hflow : given.flow.WellFormed) {start : Leg}
    (h : given.OnCourse start.before) (hfirst : start.before.steps = []) (i : Nat) :
    ∀ {leg : Leg}, given.leg? start i = some leg → ∀ j ≤ i, ∀ earlier,
      given.leg? start j = some earlier → earlier.state ∈ leg.before.visited := by
  induction i with
  | zero =>
    intro leg hleg j hj earlier hearlier
    obtain rfl := Nat.le_zero.mp hj
    obtain rfl := Option.some.inj (hearlier.symm.trans hleg)
    exact (h.leg? hflow hfirst 0 hleg).1.state_mem
  | succ i ih =>
    intro leg hleg j hj earlier hearlier
    rcases Nat.le_succ_iff.mp hj with hj | rfl
    · -- The states that the turn has been in only become more.
      obtain ⟨previous, hprevious, hnext⟩ := leg?_succ_eq_some_iff.mp hleg
      have hadvances := (h.leg? hflow hfirst i hprevious).1.advances hflow hnext
      exact hadvances.visited_subset (ih hprevious j hj earlier hearlier)
    · obtain rfl := Option.some.inj (hearlier.symm.trans hleg)
      exact (h.leg? hflow hfirst (i + 1) hleg).1.state_mem

/-- A leg has a number up to that of the states, so that further legs do not exist. -/
theorem OnCourse.leg?_eq_none (hflow : given.flow.WellFormed) {start : Leg}
    (h : given.OnCourse start.before) (hfirst : start.before.steps = []) {i : Nat}
    (hi : given.flow.stateCount < i) : given.leg? start i = none := by
  rw [Option.eq_none_iff_forall_ne_some]
  intro leg hleg
  obtain ⟨hcourse, hlength⟩ := h.leg? hflow hfirst i hleg
  have hle := hcourse.steps_le
  have hcount := hcourse.visited_length_le
  omega

/-- Only the first leg of a system turn gives an answer or moves to the fallback state. -/
theorem OnCourse.of_kind? {leg : Leg} (h : given.OnCourse leg.before)
    (hkind : given.kind? leg = some .updateRule ∨ given.kind? leg = some .fallback) :
    given.speaker = .system ∧ leg.before.steps = [] := by
  obtain ⟨p, src⟩ := leg
  dsimp only at h
  have hsettles := given.step_settles p src
  rw [kind?] at hkind
  dsimp only at hkind
  generalize (given.step p src).1 = m at hkind hsettles
  generalize hchoice : (given.survey p src).1.2 = choice at hsettles
  cases hsettles with
  | answer isAnswer leaves =>
    obtain ⟨hspeaker, -, hsteps⟩ := h.of_fromRule hchoice isAnswer
    exact ⟨hspeaker, hsteps⟩
  | answerOnward isAnswer stuck =>
    obtain ⟨hspeaker, -, hsteps⟩ := h.of_fromRule hchoice isAnswer
    exact ⟨hspeaker, hsteps⟩
  -- The kinds of the remaining moves are others.
  | arrival isTransition ends => simp [passFloor, Move.kind?, traceOf, isTransition] at hkind
  | hop isTransition isNew goesOn keeps => simp [Move.kind?, traceOf, isTransition] at hkind
  | finish later => simp [passFloor, Move.kind?, traceOf] at hkind
  | errorSuccessor first user some_successor => simp [passFloor, Move.kind?, traceOf] at hkind
  | stay first user no_successor pending => simp [passFloor, Move.kind?, traceOf] at hkind
  | fallback first system some_fallback once elsewhere => exact ⟨system, (h.fresh first once).1⟩
  | stuckUser first user no_successor no_answer => simp [Move.kind?] at hkind
  | stuckSystem first system hopeless => simp [Move.kind?] at hkind

/-! ### The length of a turn -/

/-- The steps of a turn are those from any of its legs on. -/
theorem steps_eq_of_leg (n i : Nat) :
    ∀ {start leg : Leg}, given.leg? start i = some leg →
      given.steps (i + n) start.before start.source = given.steps n leg.before leg.source := by
  induction i with
  | zero =>
    intro start leg h
    obtain rfl := Option.some.inj h
    rw [Nat.zero_add]
  | succ i ih =>
    intro start leg h
    rw [leg?_succ'] at h
    obtain ⟨next, hnext, hleg⟩ := Option.bind_eq_some_iff.mp h
    rw [← ih hleg, Nat.succ_add, steps_succ, onward_eq_some_iff.mp hnext]

/-- A turn ends at the leg after which there is none, whatever larger bound is given. -/
theorem steps_eq_of_last {start last : Leg} {i : Nat} (h : given.leg? start i = some last)
    (hlast : given.leg? start (i + 1) = none) :
    ∃ r, (given.step last.before last.source).1.ending? = some r ∧
      ∀ n, i < n → given.steps n start.before start.source =
        (r, (given.step last.before last.source).2) := by
  have hnone : given.onward last = none := by
    have hbind : (given.leg? start i).bind given.onward = none := hlast
    rwa [h] at hbind
  -- All the steps before the last leg go on, and so does the count.
  have hlastStep : ∀ n, i < n → given.steps n start.before start.source =
      given.steps (n - (i + 1) + 1) last.before last.source := by
    intro n hn
    rw [← steps_eq_of_leg _ i h]
    congr 1
    omega
  unfold onward at hnone
  rcases hmove : given.step last.before last.source with ⟨p | p | e, src⟩
  · rw [hmove] at hnone
    cases hnone
  · refine ⟨.ok p, rfl, fun n hn => ?_⟩
    rw [hlastStep n hn, steps_succ, hmove]
  · refine ⟨.error e, rfl, fun n hn => ?_⟩
    rw [hlastStep n hn, steps_succ, hmove]

/-- Everything that bounds a turn which begins with the given leg. -/
structure Bounded (given : TurnSetting) (start : Leg) : Prop where
  /-- The turn ends at a leg whose number is at most that of the states, and it ends there under any
  larger bound on its steps. -/
  ends : ∃ i ≤ given.flow.stateCount, ∃ last r, given.leg? start i = some last ∧
    given.leg? start (i + 1) = none ∧
    (given.step last.before last.source).1.ending? = some r ∧
    ∀ n, i < n → given.steps n start.before start.source =
      (r, (given.step last.before last.source).2)
  /-- Each leg comes after as many steps as its number says, so that it takes at most the step
  number `stateCount + 1`. -/
  numbered : ∀ i leg, given.leg? start i = some leg →
    leg.before.steps.length = i ∧ leg.before.steps.length + 1 ≤ given.flow.stateCount + 1
  /-- Every leg but the last gives an answer or leads to a state in which the turn has not been. -/
  enters_new : ∀ i leg next, given.leg? start i = some leg → given.leg? start (i + 1) = some next →
    given.kind? leg = some .updateRule ∨
      ∀ j ≤ i, ∀ earlier, given.leg? start j = some earlier → next.state ≠ earlier.state
  /-- Only the first leg of a system turn gives an answer or moves to the fallback state. -/
  opening_only : ∀ i leg, given.leg? start i = some leg →
    given.kind? leg = some .updateRule ∨ given.kind? leg = some .fallback →
      i = 0 ∧ given.speaker = .system

theorem OnCourse.bounded (hflow : given.flow.WellFormed) {start : Leg}
    (h : given.OnCourse start.before) (hfirst : start.before.steps = []) : given.Bounded start where
  ends := by
    have hends : ∃ i, given.leg? start i = none :=
      ⟨_, h.leg?_eq_none hflow hfirst (Nat.lt_succ_self _)⟩
    -- The first number without a leg is not zero; its predecessor is that of the last leg.
    classical
    obtain ⟨i, hi⟩ : ∃ i, Nat.find hends = i + 1 := by
      refine Nat.exists_eq_succ_of_ne_zero fun hzero => ?_
      have hnone := Nat.find_spec hends
      rw [hzero] at hnone
      cases hnone
    have hnone : given.leg? start (i + 1) = none := hi ▸ Nat.find_spec hends
    have hsome : given.leg? start i ≠ none := Nat.find_min hends (by omega)
    obtain ⟨last, hlast⟩ := Option.ne_none_iff_exists'.mp hsome
    have hle : i ≤ given.flow.stateCount := by
      by_contra hlt
      exact hsome (h.leg?_eq_none hflow hfirst (Nat.not_le.mp hlt))
    obtain ⟨r, hr, hsteps⟩ := steps_eq_of_last hlast hnone
    exact ⟨i, hle, last, r, hlast, hnone, hr, hsteps⟩
  numbered := by
    intro i leg hleg
    obtain ⟨hcourse, hlength⟩ := h.leg? hflow hfirst i hleg
    have hle := hcourse.steps_le
    have hcount := hcourse.visited_length_le
    exact ⟨hlength, by omega⟩
  enters_new := by
    intro i leg next hleg hnext
    obtain ⟨leg', hleg', honward⟩ := leg?_succ_eq_some_iff.mp hnext
    obtain rfl : leg = leg' := Option.some.inj (hleg.symm.trans hleg')
    refine ((h.leg? hflow hfirst i hleg).1.advances hflow honward).isNew.imp_right ?_
    intro hnew j hj earlier hearlier heq
    exact hnew (heq ▸ h.state_mem_visited hflow hfirst i hleg j hj earlier hearlier)
  opening_only := by
    intro i leg hleg hkind
    obtain ⟨hcourse, hlength⟩ := h.leg? hflow hfirst i hleg
    obtain ⟨hspeaker, hsteps⟩ := hcourse.of_kind? hkind
    rw [hsteps] at hlength
    exact ⟨hlength.symm, hspeaker⟩

end TurnSetting

namespace Session

/-- From a reachable session, whoever speaks, whatever is said and whatever the source draws: a turn
whose steps are reached ends in time. -/
theorem Reachable.turn_bounded {flow : Flow} (hbuilt : flow.Built) {s : Session}
    (h : Reachable flow s) {speaker : Speaker} {utterance : Option String} {st : Standing}
    {outcome : RuleOutcome}
    (hprepare : prepare flow (heard flow utterance) speaker s.standing = .ok (st, outcome)) :
    (setting flow speaker utterance).Bounded ⟨.opening st, s.source⟩ :=
  (TurnSetting.onCourse_opening (prepare_sound hprepare (h.sound hbuilt))).bounded
    hbuilt.wellFormed rfl

/-- On the tour, the system goes on from the hall, and its second step is the last. -/
theorem turn_bounded_tour :
    let given := setting .tour .system none
    let first : Leg := ⟨.opening (.initial .tour), .mixed 7⟩
    given.Bounded first ∧ (given.leg? first 1).map Leg.state = some 1 ∧
      (given.leg? first 2).isNone = true :=
  ⟨(Reachable.start (.mixed 7)).turn_bounded Flow.tour_built rfl, by decide +kernel,
    by decide +kernel⟩

end Session

end Colloquy
