import Mathlib.Data.List.Basic
import Colloquy.Proofs.Session.Survey

/-!
# What a step does

`TurnSetting.Settles` lists, with their conditions, the ten ways in which a step can go on, pass the
floor or fail, and `settle_settles` says that there are no others.  What is said about a step
elsewhere is read off these cases.
-/

namespace Colloquy.TurnSetting

variable (given : TurnSetting)

/-! ### Notes and commitments -/

section

variable (p : Progress) (offers : List Offer) (kind : StepKind) (chosen : Option Nat)
  (target : StateId) (c : Candidate) (place : Nat)

/-- The trace of a step. -/
def traceOf : StepTrace :=
  { step := p.steps.length + 1, state := given.stateName p.standing.state, kind,
    candidates := offers.map (·.trace), chosen, target := given.stateName target }

@[simp] theorem note_steps : (given.note p offers kind chosen target).steps =
    p.steps ++ [given.traceOf p offers kind chosen target] := rfl

/-- Considering its offers changes a turn in its pending answer only. -/
theorem afterSurvey_eq : given.afterSurvey p = { p with
    standing := { p.standing with
      pending := if given.admitsAnswer p then none else p.standing.pending } } := by
  unfold afterSurvey
  split <;> rfl

@[simp] theorem commit_visited : (given.commit p offers c place).visited = p.visited := rfl

@[simp] theorem commit_steps : (given.commit p offers c place).steps =
    p.steps ++ [given.traceOf p offers (if c.fromRule then .updateRule else .transition)
      (some place) (if c.fromRule then p.standing.state else c.target)] := rfl

/-- The gates after a candidate has been taken. -/
def gatesAfter (gates : GateTable) (c : Candidate) : GateTable :=
  match c.gate with
  | some key => gates.record key
  | none => gates

@[simp] theorem commit_standing : (given.commit p offers c place).standing =
    { p.standing with
      vars := c.vars
      gates := gatesAfter p.standing.gates c
      state := if c.fromRule then p.standing.state else c.target } := rfl

@[simp] theorem commit_outputs : (given.commit p offers c place).outputs =
    if c.text.isEmpty then p.outputs else p.outputs ++ [c.text] := rfl

end

/-! ### The cases of a step -/

/-- What can follow when the turn, having considered the offers, takes the given candidate or
none. -/
inductive Settles (p : Progress) (offers : List Offer) :
    Option (Candidate × Nat) → Move → Prop
  /-- An answer where the user can go on. -/
  | answer {c : Candidate} {place : Nat} (isAnswer : c.fromRule = true)
      (leaves : given.flow.outgoing p.standing.state .user ≠ []) :
      Settles p offers (some (c, place)) (given.passFloor (given.commit p offers c place))
  /-- An answer in a state that the user cannot leave. -/
  | answerOnward {c : Candidate} {place : Nat} (isAnswer : c.fromRule = true)
      (stuck : given.flow.outgoing p.standing.state .user = []) :
      Settles p offers (some (c, place))
        (.goOn { given.commit p offers c place with first := false })
  /-- A transition that ends the turn. -/
  | arrival {c : Candidate} {place : Nat} (isTransition : c.fromRule = false)
      (ends : c.target ∈ p.visited ∨
        (given.flow.node c.target).settings.multiHop given.speaker = false ∨
        (given.flow.node c.target).settings.switch = true) :
      Settles p offers (some (c, place)) (given.passFloor (given.commit p offers c place))
  /-- A transition after which the speaker goes on. -/
  | hop {c : Candidate} {place : Nat} (isTransition : c.fromRule = false)
      (isNew : c.target ∉ p.visited)
      (goesOn : (given.flow.node c.target).settings.multiHop given.speaker = true)
      (keeps : (given.flow.node c.target).settings.switch = false) :
      Settles p offers (some (c, place)) (.goOn { given.commit p offers c place with
        first := false, visited := c.target :: p.visited })
  /-- Nothing viable on a later hop. -/
  | finish (later : p.first = false) :
      Settles p offers none
        (given.passFloor (given.note p offers .finish none p.standing.state))
  /-- Nothing viable for the user in a state with an error successor. -/
  | errorSuccessor {successor : StateId} (first : p.first = true) (user : given.speaker = .user)
      (some_successor : (given.flow.node p.standing.state).errorSuccessor = some successor) :
      Settles p offers none (given.passFloor
        { given.note p offers .errorSuccessor none successor with
          standing := { p.standing with state := successor } })
  /-- Nothing viable for the user, but an answer is pending. -/
  | stay (first : p.first = true) (user : given.speaker = .user)
      (no_successor : (given.flow.node p.standing.state).errorSuccessor = none)
      (pending : p.standing.pending.isSome = true) :
      Settles p offers none (given.passFloor (given.note p offers .stay none p.standing.state))
  /-- Nothing viable for the system, which tries again from the fallback state. -/
  | fallback {fallback : StateId} (first : p.first = true) (system : given.speaker = .system)
      (some_fallback : given.flow.fallback = some fallback) (once : p.retried = false)
      (elsewhere : fallback ≠ p.standing.state) :
      Settles p offers none (.goOn { given.note p offers .fallback none fallback with
        standing := { p.standing with state := fallback }
        retried := true
        visited := fallback :: p.visited })
  /-- Nothing viable for the user, and no way out. -/
  | stuckUser (first : p.first = true) (user : given.speaker = .user)
      (no_successor : (given.flow.node p.standing.state).errorSuccessor = none)
      (no_answer : p.standing.pending = none) :
      Settles p offers none
        (.fail (.noViableTransition (given.stateName p.standing.state) .user))
  /-- Nothing viable for the system, and no way out. -/
  | stuckSystem (first : p.first = true) (system : given.speaker = .system)
      (hopeless : ∀ fallback ∈ given.flow.fallback,
        p.retried = true ∨ fallback = p.standing.state) :
      Settles p offers none
        (.fail (.noViableTransition (given.stateName p.standing.state) .system))

theorem take_settles (p : Progress) (offers : List Offer) (c : Candidate) (place : Nat) :
    given.Settles p offers (some (c, place)) (given.take p offers c place) := by
  unfold take
  dsimp only
  cases hrule : c.fromRule with
  -- An answer to an update rule ends the turn, unless the user could not reply in this state.
  | true =>
    rw [if_pos rfl]
    by_cases hleave : given.flow.outgoing p.standing.state .user = []
    · rw [if_pos (List.isEmpty_iff.mpr hleave)]
      exact .answerOnward hrule hleave
    · rw [if_neg (by rwa [List.isEmpty_iff])]
      exact .answer hrule hleave
  | false =>
    rw [if_neg Bool.false_ne_true]
    split_ifs with hends
    · refine .arrival hrule ?_
      simpa [or_assoc] using hends
    · simp only [Bool.or_eq_true, List.contains_iff_mem, Bool.not_eq_true', not_or,
        Bool.not_eq_false, Bool.not_eq_true] at hends
      exact .hop hrule hends.1.1 hends.1.2 hends.2

theorem withoutCandidate_settles (p : Progress) (offers : List Offer) :
    given.Settles p offers none (given.withoutCandidate p offers) := by
  unfold withoutCandidate
  dsimp only
  cases hfirst : p.first with
  -- Something has been said in this turn already, so running out of transitions ends it.
  | false => exact .finish hfirst
  | true =>
    simp only [Bool.not_true, Bool.false_eq_true, if_false]
    cases hspeaker : given.speaker with
    | user =>
      dsimp only
      cases hsucc : (given.flow.node p.standing.state).errorSuccessor with
      | some successor => exact .errorSuccessor hfirst hspeaker hsucc
      | none =>
        dsimp only
        split_ifs with hpending
        · exact .stay hfirst hspeaker hsucc hpending
        · exact .stuckUser hfirst hspeaker hsucc (by simpa using hpending)
    | system =>
      dsimp only
      cases hfall : given.flow.fallback with
      | none => exact .stuckSystem hfirst hspeaker (by simp [hfall])
      | some fallback =>
        dsimp only
        -- The fallback helps once, and only from elsewhere.
        split_ifs with hhopeless
        · refine .stuckSystem hfirst hspeaker fun id hid => ?_
          obtain rfl : fallback = id := Option.some.inj (hfall.symm.trans hid)
          simpa using hhopeless
        · simp only [Bool.or_eq_true, beq_iff_eq, not_or, Bool.not_eq_true] at hhopeless
          exact .fallback hfirst hspeaker hfall hhopeless.1 hhopeless.2

theorem settle_settles (p : Progress) (offers : List Offer) (choice : Option (Candidate × Nat)) :
    given.Settles (given.afterSurvey p) offers choice (given.settle p offers choice) := by
  cases choice with
  | none => exact given.withoutCandidate_settles _ _
  | some chosen => exact given.take_settles _ _ _ _

/-- A step settles its offers after a pending answer among them has been used up. -/
theorem step_settles (p : Progress) (src : Source) :
    given.Settles
      { p with standing := { p.standing with
          pending := if given.admitsAnswer p then none else p.standing.pending } }
      (given.survey p src).1.1 (given.survey p src).1.2 (given.step p src).1 := by
  rw [← afterSurvey_eq]
  exact given.settle_settles p (given.survey p src).1.1 (given.survey p src).1.2

/-! ### Steps in a row -/

/-- The steps of a turn are its first step and, if the turn goes on, the others. -/
theorem steps_succ (n : Nat) (p : Progress) (src : Source) :
    given.steps (n + 1) p src =
      match given.step p src with
      | (.goOn q, src') => given.steps n q src'
      | (.stop q, src') => (.ok q, src')
      | (.fail e, src') => (.error e, src') := by
  rw [steps, Draw.bind_apply]
  rcases given.step p src with ⟨q | q | e, src'⟩ <;> rfl

end Colloquy.TurnSetting
