import Colloquy.Session.Step

/-!
# Turns

A user turn first runs the update rules.  After that a turn of either side goes on step by step
until the floor passes to the other side:

* a transition passes the floor unless its target is new in this turn, lets the speaker go on, and
  does not switch;
* an update rule's answer keeps the state, and passes the floor if the user can leave the state;
* without a viable candidate, a later step ends the turn.  In the first step a user turn moves to
  the error successor, or stays if a rule is going to answer; a system turn tries once more from the
  fallback state.  Failing that, the turn fails.

Every step but the last enters a state that is new in this turn, with the exception of one answer or
fallback step, so `stateCount + 1` steps are always enough.

A turn that fails leaves the standing of the session as it was; only the random source has moved on.
-/

namespace Colloquy

/-- A turn in progress. -/
structure Progress where
  standing : Standing
  /-- The states this turn has been in. -/
  visited : List StateId
  /-- No hop has been made. -/
  first : Bool := true
  /-- The fallback state has been tried. -/
  retried : Bool := false
  outputs : List String := []
  steps : List StepTrace := []
  candidatesEvaluated : Nat := 0
  candidatesViable : Nat := 0

/-- A turn before its first step. -/
def Progress.opening (st : Standing) : Progress :=
  { standing := st, visited := [st.state] }

/-- What follows a step. -/
inductive Move
  | goOn (p : Progress)
  | stop (p : Progress)
  | fail (e : TurnError)

namespace TurnSetting

variable (given : TurnSetting)

/-- The pending answer is considered in the first step of a system turn only. -/
def admitsAnswer (p : Progress) : Bool :=
  given.speaker == .system && p.first

/-- The turn once a step has considered its offers: an answer that was among them is used up. -/
def afterSurvey (p : Progress) : Progress :=
  if given.admitsAnswer p then { p with standing := { p.standing with pending := none } } else p

/-- Passes the floor. -/
def passFloor (p : Progress) : Move :=
  .stop { p with standing := { p.standing with speaker := given.speaker.other } }

/-- The name of a state. -/
def stateName (id : StateId) : String :=
  (given.flow.key id).render

/-- Notes a step. -/
def note (p : Progress) (offers : List Offer) (kind : StepKind) (chosen : Option Nat)
    (target : StateId) : Progress :=
  let trace : StepTrace :=
    { step := p.steps.length + 1, state := given.stateName p.standing.state, kind,
      candidates := offers.map (·.trace), chosen, target := given.stateName target }
  { p with
    steps := p.steps ++ [trace]
    candidatesEvaluated := p.candidatesEvaluated + offers.length
    candidatesViable := p.candidatesViable + (Offer.viable offers).length }

/-- What follows when no candidate is viable. -/
def withoutCandidate (p : Progress) (offers : List Offer) : Move :=
  let state := p.standing.state
  let moveTo (p : Progress) (state : StateId) : Progress :=
    { p with standing := { p.standing with state } }
  if !p.first then given.passFloor (given.note p offers .finish none state)
  else
    match given.speaker with
    | .user =>
      match (given.flow.node state).errorSuccessor with
      | some successor =>
        given.passFloor (moveTo (given.note p offers .errorSuccessor none successor) successor)
      | none =>
        if p.standing.pending.isSome then given.passFloor (given.note p offers .stay none state)
        else .fail (.noViableTransition (given.stateName state) .user)
    | .system =>
      match given.flow.fallback with
      | some fallback =>
        if p.retried || fallback == state then
          .fail (.noViableTransition (given.stateName state) .system)
        else
          let p := moveTo (given.note p offers .fallback none fallback) fallback
          .goOn { p with retried := true, visited := fallback :: p.visited }
      | none => .fail (.noViableTransition (given.stateName state) .system)

/-- The turn once it has taken a candidate, which stands at the given place among the offers. -/
def commit (p : Progress) (offers : List Offer) (c : Candidate) (place : Nat) : Progress :=
  let target := if c.fromRule then p.standing.state else c.target
  let p := given.note p offers (if c.fromRule then .updateRule else .transition) (some place) target
  let gates := match c.gate with
    | some key => p.standing.gates.record key
    | none => p.standing.gates
  { p with
    standing := { p.standing with vars := c.vars, gates, state := target }
    outputs := if c.text.isEmpty then p.outputs else p.outputs ++ [c.text] }

/-- Takes a candidate: the turn goes on, or the floor passes. -/
def take (p : Progress) (offers : List Offer) (c : Candidate) (place : Nat) : Move :=
  let onward := { given.commit p offers c place with first := false }
  if c.fromRule then
    if (given.flow.outgoing p.standing.state .user).isEmpty then .goOn onward
    else given.passFloor (given.commit p offers c place)
  else
    let settings := (given.flow.node c.target).settings
    if p.visited.contains c.target || !settings.multiHop given.speaker || settings.switch then
      given.passFloor (given.commit p offers c place)
    else .goOn { onward with visited := c.target :: p.visited }

/-- What a step considers, and the candidate it takes together with its place among the offers. -/
def survey (p : Progress) : Draw (List Offer × Option (Candidate × Nat)) := do
  let offers ← given.offers p.standing (given.admitsAnswer p)
  let viable := Offer.viable offers
  let i ← Selection.argmaxRandom (viable.map (·.1.score))
  return (offers, i.bind (viable[·]?))

/-- What follows when the step considered the offers and took the candidate. -/
def settle (p : Progress) (offers : List Offer) (choice : Option (Candidate × Nat)) : Move :=
  match choice with
  | none => given.withoutCandidate (given.afterSurvey p) offers
  | some (c, place) => given.take (given.afterSurvey p) offers c place

/-- One step of a turn. -/
def step (p : Progress) : Draw Move := do
  let (offers, choice) ← given.survey p
  return given.settle p offers choice

/-- Steps until the turn ends; the number bounds the steps. -/
def steps : Nat → Progress → Draw (Except TurnError Progress)
  | 0, p => return .ok p
  | n + 1, p => do
    match ← given.step p with
    | .goOn p => steps n p
    | .stop p => return .ok p
    | .fail e => return .error e

end TurnSetting

namespace Session

/-- The outcome of the update rules for a turn, and the standing that the steps start from. -/
def prepare (flow : Flow) (u : Utterance) (speaker : Speaker) (st : Standing) :
    Except TurnError (Standing × RuleOutcome) :=
  match speaker with
  | .system => .ok (st, { vars := st.vars })
  | .user =>
    match Rules.run ⟨flow.macros, u, flow.options⟩ flow.rules st.vars with
    | .error cause => .error (.rulesDiverge cause)
    | .ok outcome => .ok ({ st with vars := outcome.vars, pending := outcome.answer }, outcome)

/-- The utterance of a turn. -/
def heard (flow : Flow) : Option String → Utterance
  | some text => .scan text flow.options.ngramMax
  | none => .silence

/-- A turn from a standing: its report and the standing it leads to, or why it fails. -/
def turnFrom (flow : Flow) (speaker : Speaker) (utterance : Option String) (st : Standing) :
    Draw (Except TurnError (TurnReport × Standing)) := do
  if st.speaker ≠ speaker then return .error (.wrongSpeaker speaker st.speaker)
  let u := heard flow utterance
  match prepare flow u speaker st with
  | .error e => return .error e
  | .ok (st', outcome) =>
    let given : TurnSetting := ⟨flow, speaker, u⟩
    match ← given.steps (flow.stateCount + 1) (.opening st') with
    | .error e => return .error e
    | .ok p =>
      let report : TurnReport :=
        { speaker, utterance
          output := String.intercalate flow.options.outputSeparator p.outputs
          startState := given.stateName st.state
          endState := given.stateName p.standing.state
          rulesFired := outcome.fired
          steps := p.steps
          metrics :=
            { ruleEvaluations := outcome.evaluations, steps := p.steps.length
              candidatesEvaluated := p.candidatesEvaluated
              candidatesViable := p.candidatesViable } }
      return .ok (report, p.standing)

/-- Takes a turn. -/
def turn (flow : Flow) (speaker : Speaker) (utterance : Option String) (s : Session) :
    Except TurnError TurnReport × Session :=
  match turnFrom flow speaker utterance s.standing s.source with
  | (.ok (report, standing), source) => (.ok report, ⟨standing, source⟩)
  | (.error e, source) => (.error e, { s with source })

/-- The system speaks until it yields the floor. -/
def systemTurn (flow : Flow) (s : Session) : Except TurnError TurnReport × Session :=
  s.turn flow .system none

/-- The user says something. -/
def userTurn (flow : Flow) (text : String) (s : Session) : Except TurnError TurnReport × Session :=
  s.turn flow .user (some text)

end Session

end Colloquy
