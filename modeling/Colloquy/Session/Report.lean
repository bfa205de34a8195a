import Colloquy.Speaker

/-!
# Turn reports

What a turn did, step by step: which candidates were considered, what became of each, and which one
was taken.
-/

namespace Colloquy

/-- What became of a candidate. -/
inductive Verdict
  | viable
  /-- The utterance does not match. -/
  | noMatch
  /-- No text could be generated. -/
  | unresolved
  /-- What the target asks for on entering failed. -/
  | enterGuard
  /-- The gate is closed. -/
  | gated
  /-- The state to go to instead does not exist. -/
  | unknownTarget (name : String)
  deriving DecidableEq, Repr

/-- A candidate considered in a step. -/
structure CandidateTrace where
  /-- The source of the expression; for a rule, of its precondition. -/
  source : String
  target : String
  score : Float
  verdict : Verdict

/-- What a step did. -/
inductive StepKind
  /-- Took a transition. -/
  | transition
  /-- Gave the answer of an update rule. -/
  | updateRule
  /-- Moved to the error successor: nothing the user said matched. -/
  | errorSuccessor
  /-- Stayed: nothing the user said matched, but a rule is going to answer. -/
  | stay
  /-- Moved to the fallback state: the system had nothing to say. -/
  | fallback
  /-- Ended the turn on a later hop: there was no way on. -/
  | finish
  deriving DecidableEq, Repr

/-- A step. -/
structure StepTrace where
  step : Nat
  state : String
  kind : StepKind
  candidates : List CandidateTrace
  /-- The place of the candidate taken. -/
  chosen : Option Nat
  /-- The state after the step. -/
  target : String

/-- What a turn cost. -/
structure TurnMetrics where
  ruleEvaluations : Nat := 0
  steps : Nat := 0
  candidatesEvaluated : Nat := 0
  candidatesViable : Nat := 0
  deriving DecidableEq, Repr, Inhabited

/-- What a turn did. -/
structure TurnReport where
  speaker : Speaker
  /-- What the user said. -/
  utterance : Option String
  /-- What the system said. -/
  output : String
  startState : String
  endState : String
  /-- The rules that fired, in order. -/
  rulesFired : List String
  steps : List StepTrace
  metrics : TurnMetrics

end Colloquy
