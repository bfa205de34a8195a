import Colloquy.Flow.Gate
import Colloquy.Flow.Rules
import Colloquy.Random.Source

/-!
# Sessions

A `Session` is one conversation over a flow.  Its `Standing` is the part that turns change and that
a failed turn leaves alone: the state, who holds the floor, the bindings, the gates and the answer
that an update rule is yet to give.  Its random source only ever moves on.
-/

namespace Colloquy

/-- Where a conversation stands. -/
structure Standing where
  state : StateId
  /-- Who holds the floor. -/
  speaker : Speaker
  vars : Bindings := .empty
  gates : GateTable := .empty
  /-- The rule that answers in the next system turn. -/
  pending : Option RuleAnswer := none

/-- A conversation. -/
structure Session where
  standing : Standing
  source : Source

/-- Why a turn fails. -/
inductive TurnError
  | wrongSpeaker (expected actual : Speaker)
  | noViableTransition (state : String) (speaker : Speaker)
  | rulesDiverge (cause : NonConvergence)
  deriving DecidableEq, Repr

namespace TurnError

/-- The error in words. -/
def message : TurnError → String
  | wrongSpeaker expected actual =>
    "expected a " ++ expected.describe ++ " turn but the " ++ actual.describe ++ " holds the floor"
  | noViableTransition state speaker =>
    "no viable " ++ speaker.describe ++ " transition out of state \x60" ++ state ++ "\x60"
  | rulesDiverge cause =>
    "update rules did not converge after " ++ toString cause.iterations ++
      " rule applications (last rule: \x60" ++ cause.lastRule ++ "\x60)"

end TurnError

namespace Standing

/-- Where every conversation over the flow starts. -/
def initial (flow : Flow) : Standing :=
  { state := flow.initial, speaker := flow.initialSpeaker }

end Standing

namespace Session

/-- A fresh conversation. -/
def start (flow : Flow) (source : Source) : Session :=
  ⟨.initial flow, source⟩

/-- Back to the start, with nothing bound and every gate open. -/
def reset (flow : Flow) (s : Session) : Session :=
  { s with standing := .initial flow }

end Session

end Colloquy
