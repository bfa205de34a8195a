import Colloquy.Expr.Phrase
import Colloquy.Flow.StateKey
import Colloquy.Macro.Basic
import Colloquy.Options
import Colloquy.Speaker

/-!
# Flows

A `Flow` is everything about a conversation that does not change while it runs: states, transitions
between them, update rules, macros, options, and where and with whom it starts.  A state is known by
its number, which is its place in the list of states.
-/

namespace Colloquy

/-- The number of a state. -/
abbrev StateId := Nat

/-- How a state behaves. -/
structure StateSettings where
  /-- The user may go on from here within a turn. -/
  userMultiHop : Bool := false
  /-- The system may go on from here within a turn. -/
  systemMultiHop : Bool := false
  /-- Arriving here always ends the turn. -/
  switch : Bool := false
  deriving DecidableEq, Repr, Inhabited

/-- The speaker may go on from here within a turn. -/
def StateSettings.multiHop (settings : StateSettings) : Speaker → Bool
  | .system => settings.systemMultiHop
  | .user => settings.userMultiHop

/-- A state. -/
structure StateNode where
  key : StateKey
  settings : StateSettings := {}
  /-- What has to succeed for a transition to lead here. -/
  enter : Option Phrase := none
  /-- Where the conversation goes when nothing the user said matches here. -/
  errorSuccessor : Option StateId := none
  deriving Inhabited

/-- A transition that one of the speakers can take. -/
structure Transition where
  source : StateId
  target : StateId
  speaker : Speaker
  phrase : Phrase
  score : Float := 1.0
  /-- The variables whose values close the transition once it has been taken. -/
  gate : Option (List String) := none

/-- An update rule.  With a postcondition it answers in the next system turn, without one it only
changes the bindings. -/
structure Rule where
  precondition : Phrase
  postcondition : Option Phrase
  repeating : Bool
  score : Float

/-- What a conversation runs on. -/
structure Flow where
  states : List StateNode
  transitions : List Transition
  rules : List Rule
  macros : Macro.Registry
  cache : ParseCache
  options : Options
  initial : StateId
  initialSpeaker : Speaker
  fallback : Option StateId

/-- The number of the state with the key among the states. -/
def StateNode.find? (states : List StateNode) (key : StateKey) : Option StateId :=
  states.findIdx? (·.key == key)

namespace Flow

/-- The number of states. -/
def stateCount (flow : Flow) : Nat :=
  flow.states.length

/-- The state with a number. -/
def node (flow : Flow) (id : StateId) : StateNode :=
  flow.states.getD id default

/-- The key of the state with a number. -/
def key (flow : Flow) (id : StateId) : StateKey :=
  (flow.node id).key

/-- The number of the state with a key. -/
def lookup (flow : Flow) (key : StateKey) : Option StateId :=
  StateNode.find? flow.states key

/-- The transitions that a speaker can take out of a state, in the order in which they were
added. -/
def outgoing (flow : Flow) (state : StateId) (speaker : Speaker) : List Transition :=
  flow.transitions.filter fun t => t.source == state && t.speaker == speaker

end Flow

end Colloquy
