import Colloquy.Flow.Builder

/-!
# Scripts

A `Script` describes a whole flow as data.  `Script.apply` plays it into a builder: options;
declared states in the order of their names; transitions; guards and error successors; update rules;
and last who starts, where, and the fallback.  The conversation starts in the source of the first
transition unless the script says otherwise.
-/

namespace Colloquy

/-- A declared state. -/
structure StateSpec where
  settings : StateSettings := {}
  enter : Option String := none
  errorSuccessor : Option String := none

/-- A transition. -/
structure TransitionSpec where
  source : String
  target : String
  speaker : Speaker
  expression : String
  score : Float := 1.0
  gate : Option (List String) := none

/-- An update rule. -/
structure RuleSpec where
  precondition : String
  postcondition : Option String := none
  repeating : Bool := false
  score : Float := 1.0

/-- A flow as data. -/
structure Script where
  options : Options := {}
  initial : Option String := none
  initialSpeaker : Option Speaker := none
  fallback : Option String := none
  states : SortedMap String StateSpec := .empty
  transitions : List TransitionSpec := []
  rules : List RuleSpec := []

namespace Script

open Builder

/-- Adds a declared state. -/
def declare (name : String) (spec : StateSpec) : Build Unit := do
  let _ ← addState (.ofString name) spec.settings

/-- Sets the guard and the error successor of a declared state. -/
def complete (name : String) (spec : StateSpec) : Build Unit := do
  match spec.enter with
  | some guard => setEnterGuard (.ofString name) guard
  | none => pure ()
  match spec.errorSuccessor with
  | some successor => setErrorSuccessor (.ofString name) (.ofString successor)
  | none => pure ()

/-- Adds a transition. -/
def connect (t : TransitionSpec) : Build Unit :=
  addTransition (.ofString t.source) (.ofString t.target) t.speaker t.expression t.score t.gate

/-- Adds an update rule. -/
def addRule (r : RuleSpec) : Build Unit :=
  addUpdateRule r.precondition r.postcondition r.repeating r.score

/-- The state in which the script starts, if it says so. -/
def start? (s : Script) : Option String :=
  s.initial <|> s.transitions.head?.map (·.source)

/-- Plays the script into a builder. -/
def apply (s : Script) : Build Unit := do
  setOptions s.options
  s.states.entries.forM fun (name, spec) => declare name spec
  s.transitions.forM connect
  s.states.entries.forM fun (name, spec) => complete name spec
  s.rules.forM addRule
  match s.start? with
  | some name => setInitial (.ofString name)
  | none => pure ()
  match s.initialSpeaker with
  | some speaker => setInitialSpeaker speaker
  | none => pure ()
  match s.fallback with
  | some name => setFallback (.ofString name)
  | none => pure ()

/-- The flow that the script describes, on top of a builder. -/
def build (s : Script) (b : Builder) : Except BuildError Flow :=
  match s.apply b with
  | (.ok (), b) => b.build
  | (.error e, _) => .error e

end Script

end Colloquy
