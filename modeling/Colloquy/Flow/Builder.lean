import Colloquy.Flow.Basic
import Colloquy.Macro.Builtin

/-!
# Building flows

A `Builder` collects states, transitions and rules; `Builder.build` turns it into a flow.  States
come into being when they are first mentioned; adding a state by name is only needed for settings of
its own.  The builder keeps a `Register` of them: a new state draws its number there and is entered
under its key, and by their keys states are looked up there.

Every expression is read while building, so a malformed one is an error here and never later.  A
step that ends in an error leaves everything as it was, except that sources which were read on the
way stay in the parse cache.
-/

namespace Colloquy

/-- Why a flow cannot be built. -/
inductive BuildError
  | syntaxError (e : SyntaxError)
  | unknownState (name : String)
  | duplicateState (name : String)
  /-- The score of the transition between the two named states is not finite. -/
  | invalidScore (source target : String) (score : Float)
  | missingInitialState

/-- The text of a double that is not finite. -/
def describeNonFinite (score : Float) : String :=
  if score.isNaN then "NaN" else if score > 0.0 then "inf" else "-inf"

namespace BuildError

/-- The error in words. -/
def message : BuildError → String
  | syntaxError e => e.message
  | unknownState name => "unknown state \x60" ++ name ++ "\x60"
  | duplicateState name => "state \x60" ++ name ++ "\x60 is already defined"
  | invalidScore source target score =>
    "transition " ++ source ++ " -> " ++ target ++ " has non-finite score " ++
      describeNonFinite score
  | missingInitialState => "flow has no initial state"

end BuildError

/-- The number for the next state, and the numbers of the states by their keys. -/
structure Register where
  next : StateId := 0
  index : StateKey → Option StateId := fun _ => none

/-- A new state draws the next number, which is entered under its key. -/
def Register.enter (r : Register) (key : StateKey) : Register where
  next := r.next + 1
  index other := if other = key then some r.next else r.index other

/-- A flow in the making. -/
structure Builder where
  register : Register := {}
  states : List StateNode := []
  transitions : List Transition := []
  rules : List Rule := []
  macros : Macro.Registry := Macro.Registry.builtin
  cache : ParseCache := .empty
  options : Options := {}
  initial : Option StateId := none
  initialSpeaker : Speaker := .system
  fallback : Option StateId := none

/-- A building step. -/
abbrev Build := ExceptT BuildError (StateM Builder)

namespace Builder

/-! ### States -/

/-- Adds a state. -/
def insertState (key : StateKey) (settings : StateSettings) : Build StateId := do
  let b ← get
  set { b with
    register := b.register.enter key
    states := b.states ++ [({ key, settings } : StateNode)] }
  return b.register.next

/-- Adds a state that must not exist yet. -/
def addState (key : StateKey) (settings : StateSettings) : Build StateId := do
  match (← get).register.index key with
  | some _ => throw (.duplicateState key.render)
  | none => insertState key settings

/-- The state with a key, added with default settings if it does not exist. -/
def state (key : StateKey) : Build StateId := do
  match (← get).register.index key with
  | some id => return id
  | none => insertState key {}

/-- The key of the `n`-th nameless state. -/
def autoKey (n : Nat) : StateKey :=
  .namespaced "_auto" (toString n)

/-- Adds a state with a key of its own: the first free one from the number for the next state on. -/
def anonymousState (settings : StateSettings) : Build StateId := do
  let r := (← get).register
  -- Of one more keys than numbers have been drawn, one is free.
  let free := (List.range' r.next (r.next + 1)).find? fun k => (r.index (autoKey k)).isNone
  insertState (autoKey (free.getD r.next)) settings

/-- The state with a key, which must exist. -/
def existing (key : StateKey) : Build StateId := do
  match (← get).register.index key with
  | some id => return id
  | none => throw (.unknownState key.render)

/-- Changes a state. -/
def modifyState (id : StateId) (f : StateNode → StateNode) : Build Unit :=
  modify fun b => { b with states := b.states.modify id f }

/-- Replaces the settings of a state. -/
def setStateSettings (key : StateKey) (settings : StateSettings) : Build Unit := do
  let id ← existing key
  modifyState id fun node => { node with settings }

/-! ### Expressions -/

/-- Reads an expression through the cache. -/
def phrase (grammar : Grammar) (source : String) : Build Phrase := do
  let b ← get
  let (result, cache) := ParseCache.phrase grammar source b.cache
  set { b with cache }
  match result with
  | .ok phrase => return phrase
  | .error e => throw (.syntaxError e)

/-- Adds a transition. -/
def addTransition (source target : StateKey) (speaker : Speaker) (expression : String)
    (score : Float) (gate : Option (List String)) : Build Unit := do
  if !score.isFinite then throw (.invalidScore source.render target.render score)
  let phrase ← phrase speaker.grammar expression
  let source ← state source
  let target ← state target
  modify fun b => { b with
    transitions := b.transitions ++ [⟨source, target, speaker, phrase, score, gate⟩] }

/-- Sets where the conversation goes when nothing the user said matches in a state. -/
def setErrorSuccessor (key successor : StateKey) : Build Unit := do
  let id ← existing key
  let successor ← state successor
  modifyState id fun node => { node with errorSuccessor := some successor }

/-- Sets what has to succeed for a transition to lead to a state. -/
def setEnterGuard (key : StateKey) (expression : String) : Build Unit := do
  let id ← existing key
  let guard ← phrase .generation expression
  modifyState id fun node => { node with enter := some guard }

/-- Adds an update rule. -/
def addUpdateRule (precondition : String) (postcondition : Option String) (repeating : Bool)
    (score : Float) : Build Unit := do
  if !score.isFinite then throw (.invalidScore "<update rule>" precondition score)
  let precondition ← phrase .matching precondition
  let postcondition ← match postcondition with
    | some source => some <$> phrase .generation source
    | none => pure none
  modify fun b => { b with rules := b.rules ++ [⟨precondition, postcondition, repeating, score⟩] }

/-! ### Start -/

/-- Sets the state in which the conversation starts. -/
def setInitial (key : StateKey) : Build Unit := do
  let id ← existing key
  modify fun b => { b with initial := some id }

/-- Sets who starts. -/
def setInitialSpeaker (speaker : Speaker) : Build Unit :=
  modify fun b => { b with initialSpeaker := speaker }

/-- Sets the state from which the system tries again when it has nothing to say. -/
def setFallback (key : StateKey) : Build Unit := do
  let id ← existing key
  modify fun b => { b with fallback := some id }

/-- Replaces the options. -/
def setOptions (options : Options) : Build Unit :=
  modify fun b => { b with options }

/-- The flow built so far.  It starts in its first state unless another one was set. -/
def build (b : Builder) : Except BuildError Flow :=
  let flow (initial : StateId) : Flow :=
    { states := b.states, transitions := b.transitions, rules := b.rules, macros := b.macros,
      cache := b.cache, options := b.options, initial, initialSpeaker := b.initialSpeaker,
      fallback := b.fallback }
  match b.initial with
  | some id => .ok (flow id)
  | none => if b.states.isEmpty then .error .missingInitialState else .ok (flow 0)

end Builder

end Colloquy
