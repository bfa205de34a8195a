import Colloquy.Generation
import Colloquy.Macro.Builtin
import Colloquy.Session.Basic
import Colloquy.Session.Report

/-!
# Steps

A step of a turn considers every transition that the speaker can take out of the present state, in
the order in which they were added, and in the first step of a system turn the pending answer of an
update rule after them.

A transition is viable when its expression matches or generates, the state it leads to exists (the
bindings may ask for another one), that state's guard succeeds, and its gate is open.  A viable
candidate with the greatest score is taken, ties broken at random.
-/

namespace Colloquy

open Macro (gateKey targetKey)

/-- A viable candidate. -/
structure Candidate where
  target : StateId
  score : Float
  /-- What the system says. -/
  text : String
  vars : Bindings
  /-- The gate to close. -/
  gate : Option GateKey
  fromRule : Bool

/-- A candidate considered, and what it amounts to if it is viable. -/
structure Offer where
  trace : CandidateTrace
  candidate : Option Candidate

/-- What a turn is given. -/
structure TurnSetting where
  flow : Flow
  speaker : Speaker
  utterance : Utterance

namespace TurnSetting

variable (given : TurnSetting)

/-- The names in a list separated by commas, empty ones left out. -/
def splitNames (s : String) : List String :=
  (Text.runs (· != ',') s.toList).map String.ofList

/-- The state that a transition leads to under the bindings its expression left, and the bindings
without the request. -/
def redirect (target : StateId) (vars : Bindings) : Except Verdict (StateId × Bindings) :=
  match vars.get? targetKey with
  | none => .ok (target, vars)
  | some name =>
    match given.flow.lookup (.ofString name) with
    | some target => .ok (target, vars.erase targetKey)
    | none => .error (.unknownTarget name)

/-- The bindings after the guard of the state, if it succeeds. -/
def enter (target : StateId) (vars : Bindings) : Draw (Option Bindings) := do
  match (given.flow.node target).enter with
  | none => return some vars
  | some guard =>
    let generated ← Generation.generate given.flow.macros guard.tree vars
    return generated.map (·.vars)

/-- The gate of an offer: the gated names of the transition and those the bindings ask for. -/
def offerGate (target : StateId) (gate : Option (List String)) (vars : Bindings) :
    Option GateKey × Bindings :=
  let requested := ((vars.get? gateKey).map splitNames).getD []
  let vars := (vars.erase gateKey).erase targetKey
  let names := gate.getD [] ++ requested
  (if names.isEmpty then none else some (.ofNames target names vars), vars)

/-- What a transition leads to whose expression left the bindings. -/
def arrive (gates : GateTable) (t : Transition) (vars : Bindings) :
    Draw (Except Verdict (StateId × Bindings × Option GateKey)) := do
  match given.redirect t.target vars with
  | .error verdict => return .error verdict
  | .ok (target, vars) =>
    match ← given.enter target vars with
    | none => return .error .enterGuard
    | some vars =>
      let (gate, vars) := offerGate target t.gate vars
      if gate.any gates.isClosed then return .error .gated
      else return .ok (target, vars, gate)

/-- The text and the bindings of a transition, if its expression matches or generates. -/
def evaluate (t : Transition) (vars : Bindings) : Draw (Option (String × Bindings)) :=
  match t.speaker with
  | .user =>
    return (Matching.run given.flow.macros given.utterance t.phrase.tree vars
      given.flow.options.backtrackLimit).map fun vars => ("", vars)
  | .system => do
    let generated ← Generation.generate given.flow.macros t.phrase.tree vars
    return generated.map fun g => (g.text, g.vars)

/-- What becomes of a candidate whose expression fails. -/
def miss : Verdict :=
  match given.speaker with
  | .user => .noMatch
  | .system => .unresolved

/-- The offer of a transition. -/
def offer (st : Standing) (t : Transition) : Draw Offer := do
  let trace (target : StateId) (verdict : Verdict) : CandidateTrace :=
    ⟨t.phrase.source, (given.flow.key target).render, t.score, verdict⟩
  match ← given.evaluate t st.vars with
  | none => return ⟨trace t.target given.miss, none⟩
  | some (text, vars) =>
    match ← given.arrive st.gates t vars with
    | .error verdict => return ⟨trace t.target verdict, none⟩
    | .ok (target, vars, gate) =>
      return ⟨trace target .viable, some ⟨target, t.score, text, vars, gate, false⟩⟩

/-- The offer of a pending answer. -/
def answerOffer (st : Standing) (answer : RuleAnswer) : Draw (Option Offer) := do
  match given.flow.rules[answer.rule]? with
  | none => return none
  | some rule =>
    let vars := answer.delta.entries.foldl (fun vars e => vars.insert e.1 e.2) st.vars
    let generated ← match rule.postcondition with
      | some post => Generation.generate given.flow.macros post.tree vars
      | none => pure none
    let trace (verdict : Verdict) : CandidateTrace :=
      ⟨rule.precondition.source, (given.flow.key st.state).render, answer.score, verdict⟩
    match generated with
    | none => return some ⟨trace .unresolved, none⟩
    | some g =>
      let vars := (g.vars.erase gateKey).erase targetKey
      return some ⟨trace .viable, some ⟨st.state, answer.score, g.text, vars, none, true⟩⟩

/-- The offers of several transitions. -/
def offersOf (st : Standing) : List Transition → Draw (List Offer)
  | [] => return []
  | t :: ts => do
    let first ← given.offer st t
    let others ← offersOf st ts
    return first :: others

/-- All offers of a step; `withAnswer` admits the pending answer. -/
def offers (st : Standing) (withAnswer : Bool) : Draw (List Offer) := do
  let found ← given.offersOf st (given.flow.outgoing st.state given.speaker)
  match st.pending with
  | some answer =>
    if withAnswer then return found ++ (← given.answerOffer st answer).toList else return found
  | none => return found

end TurnSetting

/-- The viable candidates among the offers, each with its place. -/
def Offer.viable (offers : List Offer) : List (Candidate × Nat) :=
  offers.zipIdx.filterMap fun (offer, i) => offer.candidate.map fun c => (c, i)

end Colloquy
