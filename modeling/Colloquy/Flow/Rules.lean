import Colloquy.Flow.Basic
import Colloquy.Matching.Pattern

/-!
# Update rules

Update rules run at the start of every user turn.  They are tried by descending score, rules of
equal score in the order in which they were added.  The first rule whose precondition matches the
utterance under the present bindings fires; after that the remaining rules are tried again from the
top.  No rule fires twice in a run.

A rule without postcondition replaces the bindings by what its match left; if it is repeating, it is
applied again as long as that changes the bindings.  A rule with a postcondition ends the run; it
waits to answer in the next system turn, with the bindings that its match added or changed.

Firings and repetitions count as applications, and a run that would make more of them than the
options allow is an error.
-/

namespace Colloquy

/-- The run of the rules did not come to an end within the allowed applications. -/
structure NonConvergence where
  iterations : Nat
  lastRule : String
  deriving DecidableEq, Repr

/-- A rule with a postcondition that fired and is yet to answer. -/
structure RuleAnswer where
  /-- The place of the rule among the rules of the flow. -/
  rule : Nat
  score : Float
  /-- The bindings that the precondition added or changed. -/
  delta : Bindings

/-- What a run of the rules leaves. -/
structure RuleOutcome where
  vars : Bindings
  answer : Option RuleAnswer := none
  /-- The rules that fired, in order. -/
  fired : List String := []
  evaluations : Nat := 0
  applications : Nat := 0

namespace Rules

/-! ### Order -/

/-- The place of a double in the total order: negative before positive, with `-0.0` below `0.0`. -/
def rank (score : Float) : Nat :=
  let bits := score.toBits.toNat
  if bits < 1 <<< 63 then (1 <<< 63) + bits else UInt64.size - 1 - bits

/-- The rules with their places, in the order in which they are tried. -/
def ordered (rules : List Rule) : List (Nat × Rule) :=
  (rules.zipIdx.map fun (rule, i) => (i, rule)).mergeSort
    fun a b => rank b.2.score ≤ rank a.2.score

/-! ### Running -/

/-- What a run of the rules is given. -/
structure Setting where
  macros : Macro.Registry
  utterance : Utterance
  options : Options

/-- The bindings after the rule's precondition matched. -/
def Setting.applies (given : Setting) (rule : Rule) (vars : Bindings) : Option Bindings :=
  Matching.run given.macros given.utterance rule.precondition.tree vars given.options.backtrackLimit

/-- The bindings of `after` that differ from those of `before`. -/
def delta (before after : Bindings) : Bindings :=
  SortedMap.ofList (after.entries.filter fun (name, value) => before.get? name != some value)

/-- A rule that fired. -/
structure Firing where
  place : Nat
  rule : Rule
  /-- The bindings its match left. -/
  vars : Bindings
  /-- The rules that have not fired. -/
  remaining : List (Nat × Rule)

/-- The first of the rules that fires, and how many were tried. -/
def scan (given : Setting) (vars : Bindings) : List (Nat × Rule) → Option Firing × Nat
  | [] => (none, 0)
  | (place, rule) :: rest =>
    match given.applies rule vars with
    | some updated => (some ⟨place, rule, updated, rest⟩, 1)
    | none =>
      let (found, tried) := scan given vars rest
      (found.map fun f => { f with remaining := (place, rule) :: f.remaining }, tried + 1)

/-- The bindings after the rule is applied, if that changes them. -/
def Setting.changes (given : Setting) (rule : Rule) (vars : Bindings) : Option Bindings :=
  (given.applies rule vars).filter (· ≠ vars)

/-- Applies a repeating rule until it no longer changes the bindings; the number bounds the
applications. -/
def reapply (given : Setting) (rule : Rule) : Nat → RuleOutcome → Except NonConvergence RuleOutcome
  | 0, outcome =>
    match given.changes rule outcome.vars with
    | none => .ok { outcome with evaluations := outcome.evaluations + 1 }
    | some _ => .error ⟨outcome.applications, rule.precondition.source⟩
  | left + 1, outcome =>
    match given.changes rule outcome.vars with
    | none => .ok { outcome with evaluations := outcome.evaluations + 1 }
    | some vars =>
      reapply given rule left { outcome with
        vars
        evaluations := outcome.evaluations + 1
        applications := outcome.applications + 1 }

/-- Runs the rules that have not fired; `count` bounds their number. -/
def runFrom (given : Setting) : Nat → List (Nat × Rule) → RuleOutcome →
    Except NonConvergence RuleOutcome
  | 0, _, outcome => .ok outcome
  | count + 1, untapped, outcome =>
    let (firing, tried) := scan given outcome.vars untapped
    let outcome := { outcome with evaluations := outcome.evaluations + tried }
    match firing with
    | none => .ok outcome
    | some ⟨place, rule, vars, remaining⟩ =>
      let limit := given.options.maxRuleIterations
      if limit ≤ outcome.applications then
        .error ⟨outcome.applications, rule.precondition.source⟩
      else
        let outcome := { outcome with
          applications := outcome.applications + 1
          fired := outcome.fired ++ [rule.precondition.source] }
        if rule.postcondition.isSome then
          .ok { outcome with answer := some ⟨place, rule.score, delta outcome.vars vars⟩ }
        else do
          let outcome := { outcome with vars }
          let outcome ←
            if rule.repeating then reapply given rule (limit - outcome.applications) outcome
            else .ok outcome
          runFrom given count remaining outcome

/-- Runs the rules from the given bindings. -/
def run (given : Setting) (rules : List Rule) (vars : Bindings) :
    Except NonConvergence RuleOutcome :=
  runFrom given (rules.length + 1) (ordered rules) { vars }

end Rules

end Colloquy
