import Colloquy.Json.Reader
import Colloquy.Json.Record
import Colloquy.Script.Basic

/-!
# Reading scripts

Scripts and options are JSON documents.  A state shares its object with its settings, and so does a
transition, which makes both open records.
-/

namespace Colloquy

open Json (text? bool? nat? float? list? choice?)
open Json.Record

/-- The speaker of a name. -/
def Speaker.ofName? : String → Option Speaker
  | "system" => some .system
  | "user" => some .user
  | _ => none

/-- Reads options. -/
def Options.ofJson? (json : Json) : Option Options := do
  let r ← Json.record?
    ["max_rule_iterations", "backtrack_limit", "ngram_max", "output_separator", "seed"] json
  let standard : Options := {}
  return {
    maxRuleIterations := ←
      withDefault r "max_rule_iterations" standard.maxRuleIterations (nat? UInt64.size)
    backtrackLimit := ← withDefault r "backtrack_limit" standard.backtrackLimit (nat? UInt64.size)
    ngramMax := ← withDefault r "ngram_max" standard.ngramMax (nat? UInt64.size)
    outputSeparator := ← withDefault r "output_separator" standard.outputSeparator text?
    seed := ← optional r "seed" (nat? UInt64.size) }

/-- Reads a declared state. -/
def StateSpec.ofJson? (json : Json) : Option StateSpec := do
  let r ← Json.openRecord?
    ["enter", "error_successor", "user_multi_hop", "system_multi_hop", "switch"] json
  let settings : StateSettings := {
    userMultiHop := ← withDefault r "user_multi_hop" false bool?
    systemMultiHop := ← withDefault r "system_multi_hop" false bool?
    switch := ← withDefault r "switch" false bool? }
  return {
    settings
    enter := ← optional r "enter" text?
    errorSuccessor := ← optional r "error_successor" text? }

/-- Reads a transition. -/
def TransitionSpec.ofJson? (json : Json) : Option TransitionSpec := do
  let r ← Json.openRecord? ["source", "target", "speaker", "expr", "score", "gate"] json
  return {
    source := ← required r "source" text?
    target := ← required r "target" text?
    speaker := ← required r "speaker" (choice? Speaker.ofName?)
    expression := ← required r "expr" text?
    score := ← withDefault r "score" 1.0 float?
    gate := ← optional r "gate" (list? text?) }

/-- Reads an update rule. -/
def RuleSpec.ofJson? (json : Json) : Option RuleSpec := do
  let r ← Json.record? ["precondition", "postcondition", "repeating", "score"] json
  return {
    precondition := ← required r "precondition" text?
    postcondition := ← optional r "postcondition" text?
    repeating := ← withDefault r "repeating" false bool?
    score := ← withDefault r "score" 1.0 float? }

/-- Reads a script. -/
def Script.ofJson? (json : Json) : Option Script := do
  let r ← Json.record?
    ["options", "initial", "initial_speaker", "fallback", "states", "transitions", "rules"] json
  return {
    options := ← withDefault r "options" {} Options.ofJson?
    initial := ← optional r "initial" text?
    initialSpeaker := ← optional r "initial_speaker" (choice? Speaker.ofName?)
    fallback := ← optional r "fallback" text?
    states := ← withDefault r "states" .empty fun json =>
      (Json.members StateSpec.ofJson? json).map SortedMap.ofList
    transitions := ← withDefault r "transitions" [] (list? TransitionSpec.ofJson?)
    rules := ← withDefault r "rules" [] (list? RuleSpec.ofJson?) }

/-- The script that a document describes. -/
def Script.parse? (source : String) : Option Script :=
  (Json.parse? source).bind Script.ofJson?

/-- The options that a document describes. -/
def Options.parse? (source : String) : Option Options :=
  (Json.parse? source).bind Options.ofJson?

end Colloquy
