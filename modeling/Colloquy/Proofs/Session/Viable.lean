import Mathlib.Tactic.SplitIfs
import Colloquy.Proofs.Flow.WellFormed
import Colloquy.Proofs.Random.Greatest
import Colloquy.Proofs.SortedMap
import Colloquy.Proofs.Text.Words
import Colloquy.Session.Turn

/-!
# Viable candidates

`TurnSetting.Viable` says what makes a transition viable, one condition after the other: the
transition says something (`Says`), leads to a state that exists (`LeadsTo`), that state lets it in
(`LetsIn`), and its gate is open.  `TurnSetting.Answers` says the same of a pending answer.  Both
thread the bindings and the random source through the conditions.

An offer has a candidate exactly under these conditions (`viable_iff`, `answers_iff`).
-/

namespace Colloquy

open Macro (gateKey targetKey)

/-! ### Names of gates -/

namespace TurnSetting

/-- The names that a request lists: the nonempty texts between its commas. -/
def requestedNames (request : String) : List String :=
  ((request.toList.splitOn ',').filter (· ≠ [])).map String.ofList

theorem splitNames_eq (request : String) : splitNames request = requestedNames request := by
  rw [splitNames, requestedNames, Text.runs_eq_splitOnP, List.splitOn_eq_splitOnP]
  congr 3
  funext c
  simp [bne]

/-- The names that gate a transition which leads to its target under the bindings: its own, and
those that the bindings ask for. -/
def gatedNames (t : Transition) (vars : Bindings) : List String :=
  t.gate.getD [] ++ ((vars.get? gateKey).map requestedNames).getD []

/-- The bindings without what was asked of the engine. -/
def withoutRequests (vars : Bindings) : Bindings :=
  (vars.erase gateKey).erase targetKey

/-- The gate of a transition which leads to the target under the bindings; none if nothing gates
it. -/
def gateOf (t : Transition) (target : StateId) (vars : Bindings) : Option GateKey :=
  if gatedNames t vars = [] then none
  else some (.ofNames target (gatedNames t vars) (withoutRequests vars))

theorem offerGate_eq (t : Transition) (target : StateId) (vars : Bindings) :
    offerGate target t.gate vars = (gateOf t target vars, withoutRequests vars) := by
  have hnames : ((vars.get? gateKey).map splitNames).getD [] =
      ((vars.get? gateKey).map requestedNames).getD [] := by
    rw [funext splitNames_eq]
  unfold offerGate gateOf withoutRequests gatedNames
  rw [hnames]
  simp only [List.isEmpty_iff]

/-! ### Viable transitions -/

variable (given : TurnSetting)

/-- Under the bindings, with the words of `src`, the transition says the text and leaves the new
bindings: what the user takes has to match, what the system takes has to generate. -/
def Says (t : Transition) (vars : Bindings) (src : Source) (text : String) (vars' : Bindings)
    (src' : Source) : Prop :=
  match t.speaker with
  | .user =>
    Matching.run given.flow.macros given.utterance t.phrase.tree vars
      given.flow.options.backtrackLimit = some vars' ∧ text = "" ∧ src' = src
  | .system =>
    Generation.generate given.flow.macros t.phrase.tree vars src = (some ⟨text, vars'⟩, src')

/-- The transition leads to the state: the one that the bindings name, else its own target. -/
def LeadsTo (t : Transition) (vars : Bindings) (target : StateId) : Prop :=
  match vars.get? targetKey with
  | some name => given.flow.lookup (.ofString name) = some target
  | none => target = t.target

/-- The state lets a transition with these bindings in: its guard, if it has one, generates. -/
def LetsIn (target : StateId) (vars : Bindings) (src : Source) (vars' : Bindings)
    (src' : Source) : Prop :=
  match (given.flow.node target).enter with
  | some guard =>
    ∃ text, Generation.generate given.flow.macros guard.tree vars src = (some ⟨text, vars'⟩, src')
  | none => vars' = vars ∧ src' = src

/-- Considered from the standing with the words of `src`, the transition is viable and amounts to
the candidate. -/
inductive Viable (st : Standing) (t : Transition) (src : Source) : Candidate → Source → Prop
  | intro {text : String} {vars₁ vars₂ : Bindings} {src₁ src₂ : Source} {target : StateId}
      (spoken : given.Says t st.vars src text vars₁ src₁)
      (leadsTo : given.LeadsTo t vars₁ target)
      (letsIn : given.LetsIn target (vars₁.erase targetKey) src₁ vars₂ src₂)
      (isOpen : ∀ key ∈ gateOf t target vars₂, st.gates.isClosed key = false) :
      Viable st t src
        ⟨target, t.score, text, withoutRequests vars₂, gateOf t target vars₂, false⟩ src₂

variable {given} in
/-- In a well-formed flow a transition leads to a state that exists. -/
theorem LeadsTo.lt {t : Transition} {vars : Bindings} {target : StateId}
    (h : given.LeadsTo t vars target) (hflow : given.flow.WellFormed)
    (ht : t ∈ given.flow.transitions) : target < given.flow.stateCount := by
  unfold LeadsTo at h
  split at h
  · exact Flow.lookup_lt h
  · rw [h]
    exact hflow.target_lt t ht

namespace Viable

variable {given} {st : Standing} {t : Transition} {src src' : Source} {c : Candidate}

theorem fromRule_eq (h : given.Viable st t src c src') : c.fromRule = false := by
  cases h
  rfl

theorem score_eq (h : given.Viable st t src c src') : c.score = t.score := by
  cases h
  rfl

theorem gate_open (h : given.Viable st t src c src') :
    ∀ key ∈ c.gate, st.gates.isClosed key = false := by
  obtain ⟨-, -, -, isOpen⟩ := h
  exact isOpen

/-- In a well-formed flow a viable transition leads to a state that exists. -/
theorem target_lt (h : given.Viable st t src c src') (hflow : given.flow.WellFormed)
    (ht : t ∈ given.flow.transitions) : c.target < given.flow.stateCount := by
  obtain ⟨-, leadsTo, -, -⟩ := h
  exact leadsTo.lt hflow ht

end Viable

theorem evaluate_eq_some_iff {t : Transition} {vars vars' : Bindings} {src src' : Source}
    {text : String} :
    given.evaluate t vars src = (some (text, vars'), src') ↔
      given.Says t vars src text vars' src' := by
  unfold evaluate Says
  cases t.speaker with
  -- Matching draws nothing, so the words stay.
  | user =>
    show (((Matching.run given.flow.macros given.utterance t.phrase.tree vars
      given.flow.options.backtrackLimit).map fun vars => ("", vars), src) :
        Option (String × Bindings) × Source) = _ ↔ _
    rw [Prod.mk.injEq, Option.map_eq_some_iff]
    constructor
    · rintro ⟨⟨v, hv, h⟩, rfl⟩
      obtain ⟨rfl, rfl⟩ := Prod.mk.inj h
      exact ⟨hv, rfl, rfl⟩
    · rintro ⟨hv, rfl, rfl⟩
      exact ⟨⟨vars', hv, rfl⟩, rfl⟩
  | system =>
    show (((Generation.generate given.flow.macros t.phrase.tree vars src).1.map
      fun g => (g.text, g.vars), (Generation.generate given.flow.macros t.phrase.tree vars src).2) :
        Option (String × Bindings) × Source) = _ ↔ _
    rcases Generation.generate given.flow.macros t.phrase.tree vars src with
      ⟨_ | ⟨text₁, vars₁⟩, src₁⟩
    · constructor <;> rintro ⟨⟩
    · constructor <;> rintro ⟨⟩ <;> rfl

theorem redirect_eq_ok_iff {t : Transition} {vars vars' : Bindings} {target : StateId} :
    given.redirect t.target vars = .ok (target, vars') ↔
      given.LeadsTo t vars target ∧ vars' = vars.erase targetKey := by
  unfold redirect LeadsTo
  cases hname : vars.get? targetKey with
  | none =>
    simp only [Except.ok.injEq, Prod.mk.injEq]
    rw [SortedMap.erase_of_get?_eq_none hname]
    exact and_congr eq_comm eq_comm
  | some name =>
    simp only
    cases given.flow.lookup (.ofString name) with
    | none => simp
    | some id =>
      simp only [Except.ok.injEq, Prod.mk.injEq, Option.some.injEq]
      exact and_congr_right fun _ => eq_comm

theorem enter_eq_some_iff {target : StateId} {vars vars' : Bindings} {src src' : Source} :
    given.enter target vars src = (some vars', src') ↔ given.LetsIn target vars src vars' src' := by
  unfold enter LetsIn
  cases (given.flow.node target).enter with
  | none =>
    show ((some vars, src) : Option Bindings × Source) = _ ↔ _
    rw [Prod.mk.injEq, Option.some.injEq]
    exact and_congr eq_comm eq_comm
  -- Of what the guard generates only the bindings count.
  | some guard =>
    show (((Generation.generate given.flow.macros guard.tree vars src).1.map (·.vars),
      (Generation.generate given.flow.macros guard.tree vars src).2) :
        Option Bindings × Source) = _ ↔ _
    rcases hgen : Generation.generate given.flow.macros guard.tree vars src with
      ⟨_ | ⟨text₁, vars₁⟩, src₁⟩
    · constructor
      · rintro ⟨⟩
      · rintro ⟨text, h⟩
        cases hgen.symm.trans h
    · constructor
      · rintro ⟨⟩
        exact ⟨text₁, hgen⟩
      · rintro ⟨text, h⟩
        cases hgen.symm.trans h
        rfl

theorem any_isClosed_eq_false_iff {gates : GateTable} {gate : Option GateKey} :
    gate.any gates.isClosed = false ↔ ∀ key ∈ gate, gates.isClosed key = false := by
  cases gate <;> simp

theorem arrive_eq_ok_iff {gates : GateTable} {t : Transition} {vars vars' : Bindings}
    {src src' : Source} {target : StateId} {gate : Option GateKey} :
    given.arrive gates t vars src = (.ok (target, vars', gate), src') ↔
      ∃ vars₂, given.LeadsTo t vars target ∧
        given.LetsIn target (vars.erase targetKey) src vars₂ src' ∧
        (∀ key ∈ gateOf t target vars₂, gates.isClosed key = false) ∧
        vars' = withoutRequests vars₂ ∧ gate = gateOf t target vars₂ := by
  constructor
  · intro h
    unfold arrive at h
    cases hredirect : given.redirect t.target vars with
    | error verdict =>
      rw [hredirect] at h
      cases h
    | ok arrival =>
      -- The guard sees the bindings without the redirection, the gate those that the guard leaves.
      obtain ⟨target₁, vars₁⟩ := arrival
      obtain ⟨hleads, rfl⟩ := given.redirect_eq_ok_iff.mp hredirect
      rw [hredirect] at h
      dsimp only at h
      rw [Draw.bind_apply] at h
      rcases henter : given.enter target₁ (vars.erase targetKey) src with ⟨_ | vars₂, src₂⟩
      · rw [henter] at h
        cases h
      · rw [henter] at h
        dsimp only at h
        rw [offerGate_eq] at h
        dsimp only at h
        have hin := given.enter_eq_some_iff.mp henter
        cases hclosed : (gateOf t target₁ vars₂).any gates.isClosed with
        | true =>
          rw [hclosed] at h
          cases h
        | false =>
          rw [hclosed] at h
          cases h
          exact ⟨vars₂, hleads, hin, any_isClosed_eq_false_iff.mp hclosed, rfl, rfl⟩
  · rintro ⟨vars₂, hleads, hin, hopen, rfl, rfl⟩
    unfold arrive
    rw [given.redirect_eq_ok_iff.mpr ⟨hleads, rfl⟩]
    dsimp only
    rw [Draw.bind_apply, given.enter_eq_some_iff.mpr hin]
    dsimp only
    rw [offerGate_eq]
    dsimp only
    rw [any_isClosed_eq_false_iff.mpr hopen]
    rfl

/-- A transition is viable if its offer has a candidate; the offer has that one and leaves the
source there. -/
theorem viable_iff {st : Standing} {t : Transition} {src src' : Source} {c : Candidate} :
    given.Viable st t src c src' ↔
      (given.offer st t src).1.candidate = some c ∧ (given.offer st t src).2 = src' := by
  constructor
  · rintro ⟨spoken, leadsTo, letsIn, isOpen⟩
    have harrive := given.arrive_eq_ok_iff.mpr ⟨_, leadsTo, letsIn, isOpen, rfl, rfl⟩
    unfold offer
    rw [Draw.bind_apply, given.evaluate_eq_some_iff.mpr spoken]
    dsimp only
    rw [Draw.bind_apply, harrive]
    exact ⟨rfl, rfl⟩
  · rintro ⟨hc, rfl⟩
    -- The offer has got through both stages: it was said, and it arrived.
    unfold offer at hc ⊢
    rw [Draw.bind_apply] at hc ⊢
    rcases heval : given.evaluate t st.vars src with ⟨_ | ⟨text, vars₁⟩, src₁⟩
    · rw [heval] at hc
      cases hc
    · rw [heval] at hc
      dsimp only at hc ⊢
      rw [Draw.bind_apply] at hc ⊢
      rcases harrive : given.arrive st.gates t vars₁ src₁ with ⟨_ | ⟨target, vars₂, gate⟩, src₂⟩
      · rw [harrive] at hc
        cases hc
      · rw [harrive] at hc
        obtain ⟨vars₃, leadsTo, letsIn, isOpen, rfl, rfl⟩ := given.arrive_eq_ok_iff.mp harrive
        obtain rfl := Option.some.inj hc
        exact ⟨given.evaluate_eq_some_iff.mp heval, leadsTo, letsIn, isOpen⟩

theorem redirect_ne_viable (target : StateId) (vars : Bindings) :
    given.redirect target vars ≠ .error .viable := by
  unfold redirect
  split
  · rintro ⟨⟩
  · split <;> rintro ⟨⟩

theorem arrive_ne_viable (gates : GateTable) (t : Transition) (vars : Bindings) (src : Source) :
    (given.arrive gates t vars src).1 ≠ .error .viable := by
  have hredirect := given.redirect_ne_viable t.target vars
  unfold arrive
  generalize given.redirect t.target vars = redirected at hredirect ⊢
  rcases redirected with verdict | ⟨target, vars₁⟩
  · intro h
    exact hredirect (congrArg Except.error (Except.error.inj h))
  · dsimp only
    rw [Draw.bind_apply]
    rcases given.enter target vars₁ src with ⟨_ | vars₂, src₂⟩
    · rintro ⟨⟩
    · dsimp only
      split <;> rintro ⟨⟩

/-- What is traced of a transition does not hang on the source, except for the verdict: that is
`viable` exactly if there is a candidate. -/
theorem offer_trace (st : Standing) (t : Transition) (src : Source) :
    (given.offer st t src).1.trace.source = t.phrase.source ∧
    (given.offer st t src).1.trace.score = t.score ∧
    ((given.offer st t src).1.trace.verdict = .viable ↔
      (given.offer st t src).1.candidate.isSome = true) := by
  unfold offer
  rw [Draw.bind_apply]
  rcases given.evaluate t st.vars src with ⟨_ | ⟨text, vars₁⟩, src₁⟩
  · refine ⟨rfl, rfl, ?_⟩
    show given.miss = .viable ↔ false = true
    unfold miss
    cases given.speaker <;> simp
  · dsimp only
    rw [Draw.bind_apply]
    rcases harrive : given.arrive st.gates t vars₁ src₁ with ⟨verdict | ⟨target, vars₂, gate⟩, src₂⟩
    · -- An offer that fails on arrival has a verdict of its own, never the one for success.
      have hne := given.arrive_ne_viable st.gates t vars₁ src₁
      rw [harrive] at hne
      refine ⟨rfl, rfl, iff_of_false (fun h => hne (congrArg Except.error h)) ?_⟩
      rintro ⟨⟩
    · exact ⟨rfl, rfl, iff_of_true rfl rfl⟩

/-- A viable offer is traced with the target and the score of its candidate. -/
theorem offer_trace_of_candidate {st : Standing} {t : Transition} {src : Source} {c : Candidate}
    (h : (given.offer st t src).1.candidate = some c) :
    (given.offer st t src).1.trace.target = given.stateName c.target ∧
      (given.offer st t src).1.trace.score = c.score := by
  unfold offer at h ⊢
  rw [Draw.bind_apply] at h ⊢
  generalize given.evaluate t st.vars src = spoken at h ⊢
  rcases spoken with ⟨_ | ⟨text, vars₁⟩, src₁⟩
  · cases h
  · dsimp only at h ⊢
    rw [Draw.bind_apply] at h ⊢
    generalize given.arrive st.gates t vars₁ src₁ = arrival at h ⊢
    rcases arrival with ⟨verdict | ⟨target, vars₂, gate⟩, src₂⟩
    · cases h
    · rw [← Option.some.inj h]
      exact ⟨rfl, rfl⟩

/-! ### Viable answers -/

/-- Considered from the standing with the words of `src`, the pending answer is viable and amounts
to the candidate: the rule's postcondition generates under the present bindings, those of the match
taking precedence. -/
inductive Answers (st : Standing) (answer : RuleAnswer) (src : Source) :
    Candidate → Source → Prop
  | intro {rule : Rule} {post : Phrase} {extended vars : Bindings} {text : String} {src' : Source}
      (isRule : given.flow.rules[answer.rule]? = some rule)
      (hasPost : rule.postcondition = some post)
      (merged : ∀ name,
        extended.get? name = (answer.delta.get? name).or (st.vars.get? name))
      (generates :
        Generation.generate given.flow.macros post.tree extended src = (some ⟨text, vars⟩, src')) :
      Answers st answer src ⟨st.state, answer.score, text, withoutRequests vars, none, true⟩ src'

namespace Answers

variable {given} {st : Standing} {answer : RuleAnswer} {src src' : Source} {c : Candidate}

theorem fromRule_eq (h : given.Answers st answer src c src') : c.fromRule = true := by
  cases h
  rfl

theorem score_eq (h : given.Answers st answer src c src') : c.score = answer.score := by
  cases h
  rfl

theorem target_eq (h : given.Answers st answer src c src') : c.target = st.state := by
  cases h
  rfl

theorem gate_eq (h : given.Answers st answer src c src') : c.gate = none := by
  cases h
  rfl

end Answers

/-- The bindings under which an answer is generated. -/
theorem get?_extended (st : Standing) (answer : RuleAnswer) (name : String) :
    (answer.delta.entries.foldl (fun vars e => vars.insert e.1 e.2) st.vars).get? name =
      (answer.delta.get? name).or (st.vars.get? name) :=
  SortedMap.get?_foldl_insert _ answer.delta.ascending _ _

/-- A pending answer is viable if its offer has a candidate. -/
theorem answers_iff {st : Standing} {answer : RuleAnswer} {src src' : Source} {c : Candidate} :
    given.Answers st answer src c src' ↔
      ((given.answerOffer st answer src).1.bind (·.candidate)) = some c ∧
        (given.answerOffer st answer src).2 = src' := by
  unfold answerOffer
  constructor
  · rintro ⟨isRule, hasPost, merged, generates⟩
    -- The bindings under which the answer is generated are known by their look-ups.
    have hextended := SortedMap.ext_get? fun name =>
      (merged name).trans (get?_extended st answer name).symm
    rw [isRule]
    dsimp only
    rw [hasPost]
    dsimp only
    rw [Draw.bind_apply, ← hextended, generates]
    exact ⟨rfl, rfl⟩
  · cases hrule : given.flow.rules[answer.rule]? with
    | none => rintro ⟨⟨⟩, -⟩
    | some rule =>
      dsimp only
      cases hpost : rule.postcondition with
      | none => rintro ⟨⟨⟩, -⟩
      | some post =>
        dsimp only
        rw [Draw.bind_apply]
        generalize hgen : Generation.generate given.flow.macros post.tree
          (answer.delta.entries.foldl (fun vars e => vars.insert e.1 e.2) st.vars) src = generated
        rcases generated with ⟨_ | ⟨text, vars⟩, src₁⟩
        · rintro ⟨⟨⟩, -⟩
        · rintro ⟨hc, rfl⟩
          obtain rfl := Option.some.inj hc
          exact ⟨hrule, hpost, get?_extended st answer, hgen⟩

/-- A pending answer of a rule in range has an offer, viable or not. -/
theorem answerOffer_isSome (st : Standing) {answer : RuleAnswer} {rule : Rule}
    (hrule : given.flow.rules[answer.rule]? = some rule) (src : Source) :
    ∃ o, (given.answerOffer st answer src).1 = some o ∧
      o.trace.source = rule.precondition.source ∧ o.trace.score = answer.score ∧
      (o.trace.verdict = .viable ↔ o.candidate.isSome = true) := by
  unfold answerOffer
  rw [hrule]
  dsimp only
  cases rule.postcondition with
  | none => exact ⟨_, rfl, rfl, rfl, by simp⟩
  | some post =>
    dsimp only
    rw [Draw.bind_apply]
    generalize Generation.generate given.flow.macros post.tree
      (answer.delta.entries.foldl (fun vars e => vars.insert e.1 e.2) st.vars) src = generated
    rcases generated with ⟨_ | ⟨text, vars⟩, src₁⟩
    · exact ⟨_, rfl, rfl, rfl, by simp⟩
    · exact ⟨_, rfl, rfl, rfl, fun _ => rfl, fun _ => rfl⟩

/-- A viable answer is traced with the target and the score of its candidate. -/
theorem answerOffer_trace_of_candidate {st : Standing} {answer : RuleAnswer} {src : Source}
    {o : Offer} {c : Candidate} (ho : (given.answerOffer st answer src).1 = some o)
    (hc : o.candidate = some c) :
    o.trace.target = given.stateName c.target ∧ o.trace.score = c.score := by
  unfold answerOffer at ho
  cases hrule : given.flow.rules[answer.rule]? with
  | none =>
    rw [hrule] at ho
    cases ho
  | some rule =>
    rw [hrule] at ho
    dsimp only at ho
    cases hpost : rule.postcondition with
    | none =>
      rw [hpost] at ho
      rw [← Option.some.inj ho] at hc
      cases hc
    | some post =>
      rw [hpost] at ho
      dsimp only at ho
      rw [Draw.bind_apply] at ho
      generalize Generation.generate given.flow.macros post.tree
        (answer.delta.entries.foldl (fun vars e => vars.insert e.1 e.2) st.vars) src = generated at ho
      rcases generated with ⟨_ | ⟨text, vars⟩, src₁⟩
      · rw [← Option.some.inj ho] at hc
        cases hc
      · -- The trace and the candidate were written down together.
        rw [← Option.some.inj ho] at hc ⊢
        rw [← Option.some.inj hc]
        exact ⟨rfl, rfl⟩

end TurnSetting

end Colloquy
