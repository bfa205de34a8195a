import Colloquy.Proofs.Session.Calls
import Colloquy.Proofs.Session.Completed

/-!
# What is asked of the engine

The macros `#GATE` and `#TARGET` ask the engine to gate or to redirect a transition, by binding a
key of their own.  Every transition and every answer leaves the bindings without these keys, so a
system turn that succeeds leaves none (`Reachable.turn_requests`).

A user turn that takes no transition, because nothing the user said matches, leaves the bindings as
its update rules made them, and with them what these have asked for.  Between the turns of a fresh
session this is the only way in which a request is left (`requested_iff`); the next turn of the
system then follows it (`detour_redirects`).
-/

namespace Colloquy

open Macro (gateKey targetKey)

/-- Something is asked of the engine. -/
def Bindings.Request (vars : Bindings) : Prop :=
  vars.contains gateKey = true ∨ vars.contains targetKey = true

theorem TurnSetting.not_request_withoutRequests (vars : Bindings) :
    ¬ (withoutRequests vars).Request := by
  have hne : gateKey ≠ targetKey := by decide
  rw [Bindings.Request, withoutRequests, SortedMap.contains, SortedMap.contains,
    SortedMap.get?_erase, SortedMap.get?_erase, SortedMap.get?_erase, if_neg hne, if_pos rfl,
    if_pos rfl]
  simp

/-- The steps are those of a user turn in which nothing matched. -/
def Unmatched (steps : List StepTrace) : Prop :=
  ∃ step, steps = [step] ∧ (step.kind = .errorSuccessor ∨ step.kind = .stay)

theorem not_unmatched {steps : List StepTrace} {step : StepTrace}
    (h : step.kind ≠ .errorSuccessor ∧ step.kind ≠ .stay) : ¬ Unmatched (steps ++ [step]) := by
  rintro ⟨other, hsteps, hkind⟩
  obtain rfl : step = other := by simpa using congrArg List.getLast? hsteps
  exact hkind.elim h.1 h.2

theorem unmatched_of_nil {steps : List StepTrace} {step : StepTrace} (hsteps : steps = [])
    (h : step.kind = .errorSuccessor ∨ step.kind = .stay) : Unmatched (steps ++ [step]) :=
  ⟨step, by rw [hsteps, List.nil_append], h⟩

namespace TurnSetting

variable {given : TurnSetting}

/-- A viable candidate leaves nothing asked of the engine. -/
theorem ViableAt.not_request {p : Progress} {src : Source} {i : Nat} {c : Candidate}
    (h : given.ViableAt p src i c) : ¬ c.vars.Request := by
  cases h with
  | transition considered viable =>
    cases viable
    exact not_request_withoutRequests _
  | answer admitted pending answers =>
    cases answers
    exact not_request_withoutRequests _

/-- What holds of the bindings before each leg of a turn: until something is taken, they are those
of the start, and then nothing is asked of the engine in them. -/
structure Untaken (given : TurnSetting) (st : Standing) (p : Progress) : Prop where
  opening : p.first = true → p.standing.vars = st.vars
  user : p.first = true → given.speaker = .user → p.steps = []
  later : p.first = false → ¬ p.standing.vars.Request

theorem step_untaken {st : Standing} {p q : Progress} {src : Source}
    (h : given.Untaken st p) (hmove : (given.step p src).1 = .goOn q) : given.Untaken st q := by
  have hsettles := given.step_settles p src
  -- Requests are taken out of the bindings of whatever is chosen.
  have hchosen : ∀ c place, (given.survey p src).1.2 = some (c, place) → ¬ c.vars.Request :=
    fun c place hchoice => (given.choice_greatest hchoice).1.not_request
  generalize (given.step p src).1 = m at hsettles hmove
  generalize (given.survey p src).1.2 = choice at hsettles hchosen
  cases hsettles with
  | @answerOnward c place isAnswer stuck =>
    rw [← Move.goOn.inj hmove]
    exact ⟨nofun, nofun, fun _ => hchosen c place rfl⟩
  | @hop c place isTransition isNew goesOn keeps =>
    rw [← Move.goOn.inj hmove]
    exact ⟨nofun, nofun, fun _ => hchosen c place rfl⟩
  | fallback first system =>
    rw [← Move.goOn.inj hmove]
    exact ⟨h.opening, fun _ huser => (nomatch system.symm.trans huser), h.later⟩
  | answer | arrival | finish | errorSuccessor | stay | stuckUser | stuckSystem => cases hmove

/-- Of the turns that succeed, only a user turn in which nothing matched leaves the bindings as it
found them; the others leave nothing asked of the engine. -/
theorem Completes.vars {st : Standing} {src₀ src : Source} {last : Leg} {i : Nat} {q : Progress}
    (h : given.Completes ⟨.opening st, src₀⟩ i last q src) :
    given.speaker = .user ∧ Unmatched q.steps ∧ q.standing.vars = st.vars ∨
      ¬ Unmatched q.steps ∧ ¬ q.standing.vars.Request := by
  have hlast : given.Untaken st last.before :=
    leg?_induct h.isLeg ⟨fun _ => rfl, fun _ _ => rfl, nofun⟩ fun _ _ _ => step_untaken
  -- The last leg is settled in one of the five ways that pass the floor.
  have hstops := congrArg Prod.fst h.stops
  have hsettles := given.step_settles last.before last.source
  have hchosen : ∀ c place, (given.survey last.before last.source).1.2 = some (c, place) →
      ¬ c.vars.Request :=
    fun c place hchoice => (given.choice_greatest hchoice).1.not_request
  generalize (given.step last.before last.source).1 = m at hsettles hstops
  generalize (given.survey last.before last.source).1.2 = choice at hsettles hchosen
  cases hsettles with
  | @answer c place isAnswer =>
    rw [← Move.stop.inj hstops]
    refine .inr ⟨?_, hchosen c place rfl⟩
    rw [commit_steps, isAnswer]
    exact not_unmatched ⟨nofun, nofun⟩
  | @arrival c place isTransition =>
    rw [← Move.stop.inj hstops]
    refine .inr ⟨?_, hchosen c place rfl⟩
    rw [commit_steps, isTransition]
    exact not_unmatched ⟨nofun, nofun⟩
  | finish later =>
    rw [← Move.stop.inj hstops]
    exact .inr ⟨not_unmatched ⟨nofun, nofun⟩, hlast.later later⟩
  | errorSuccessor first user =>
    rw [← Move.stop.inj hstops]
    exact .inl ⟨user, unmatched_of_nil (hlast.user first user) (.inl rfl), hlast.opening first⟩
  | stay first user =>
    rw [← Move.stop.inj hstops]
    exact .inl ⟨user, unmatched_of_nil (hlast.user first user) (.inr rfl), hlast.opening first⟩
  | answerOnward | hop | fallback | stuckUser | stuckSystem => cases hstops

end TurnSetting

namespace Session

variable {flow : Flow}

/-- The update rules that a user turn runs leave something asked of the engine. -/
def RulesRequest (flow : Flow) (utterance : Option String) (s : Session) : Prop :=
  ∃ outcome, Rules.run ⟨flow.macros, heard flow utterance, flow.options⟩ flow.rules
    s.standing.vars = .ok outcome ∧ outcome.vars.Request

/-- A turn that succeeds leaves something asked of the engine just if it is a user turn in which
nothing matched, and the update rules ask it. -/
theorem Reachable.turn_requests (hbuilt : flow.Built) {s : Session} (h : Reachable flow s)
    {speaker : Speaker} {utterance : Option String} {report : TurnReport}
    (hturn : (s.turn flow speaker utterance).1 = .ok report) :
    (s.turn flow speaker utterance).2.standing.vars.Request ↔
      speaker = .user ∧ Unmatched report.steps ∧ RulesRequest flow utterance s := by
  obtain ⟨-, st, outcome, i, last, q, hprepare, hcompletes, hstanding, hsteps⟩ :=
    h.turn_ok hbuilt hturn
  rw [hstanding, hsteps]
  rcases hcompletes.vars with
    ⟨hspeaker, hunmatched, hvars⟩ | ⟨hmatched, hnone⟩
  · -- Nothing was matched, so the bindings are those that the rules have left.
    rcases prepare_eq_ok hprepare with ⟨hsystem, -⟩ | ⟨huser, hrun, rfl⟩
    · cases hsystem.symm.trans hspeaker
    · rw [hvars]
      refine ⟨fun hrequest => ⟨huser, hunmatched, outcome, hrun, hrequest⟩, ?_⟩
      rintro ⟨-, -, outcome', hrun', hrequest⟩
      obtain rfl := Except.ok.inj (hrun.symm.trans hrun')
      exact hrequest
  · exact iff_of_false hnone fun h => hmatched h.2.1

/-! ### Histories -/

variable {src : Source} {calls : List Call}

/-- In the history of a fresh session, the call with a number is a user turn that succeeds although
nothing matches, and its update rules ask something of the engine. -/
def RequestsAt (flow : Flow) (src : Source) (calls : List Call) (k : Nat) : Prop :=
  ∃ utterance report, calls[k]? = some (.turn .user utterance) ∧
    ((before flow src calls k).turn flow .user utterance).1 = .ok report ∧
    Unmatched report.steps ∧ RulesRequest flow utterance (before flow src calls k)

theorem RequestsAt.succeedsAt {k : Nat} (h : RequestsAt flow src calls k) :
    SucceedsAt flow src calls k := by
  obtain ⟨utterance, report, hcall, hturn, -⟩ := h
  exact ⟨_, hcall, report, hturn⟩

/-- What a call that succeeds leaves asked of the engine, unless it is a restore. -/
theorem request_succ_iff (hbuilt : flow.Built) {k : Nat} (hsucceeds : SucceedsAt flow src calls k)
    (hrestore : ∀ snap, calls[k]? ≠ some (.restore snap)) :
    (before flow src calls (k + 1)).standing.vars.Request ↔ RequestsAt flow src calls k := by
  obtain ⟨c, hc, hok⟩ := hsucceeds
  rw [before_succ hc]
  cases c with
  | turn speaker utterance =>
    obtain ⟨report, hturn⟩ := hok
    refine ((reachable_before flow src calls k).turn_requests hbuilt hturn).trans ⟨?_, ?_⟩
    · rintro ⟨rfl, hunmatched, hrules⟩
      exact ⟨utterance, report, hc, hturn, hunmatched, hrules⟩
    · rintro ⟨utterance', report', hc', hturn', hunmatched, hrules⟩
      obtain ⟨rfl, rfl⟩ := Call.turn.inj (Option.some.inj (hc.symm.trans hc'))
      obtain rfl := Except.ok.inj (hturn.symm.trans hturn')
      exact ⟨rfl, hunmatched, hrules⟩
  | reset =>
    refine iff_of_false (fun h => ?_) ?_
    · rcases h with h | h <;> cases h
    · rintro ⟨utterance, report, hc', -⟩
      cases hc.symm.trans hc'
  | restore snap => exact absurd hc (hrestore snap)

/-- Between the turns and resets of a fresh session, something is asked of the engine just if the
last one to succeed was a user turn in which nothing matched, and its update rules ask it. -/
theorem requested_iff (hbuilt : flow.Built) (src : Source) {calls : List Call}
    (hcalls : ∀ snap, .restore snap ∉ calls) (k : Nat) :
    (before flow src calls k).standing.vars.Request ↔
      ∃ j < k, RequestsAt flow src calls j ∧
        ∀ i, j < i → i < k → ¬ SucceedsAt flow src calls i := by
  rcases exists_last_success flow src calls k with hnone | ⟨j, hj, hsucceeds, hlast⟩
  · -- No call has succeeded yet, so the bindings are those at the start.
    have hsame : (before flow src calls k).standing = (before flow src calls 0).standing :=
      standing_before_eq (Nat.zero_le k) fun i _ => hnone i
    rw [hsame]
    refine iff_of_false (fun h => ?_) ?_
    · rcases h with h | h <;> cases h
    · rintro ⟨j, hj, h, -⟩
      exact hnone j hj h.succeedsAt
  · rw [standing_before_eq (Nat.succ_le_of_lt hj) fun i hji => hlast i hji,
      request_succ_iff hbuilt hsucceeds fun snap hsnap => hcalls snap (List.mem_of_getElem? hsnap)]
    constructor
    · exact fun h => ⟨j, hj, h, hlast⟩
    · rintro ⟨j', hj', h, hlast'⟩
      exact last_success_unique hj' hj h.succeedsAt hsucceeds hlast' hlast ▸ h

end Session

/-- A conversation in which the user may say hello in state `a`, and the system then says that it is
fine; an update rule asks to be taken to state `d`. -/
def Builder.detour : Builder :=
  [Builder.Call.addTransition (.plain "a") (.plain "b") .user "hello" 1.0 none,
    .addTransition (.plain "b") (.plain "c") .system "fine" 1.0 none,
    .setErrorSuccessor (.plain "a") (.plain "b"), .addUpdateRule "[#TARGET(d)]" none false 1.0,
    .state (.plain "d"), .setInitialSpeaker .user].foldl (fun b c => (c.run b).2) {}

def Flow.detour : Flow := .ofBuilder .detour

theorem Flow.detour_built : Flow.detour.Built :=
  ofBuilder_built (.calls .fresh _) (by decide +kernel) (by decide +kernel)

namespace Session

/-- The user says something that does not match, then the system speaks. -/
def detourTurns : List Call :=
  [.turn .user (some "zzz"), .turn .system none]

/-- The update rules have asked for state `d`, and the system goes there when it speaks, although
its only transition leads elsewhere. -/
theorem detour_redirects :
    (before .detour (.mixed 7) detourTurns 1).standing.vars.get? targetKey = some "d" ∧
    (before .detour (.mixed 7) detourTurns 2).standing.state = 3 ∧
    Flow.detour.key 3 = .plain "d" ∧ Flow.detour.transitions.map (·.target) = [1, 2] := by
  decide +kernel

theorem requested_iff_detour : RequestsAt .detour (.mixed 7) detourTurns 0 := by
  have hcalls : ∀ snap, .restore snap ∉ detourTurns := by simp [detourTurns]
  have hrequest : (before .detour (.mixed 7) detourTurns 1).standing.vars.Request :=
    .inr (by decide +kernel)
  obtain ⟨j, hj, h, -⟩ := (requested_iff Flow.detour_built (.mixed 7) hcalls 1).mp hrequest
  obtain rfl := Nat.lt_one_iff.mp hj
  exact h

end Session

end Colloquy
