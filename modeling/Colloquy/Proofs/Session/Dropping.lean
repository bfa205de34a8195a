import Colloquy.Proofs.Generation.Drawing
import Colloquy.Proofs.Session.Failure

/-!
# Dropping the calls that fail

A turn that fails moves the random source on past the words it has drawn, and changes nothing else
(`turn_of_error`).  So the calls that fail can be taken out of a row of calls if the words that they
drew are let pass in their place: the other calls then have the same results, and lead to the same
session (`dropping_failures`).  If these words are not let pass, the other calls draw them, and may
come to other results (`door_shifts`).
-/

namespace Colloquy

open Draw (MovesOn)

namespace TurnSetting

variable (given : TurnSetting)

theorem evaluate_movesOn (t : Transition) (vars : Bindings) :
    MovesOn (given.evaluate t vars) := by
  unfold evaluate
  cases t.speaker with
  | user => exact .pure _
  | system => exact (Generation.generate_movesOn _ _).bind fun _ => .pure _

theorem enter_movesOn (target : StateId) (vars : Bindings) :
    MovesOn (given.enter target vars) := by
  unfold enter
  cases (given.flow.node target).enter with
  | none => exact .pure _
  | some guard => exact (Generation.generate_movesOn _ _).bind fun _ => .pure _

theorem arrive_movesOn (gates : GateTable) (t : Transition) (vars : Bindings) :
    MovesOn (given.arrive gates t vars) := by
  unfold arrive
  rcases given.redirect t.target vars with verdict | ⟨target, vars₁⟩
  · exact .pure _
  · refine (given.enter_movesOn target vars₁).bind fun entered => ?_
    cases entered with
    | none => exact .pure _
    | some vars₂ =>
      dsimp only
      split <;> exact .pure _

theorem offer_movesOn (st : Standing) (t : Transition) : MovesOn (given.offer st t) := by
  unfold offer
  refine (given.evaluate_movesOn t st.vars).bind fun evaluated => ?_
  rcases evaluated with _ | ⟨text, vars⟩
  · exact .pure _
  · refine (given.arrive_movesOn st.gates t vars).bind fun arrival => ?_
    rcases arrival with verdict | ⟨target, vars, gate⟩ <;> exact .pure _

theorem answerOffer_movesOn (st : Standing) (answer : RuleAnswer) :
    MovesOn (given.answerOffer st answer) := by
  unfold answerOffer
  cases given.flow.rules[answer.rule]? with
  | none => exact .pure _
  | some rule =>
    dsimp only
    cases rule.postcondition with
    | none => exact .pure _
    | some post =>
      refine (Generation.generate_movesOn _ _).bind fun generated => ?_
      cases generated <;> exact .pure _

theorem offersOf_movesOn (st : Standing) (ts : List Transition) :
    MovesOn (given.offersOf st ts) := by
  induction ts with
  | nil => exact .pure _
  | cons t ts ih => exact (given.offer_movesOn st t).bind fun _ => ih.bind fun _ => .pure _

theorem offers_movesOn (st : Standing) (withAnswer : Bool) :
    MovesOn (given.offers st withAnswer) := by
  unfold offers
  refine (given.offersOf_movesOn st _).bind fun found => ?_
  cases st.pending with
  | none => exact .pure _
  | some answer =>
    cases withAnswer with
    | false => exact .pure _
    | true => exact (given.answerOffer_movesOn st answer).bind fun _ => .pure _

theorem step_movesOn (p : Progress) : MovesOn (given.step p) :=
  ((given.offers_movesOn _ _).bind fun _ =>
    (Selection.chooseUniform_movesOn _).bind fun _ => .pure _).bind fun _ => .pure _

theorem steps_movesOn (n : Nat) (p : Progress) : MovesOn (given.steps n p) := by
  induction n generalizing p with
  | zero => exact .pure _
  | succ n ih =>
    refine (given.step_movesOn p).bind fun move => ?_
    cases move with
    | goOn q => exact ih q
    | stop | fail => exact .pure _

/-- Only for want of a viable transition do the steps of a turn fail. -/
theorem step_fails {p : Progress} {src : Source} {e : TurnError}
    (h : (given.step p src).1 = .fail e) :
    ∃ state, e = .noViableTransition state given.speaker := by
  have hsettles := given.step_settles p src
  generalize (given.step p src).1 = m at hsettles h
  generalize (given.survey p src).1.2 = choice at hsettles
  cases hsettles with
  | stuckUser first speaker | stuckSystem first speaker =>
    exact ⟨_, speaker ▸ (Move.fail.inj h).symm⟩
  | answer | answerOnward | arrival | hop | finish | errorSuccessor | stay | fallback => cases h

theorem steps_fails (n : Nat) {p : Progress} {src : Source} {e : TurnError}
    (h : (given.steps n p src).1 = .error e) :
    ∃ state, e = .noViableTransition state given.speaker := by
  induction n generalizing p src with
  | zero => cases h
  | succ n ih =>
    rw [steps_succ] at h
    rcases hmove : given.step p src with ⟨q | q | e', src'⟩
    · rw [hmove] at h
      exact ih h
    · rw [hmove] at h
      cases h
    · rw [hmove] at h
      obtain rfl := Except.error.inj h
      exact given.step_fails (congrArg Prod.fst hmove)

end TurnSetting

namespace Session

variable {flow : Flow}

theorem turnFrom_movesOn (speaker : Speaker) (utterance : Option String) (st : Standing) :
    MovesOn (turnFrom flow speaker utterance st) := by
  unfold turnFrom
  split
  · exact .pure _
  · dsimp only
    rcases prepare flow (heard flow utterance) speaker st with e | ⟨st', outcome⟩
    · exact .pure _
    · refine (TurnSetting.steps_movesOn _ _ _).bind fun ended => ?_
      cases ended <;> exact .pure _

/-- A turn that fails only lets words pass. -/
theorem turn_of_error {s : Session} {speaker : Speaker} {utterance : Option String} {e : TurnError}
    (h : (s.turn flow speaker utterance).1 = .error e) :
    ∃ n, (s.turn flow speaker utterance).2 = { s with source := s.source.skip n } := by
  obtain ⟨n, hn⟩ : ∃ n, (turnFrom flow speaker utterance s.standing s.source).2 = s.source.skip n :=
    turnFrom_movesOn speaker utterance s.standing s.source
  refine ⟨n, ?_⟩
  unfold turn at h ⊢
  rcases hturn : turnFrom flow speaker utterance s.standing s.source with ⟨e | ⟨report, st⟩, src⟩
  · rw [hturn] at hn
    rw [← hn]
  · rw [hturn] at h
    cases h

/-- If it fails for another reason than the want of a viable transition, it draws nothing. -/
theorem turn_of_early_error {s : Session} {speaker : Speaker} {utterance : Option String}
    {e : TurnError} (h : (s.turn flow speaker utterance).1 = .error e)
    (hearly : ∀ state, e ≠ .noViableTransition state speaker) :
    s.turn flow speaker utterance = (.error e, s) := by
  by_cases hfloor : s.standing.speaker = speaker
  · cases hprepare : prepare flow (heard flow utterance) speaker s.standing with
    | error e' =>
      rw [turn_of_prepare_error hfloor hprepare] at h ⊢
      rw [Except.error.inj h]
    | ok prepared =>
      obtain ⟨st, outcome⟩ := prepared
      rcases hsteps : (setting flow speaker utterance).steps (flow.stateCount + 1)
        (.opening st) s.source with ⟨e' | p, src⟩
      · rw [turn_of_steps_error hfloor hprepare hsteps] at h
        obtain rfl := Except.error.inj h
        -- Steps fail for one cause only, which is not an early one.
        obtain ⟨state, heq⟩ := TurnSetting.steps_fails _ _ (congrArg Prod.fst hsteps)
        exact absurd heq (hearly state)
      · obtain ⟨report, hturn, -⟩ := turn_of_steps_ok hfloor hprepare hsteps
        rw [hturn] at h
        cases h
  · rw [turn_of_wrongSpeaker hfloor] at h ⊢
    rw [Except.error.inj h]

/-! ### Rows of calls -/

/-- What a session goes through: someone takes a turn, or words of its source pass undrawn. -/
inductive Deed
  | turn (speaker : Speaker) (utterance : Option String)
  | pass (words : Nat)
  deriving DecidableEq

/-- The results of the turns among the deeds, and the session after all of them. -/
def perform (flow : Flow) : List Deed → Session → List (Except TurnError TurnReport) × Session
  | [], s => ([], s)
  | .turn speaker utterance :: more, s =>
    let (results, s') := perform flow more (s.turn flow speaker utterance).2
    ((s.turn flow speaker utterance).1 :: results, s')
  | .pass words :: more, s => perform flow more { s with source := s.source.skip words }

/-- The result is a report. -/
def succeeds : Except TurnError TurnReport → Bool
  | .ok _ => true
  | .error _ => false

/-- The turns in a row, but in the place of each that fails only the words pass that it draws. -/
def withoutFailures (flow : Flow) : List (Speaker × Option String) → Session → List Deed
  | [], _ => []
  | (speaker, utterance) :: more, s =>
    let (result, s') := s.turn flow speaker utterance
    (if succeeds result then .turn speaker utterance
      else .pass (s'.source.drawn - s.source.drawn)) :: withoutFailures flow more s'

/-- The turns in a row, without those that fail. -/
def successes (flow : Flow) : List (Speaker × Option String) → Session →
    List (Speaker × Option String)
  | [], _ => []
  | (speaker, utterance) :: more, s =>
    let (result, s') := s.turn flow speaker utterance
    if succeeds result then (speaker, utterance) :: successes flow more s'
    else successes flow more s'

/-- The turns as deeds. -/
def deeds (calls : List (Speaker × Option String)) : List Deed :=
  calls.map fun (speaker, utterance) => .turn speaker utterance

/-- What remains of a row of turns without those that fail: the results of the others, and the
session after it. -/
def remaining (flow : Flow) (calls : List (Speaker × Option String)) (s : Session) :
    List (Except TurnError TurnReport) × Session :=
  ((perform flow (deeds calls) s).1.filter succeeds, (perform flow (deeds calls) s).2)

theorem remaining_cons_ok {s s' : Session} {speaker : Speaker} {utterance : Option String}
    {report : TurnReport} (h : s.turn flow speaker utterance = (.ok report, s'))
    (more : List (Speaker × Option String)) :
    remaining flow ((speaker, utterance) :: more) s =
      (.ok report :: (remaining flow more s').1, (remaining flow more s').2) := by
  rw [remaining, deeds, List.map_cons, perform, h]
  rfl

theorem remaining_cons_error {s s' : Session} {speaker : Speaker} {utterance : Option String}
    {e : TurnError} (h : s.turn flow speaker utterance = (.error e, s'))
    (more : List (Speaker × Option String)) :
    remaining flow ((speaker, utterance) :: more) s = remaining flow more s' := by
  rw [remaining, deeds, List.map_cons, perform, h]
  rfl

/-- In the place of a turn that fails, the words that it draws can pass. -/
theorem pass_of_error {s s' : Session} {speaker : Speaker} {utterance : Option String}
    {e : TurnError} (h : s.turn flow speaker utterance = (.error e, s')) :
    s' = { s with source := s.source.skip (s'.source.drawn - s.source.drawn) } := by
  obtain ⟨n, hn⟩ : ∃ n, s' = { s with source := s.source.skip n } := by
    have hpass := turn_of_error (congrArg Prod.fst h)
    rwa [h] at hpass
  have hdrawn : s'.source.drawn - s.source.drawn = n := by
    rw [hn]
    exact Nat.add_sub_cancel_left ..
  rw [hdrawn]
  exact hn

/-- With the words of the failing turns passed by, the other turns of a row have the results that
they had, and lead to the session that they led to. -/
theorem perform_withoutFailures (calls : List (Speaker × Option String)) (s : Session) :
    perform flow (withoutFailures flow calls s) s = remaining flow calls s := by
  induction calls generalizing s with
  | nil => rfl
  | cons call more ih =>
    obtain ⟨speaker, utterance⟩ := call
    rcases hturn : s.turn flow speaker utterance with ⟨e | report, s'⟩
    · rw [remaining_cons_error hturn, withoutFailures, hturn, ← ih]
      show perform flow (withoutFailures flow more s') { s with source := _ } = _
      rw [← pass_of_error hturn]
    · rw [remaining_cons_ok hturn, withoutFailures, hturn, ← ih]
      show perform flow (.turn speaker utterance :: _) s = _
      rw [perform, hturn]

/-- If the failing turns draw no words, they can be dropped. -/
theorem perform_successes (calls : List (Speaker × Option String)) (s : Session)
    (h : ∀ words, .pass words ∈ withoutFailures flow calls s → words = 0) :
    perform flow (deeds (successes flow calls s)) s = remaining flow calls s := by
  induction calls generalizing s with
  | nil => rfl
  | cons call more ih =>
    obtain ⟨speaker, utterance⟩ := call
    rcases hturn : s.turn flow speaker utterance with ⟨e | report, s'⟩
    · -- No words pass, so the session is still the same.
      rw [withoutFailures, hturn] at h
      have hpass := pass_of_error hturn
      rw [h _ List.mem_cons_self, Source.skip_zero] at hpass
      rw [remaining_cons_error hturn, successes, hturn,
        ← ih s' fun words hwords => h words (List.mem_cons_of_mem _ hwords)]
      rw [hpass]
      rfl
    · rw [withoutFailures, hturn] at h
      rw [remaining_cons_ok hturn, successes, hturn,
        ← ih s' fun words hwords => h words (List.mem_cons_of_mem _ hwords)]
      show perform flow (.turn speaker utterance :: _) s = _
      rw [perform, hturn]
      rfl

/-- What a row of turns comes to without those that fail.  The words that these draw have to pass;
if they draw none, they can be left out, and they draw none unless they fail for want of a viable
transition. -/
theorem dropping_failures (flow : Flow) (calls : List (Speaker × Option String)) (s : Session) :
    perform flow (withoutFailures flow calls s) s = remaining flow calls s ∧
    ((∀ words, .pass words ∈ withoutFailures flow calls s → words = 0) →
      perform flow (deeds (successes flow calls s)) s = remaining flow calls s) ∧
    ∀ (s' : Session) speaker utterance e, (s'.turn flow speaker utterance).1 = .error e →
      (∃ words, (s'.turn flow speaker utterance).2 =
        { s' with source := s'.source.skip words }) ∧
      ((∀ state, e ≠ .noViableTransition state speaker) →
        (s'.turn flow speaker utterance).2 = s') :=
  ⟨perform_withoutFailures calls s, perform_successes calls s, fun _ _ _ _ h =>
    ⟨turn_of_error h, fun hearly => congrArg Prod.snd (turn_of_early_error h hearly)⟩⟩

/-- The user speaks out of turn, which draws nothing. -/
theorem dropping_failures_greeting :
    perform .greeting [.turn .system none] (start .greeting (.mixed 7)) =
      remaining .greeting [(.user, some "hello"), (.system, none)]
        (start .greeting (.mixed 7)) := by
  have hsuccesses : successes .greeting [(.user, some "hello"), (.system, none)]
      (start .greeting (.mixed 7)) = [(.system, none)] := by decide +kernel
  have hdeeds : withoutFailures .greeting [(.user, some "hello"), (.system, none)]
      (start .greeting (.mixed 7)) = [.pass 0, .turn .system none] := by decide +kernel
  have hdrop := (dropping_failures .greeting [(.user, some "hello"), (.system, none)]
    (start .greeting (.mixed 7))).2.1 fun words hwords => by simpa [hdeeds] using hwords
  rwa [hsuccesses] at hdrop

end Session

/-- A conversation in which the user comes to the door, and is let in by a guard that makes a choice
before it asks for a key, or leaves, to which the system says one thing or another. -/
def Builder.door : Builder :=
  [Builder.Call.addTransition (.plain "a") (.plain "b") .user "hello" 1.0 none,
    .setEnterGuard (.plain "b") "[!\x7bleft, right\x7d, $key]",
    .addTransition (.plain "a") (.plain "c") .user "bye" 1.0 none,
    .addTransition (.plain "c") (.plain "d") .system "\x7bone, two\x7d" 1.0 none,
    .setInitialSpeaker .user].foldl (fun b c => (c.run b).2) {}

def Flow.door : Flow := .ofBuilder .door

namespace Session

/-- What the system says. -/
def said (results : List (Except TurnError TurnReport)) : List String :=
  results.filterMap fun
    | .ok report => if report.speaker = .system then some report.output else none
    | .error _ => none

/-- The guard draws a word before it fails, and the system chooses otherwise than it does if the
user has not come to the door at all. -/
theorem door_shifts :
    let src := Source.cyclic #[0, 0, 10446744073709551615, 0]
    let calls := [(Speaker.user, some "hello"), (.user, some "bye"), (.system, none)]
    successes .door calls (start .door src) = [(.user, some "bye"), (.system, none)] ∧
    said (remaining .door calls (start .door src)).1 = ["two"] ∧
    said (perform .door (deeds (successes .door calls (start .door src))) (start .door src)).1 =
      ["one"] := by
  decide +kernel

end Session

end Colloquy
