import Colloquy.Proofs.Flow.Tables
import Colloquy.Proofs.Session.Course

/-!
# What is read by its number exists

States, transitions and rules are known by their places.  After any calls of a builder its tables
agree with its states; in a flow that it builds, every number that a turn from a reachable session
reads is that of something which exists (`Builder.play_consistent`).
-/

namespace Colloquy

namespace TurnSetting

/-- Everything that the step of a leg reads by its number exists. -/
structure InRange (given : TurnSetting) (leg : Leg) : Prop where
  state_lt : leg.state < given.flow.stateCount
  visited_lt : ∀ id ∈ leg.before.visited, id < given.flow.stateCount
  /-- The places in which the table lists the transitions to consider. -/
  place_lt : ∀ i ∈ adjacency given.flow.transitions (leg.state, given.speaker),
    i < given.flow.transitions.length
  target_lt : ∀ t ∈ given.flow.outgoing leg.state given.speaker,
    t.target < given.flow.stateCount
  /-- The state to go to instead, whatever the bindings ask for. -/
  redirect_lt : ∀ t ∈ given.flow.outgoing leg.state given.speaker, ∀ vars target vars',
    given.redirect t.target vars = .ok (target, vars') → target < given.flow.stateCount
  candidate_lt : ∀ i c, given.ViableAt leg.before leg.source i c →
    c.target < given.flow.stateCount
  /-- The place of the candidate that is taken. -/
  chosen_lt : ∀ c place, (given.survey leg.before leg.source).1.2 = some (c, place) →
    place < (given.survey leg.before leg.source).1.1.length
  successor_lt : ∀ id ∈ (given.flow.node leg.state).errorSuccessor, id < given.flow.stateCount
  fallback_lt : ∀ id ∈ given.flow.fallback, id < given.flow.stateCount
  /-- The rule that answers. -/
  rule_lt : ∀ answer ∈ leg.before.standing.pending, answer.rule < given.flow.rules.length

variable {given : TurnSetting}

theorem OnCourse.inRange (hflow : given.flow.WellFormed) {leg : Leg}
    (h : given.OnCourse leg.before) : given.InRange leg where
  state_lt := h.sound.state_lt
  visited_lt := h.visited_lt
  -- The table lists the places of transitions that exist.
  place_lt := by
    intro i hi
    rw [adjacency_eq] at hi
    obtain ⟨⟨t, j⟩, hmem, rfl⟩ := List.mem_map.mp hi
    have hplace := List.mem_zipIdx_iff_getElem?.mp (List.mem_of_mem_filter hmem)
    exact (List.getElem?_eq_some_iff.mp hplace).1
  target_lt := fun t ht => hflow.target_lt t (List.mem_of_mem_filter ht)
  redirect_lt := by
    intro t ht vars target vars' hredirect
    exact (given.redirect_eq_ok_iff.mp hredirect).1.lt hflow (List.mem_of_mem_filter ht)
  candidate_lt := fun i c hviable => hviable.target_lt given hflow h.sound
  chosen_lt := by
    intro c place hchoice
    obtain ⟨o, ho, -⟩ := given.viableAt_iff.mp (given.choice_greatest hchoice).1
    rw [survey_offers]
    exact (List.getElem?_eq_some_iff.mp ho).1
  successor_lt := fun id hid => hflow.successor_lt _ id hid
  fallback_lt := hflow.fallback_lt
  rule_lt := by
    intro answer hanswer
    obtain ⟨rule, hrule, -⟩ := h.sound.pending_rule answer hanswer
    exact (List.getElem?_eq_some_iff.mp hrule).1

end TurnSetting

/-- The session is in a state that exists, and so is everything that its next turn reads by its
number, whoever takes it and whatever is said. -/
structure Session.InRange (flow : Flow) (s : Session) : Prop where
  state_lt : s.standing.state < flow.stateCount
  leg : ∀ speaker utterance st outcome,
    prepare flow (heard flow utterance) speaker s.standing = .ok (st, outcome) →
    ∀ i leg, (setting flow speaker utterance).leg? ⟨.opening st, s.source⟩ i = some leg →
      (setting flow speaker utterance).InRange leg

theorem Session.Reachable.inRange {flow : Flow} (hbuilt : flow.Built) {s : Session}
    (h : Reachable flow s) : s.InRange flow where
  state_lt := (h.sound hbuilt).state_lt
  leg := by
    intro speaker utterance st outcome hprepare i leg hleg
    have hopening : (setting flow speaker utterance).OnCourse
        (Leg.mk (.opening st) s.source).before :=
      TurnSetting.onCourse_opening (prepare_sound hprepare (h.sound hbuilt))
    exact (hopening.leg? hbuilt.wellFormed rfl i hleg).1.inRange hbuilt.wellFormed

/-- After any calls of a builder, failing ones included, its register and its states agree, and what
it mentions by number exists.  In a flow that is then built the tables answer what is found, and no
turn from a reachable session reads anything that does not exist. -/
theorem Builder.play_consistent (calls : List Builder.Call) :
    (Builder.play calls).Consistent ∧
    ∀ flow, (Builder.play calls).build = .ok flow → flow.Consistent ∧
      ∀ s, Session.Reachable flow s → s.InRange flow := by
  refine ⟨(Builder.made_play calls).consistent, fun flow hbuild => ?_⟩
  have hbuilt : flow.Built := ⟨_, Builder.made_play calls, hbuild⟩
  exact ⟨hbuilt.consistent, fun s hs => hs.inRange hbuilt⟩

/-- The last of these calls fails: there is a state with that name. -/
theorem Builder.play_consistent_doubled :
    ∃ flow, (Builder.play [.addTransition (.plain "door") (.plain "hall") .system "hello" 1.0 none,
        .anonymousState {}, .addState (.plain "hall") {}]).build = .ok flow ∧
      flow.stateCount = 3 ∧ flow.Consistent ∧
      (Session.start flow (.mixed 7)).InRange flow := by
  obtain ⟨-, hflow⟩ := Builder.play_consistent
    [.addTransition (.plain "door") (.plain "hall") .system "hello" 1.0 none, .anonymousState {},
      .addState (.plain "hall") {}]
  generalize hb : Builder.play _ = b at hflow ⊢
  have hbuild : b.build.toOption.map (·.stateCount) = some 3 := by
    rw [← hb]
    decide +kernel
  cases hok : b.build with
  | error e =>
    rw [hok] at hbuild
    cases hbuild
  | ok flow =>
    rw [hok] at hbuild
    obtain ⟨hconsistent, hrange⟩ := hflow flow hok
    exact ⟨flow, rfl, Option.some.inj hbuild, hconsistent, hrange _ (.start (.mixed 7))⟩

end Colloquy
