import Mathlib.Data.List.GetD
import Mathlib.Order.Basic
import Colloquy.Proofs.Flow.Changes

/-!
# Well-formed builders and flows

Every builder that is made is well-formed (`Builder.Made.wellFormed`): the states that it mentions
by number exist, and its scores are finite.  So is every flow that is built
(`Flow.Built.wellFormed`).
-/

namespace Colloquy

/-! ### Well-formed builders -/

/-- The states that the builder mentions by number exist, and its scores are finite. -/
structure Builder.WellFormed (b : Builder) : Prop where
  target_lt : ∀ t ∈ b.transitions, t.target < b.states.length
  successor_lt : ∀ node ∈ b.states, ∀ id ∈ node.errorSuccessor, id < b.states.length
  initial_lt : ∀ id ∈ b.initial, id < b.states.length
  fallback_lt : ∀ id ∈ b.fallback, id < b.states.length
  score_finite : ∀ t ∈ b.transitions, t.score.isFinite = true
  rule_score_finite : ∀ rule ∈ b.rules, rule.score.isFinite = true

namespace Builder

theorem WellFormed.fresh : WellFormed {} where
  target_lt := by simp
  successor_lt := by simp
  initial_lt := by simp
  fallback_lt := by simp
  score_finite := by simp
  rule_score_finite := by simp

/-- A further state without error successor keeps a builder well-formed. -/
theorem WellFormed.append {b : Builder} (h : b.WellFormed) (key : StateKey)
    (settings : StateSettings) :
    WellFormed { b with
      register := b.register.enter key
      states := b.states ++ [({ key, settings } : StateNode)] } := by
  have hle : b.states.length ≤ (b.states ++ [({ key, settings } : StateNode)]).length := by simp
  refine ⟨fun t ht => Nat.lt_of_lt_of_le (h.target_lt t ht) hle, ?_,
    fun id hid => Nat.lt_of_lt_of_le (h.initial_lt id hid) hle,
    fun id hid => Nat.lt_of_lt_of_le (h.fallback_lt id hid) hle,
    h.score_finite, h.rule_score_finite⟩
  intro node hnode id hid
  rcases List.mem_append.mp hnode with hold | hnew
  · exact Nat.lt_of_lt_of_le (h.successor_lt node hold id hid) hle
  · rw [List.mem_singleton.mp hnew] at hid
    cases hid

/-- Changing a state keeps a builder well-formed if its error successor still exists. -/
theorem WellFormed.modify {b : Builder} (h : b.WellFormed) (id : StateId)
    {f : StateNode → StateNode}
    (hf : ∀ node ∈ b.states, ∀ i ∈ (f node).errorSuccessor, i < b.states.length) :
    WellFormed { b with states := b.states.modify id f } := by
  have hlen : (b.states.modify id f).length = b.states.length := List.length_modify ..
  refine ⟨?_, ?_, ?_, ?_, h.score_finite, h.rule_score_finite⟩
  · simpa only [hlen] using h.target_lt
  · intro node hnode i hi
    rw [hlen]
    obtain ⟨n, hn⟩ := List.mem_iff_getElem?.mp hnode
    rw [List.getElem?_modify] at hn
    obtain ⟨old, hold, hnew⟩ := Option.map_eq_some_iff.mp hn
    have hmem : old ∈ b.states := List.mem_iff_getElem?.mpr ⟨n, hold⟩
    -- The state that is changed, or one of the others.
    split_ifs at hnew
    · exact hf old hmem i (hnew ▸ hi)
    · exact h.successor_lt old hmem i (hnew ▸ hi)
  · simpa only [hlen] using h.initial_lt
  · simpa only [hlen] using h.fallback_lt

/-- Every change keeps a builder well-formed. -/
theorem Change.wellFormed {b b' : Builder} (h : Change b b') (hb : b.WellFormed) :
    b'.WellFormed := by
  cases h with
  | state key settings => exact hb.append key settings
  | node id f key_eq successor =>
    refine hb.modify id fun node hnode s hs => ?_
    rcases successor node s hs with hold | hlt
    · exact hb.successor_lt node hnode s hold
    · exact hlt
  -- The transitions that were there are as before; the new one leads to a state that exists.
  | transition t source_lt target_lt kept score_finite =>
    refine { hb with target_lt := ?_, score_finite := ?_ }
    · intro t' ht'
      rcases List.mem_append.mp ht' with hold | hnew
      · exact hb.target_lt t' hold
      · rw [List.mem_singleton.mp hnew]
        exact target_lt
    · intro t' ht'
      rcases List.mem_append.mp ht' with hold | hnew
      · exact hb.score_finite t' hold
      · rw [List.mem_singleton.mp hnew]
        exact score_finite
  | rule rule precondition postcondition score_finite =>
    refine { hb with rule_score_finite := ?_ }
    intro rule' hrule
    rcases List.mem_append.mp hrule with hold | hnew
    · exact hb.rule_score_finite rule' hold
    · rw [List.mem_singleton.mp hnew]
      exact score_finite
  | initial id lt =>
    refine { hb with initial_lt := ?_ }
    intro id' hid
    rw [← Option.some.inj hid]
    exact lt
  | fallback id lt =>
    refine { hb with fallback_lt := ?_ }
    intro id' hid
    rw [← Option.some.inj hid]
    exact lt
  | read | setup => exact { hb with }

theorem Made.wellFormed {b : Builder} (h : b.Made) : b.WellFormed :=
  h.induct .fresh fun _ _ hchange hb => hchange.wellFormed hb

end Builder

/-! ### Well-formed flows -/

/-- The states that the flow mentions by number exist, and its scores are finite. -/
structure Flow.WellFormed (flow : Flow) : Prop where
  target_lt : ∀ t ∈ flow.transitions, t.target < flow.stateCount
  successor_lt : ∀ id, ∀ s ∈ (flow.node id).errorSuccessor, s < flow.stateCount
  initial_lt : flow.initial < flow.stateCount
  fallback_lt : ∀ id ∈ flow.fallback, id < flow.stateCount
  score_finite : ∀ t ∈ flow.transitions, t.score.isFinite = true
  rule_score_finite : ∀ rule ∈ flow.rules, rule.score.isFinite = true

theorem Flow.lookup_lt {flow : Flow} {key : StateKey} {id : StateId}
    (h : flow.lookup key = some id) : id < flow.stateCount :=
  (List.findIdx?_eq_some_iff_getElem.mp h).1

theorem Flow.Built.wellFormed {flow : Flow} (h : flow.Built) : flow.WellFormed := by
  obtain ⟨b, hmade, hbuild⟩ := h
  have hb := hmade.wellFormed
  -- Whatever the initial state, the flow takes the rest over from the builder.
  obtain ⟨initial, rfl, hinitial⟩ := Builder.build_eq_ok hbuild
  refine ⟨hb.target_lt, fun id s hs => ?_, ?_, hb.fallback_lt, hb.score_finite,
    hb.rule_score_finite⟩
  · rcases Nat.lt_or_ge id b.states.length with hlt | hge
    · refine hb.successor_lt b.states[id] (List.getElem_mem hlt) s ?_
      simpa only [Flow.node, Flow.ofBuilder, List.getD_eq_getElem _ _ hlt] using hs
    · rw [Flow.node, Flow.ofBuilder, List.getD_eq_default _ _ hge] at hs
      cases hs
  · rcases hinitial with hinitial | ⟨-, hne, rfl⟩
    · exact hb.initial_lt initial hinitial
    · exact List.length_pos_iff.mpr hne

/-! ### A small flow -/

/-- The builder of a conversation in which the system greets, once for each guest. -/
def Builder.greeting : Builder :=
  ((Builder.Call.addTransition (.plain "door") (.plain "hall") .system "hello" 1.0
    (some ["guest"])).run {}).2

/-- A conversation in which the system greets, once for each guest. -/
def Flow.greeting : Flow :=
  { states := Builder.greeting.states, transitions := Builder.greeting.transitions
    rules := Builder.greeting.rules, macros := Builder.greeting.macros
    cache := Builder.greeting.cache, options := Builder.greeting.options, initial := 0
    initialSpeaker := Builder.greeting.initialSpeaker, fallback := Builder.greeting.fallback }

theorem Flow.greeting_built : Flow.greeting.Built :=
  ⟨Builder.greeting, .call _ .fresh, rfl⟩

/-- The system welcomes each guest once into the hall and goes on from there, not to the tower but,
as it asks for itself, to the garden; from the garden the user comes back to the porch. -/
def Builder.tour : Builder :=
  [Builder.Call.addTransition (.plain "porch") (.plain "hall") .system "welcome" 1.0
      (some ["guest"]),
    .setStateSettings (.plain "hall") { systemMultiHop := true },
    .addTransition (.plain "hall") (.plain "tower") .system "[!this way, #TARGET(garden)]" 1.0 none,
    .addTransition (.plain "garden") (.plain "porch") .user "again" 1.0 none,
    .setInitialSpeaker .system].foldl (fun b c => (c.run b).2) {}

/-- A conversation with a gate, a hop and a transition that is led elsewhere. -/
def Flow.tour : Flow := .ofBuilder .tour

theorem Flow.tour_built : Flow.tour.Built :=
  ofBuilder_built (.calls .fresh _) (by decide +kernel) (by decide +kernel)

end Colloquy
