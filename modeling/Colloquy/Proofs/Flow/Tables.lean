import Mathlib.Logic.Function.Basic
import Colloquy.Proofs.Flow.Names

/-!
# Numbers, keys and tables

A builder keeps a register of its states so that they need not be searched.  Every state draws its
number there when it comes into being and is entered under its key.  After any calls
(`Builder.play`), the register and the states agree (`Builder.Consistent`): the states have the
numbers from zero on, and looking up a key and reading the key of a state are inverse to each other.

A flow has its tables made anew: `Register.ofKeys` enters the keys of the states one after the
other, and `adjacency` lists for each state and speaker the places of the transitions.  Both answer
what the flow finds by searching (`Flow.Consistent`).
-/

namespace Colloquy

/-- What the register answers is what a search finds. -/
theorem Register.Lists.index_eq {r : Register} {states : List StateNode}
    (h : r.Lists (states.map (·.key))) (key : StateKey) :
    r.index key = StateNode.find? states key := by
  refine Option.ext fun id => ?_
  rw [h.index_iff, StateNode.find?_eq_some_iff h.nodup]

/-! ### Builders -/

namespace Builder

/-- What a builder mentions by number exists, and its expressions have been read. -/
structure Kept (b : Builder) : Prop where
  source_lt : ∀ t ∈ b.transitions, t.source < b.states.length
  parsed : ∀ grammar phrase, b.cache.Keeps grammar phrase →
    Expr.parse grammar phrase.source = .ok phrase.tree
  transition : ∀ t ∈ b.transitions, b.cache.Keeps t.speaker.grammar t.phrase
  guard : ∀ node ∈ b.states, ∀ guard ∈ node.enter, b.cache.Keeps .generation guard
  precondition : ∀ rule ∈ b.rules, b.cache.Keeps .matching rule.precondition
  postcondition : ∀ rule ∈ b.rules, ∀ phrase ∈ rule.postcondition,
    b.cache.Keeps .generation phrase

theorem Kept.fresh : Kept {} := by
  constructor <;> simp [ParseCache.Keeps, ParseCache.empty]

/-- Every change keeps what has been read, and what it adds has been read. -/
theorem Change.keeps {b b' : Builder} (h : Change b b') (hb : b.Kept) : b'.Kept := by
  have hkept : ∀ {grammar phrase}, b.cache.Keeps grammar phrase → b'.cache.Keeps grammar phrase :=
    h.kept
  cases h with
  | state key settings =>
    refine { hb with source_lt := ?_, guard := ?_ }
    · intro t ht
      rw [List.length_append]
      exact Nat.lt_add_right _ (hb.source_lt t ht)
    · intro node hnode guard hguard
      rcases List.mem_append.mp hnode with hold | hnew
      · exact hb.guard node hold guard hguard
      · rw [List.mem_singleton.mp hnew] at hguard
        cases hguard
  -- The state that is changed keeps its guard or gets one that has been read; the others keep
  -- theirs.
  | node id f key_eq successor enter =>
    refine { hb with source_lt := ?_, guard := ?_ }
    · rw [List.length_modify]
      exact hb.source_lt
    · intro node hnode guard hguard
      obtain ⟨n, hn⟩ := List.mem_iff_getElem?.mp hnode
      rw [List.getElem?_modify] at hn
      obtain ⟨old, hold, rfl⟩ := Option.map_eq_some_iff.mp hn
      have hmem : old ∈ b.states := List.mem_of_getElem? hold
      split_ifs at hguard with hid
      · rcases enter old guard hguard with hguard | hkeeps
        · exact hb.guard old hmem guard hguard
        · exact hkeeps
      · exact hb.guard old hmem guard hguard
  -- Only here does the cache grow, by a source with its tree.
  | read grammar source tree parsed =>
    refine ⟨hb.source_lt, ?_, fun t ht => hkept (hb.transition t ht),
      fun node hnode guard hguard => hkept (hb.guard node hnode guard hguard),
      fun rule hrule => hkept (hb.precondition rule hrule),
      fun rule hrule phrase hphrase => hkept (hb.postcondition rule hrule phrase hphrase)⟩
    intro grammar' phrase hphrase
    rcases List.mem_append.mp hphrase with hold | hnew
    · exact hb.parsed grammar' phrase hold
    · obtain ⟨hkey, htree⟩ := Prod.mk.inj (List.mem_singleton.mp hnew)
      obtain ⟨rfl, rfl⟩ := Prod.mk.inj hkey
      rw [htree]
      exact parsed
  | transition t source_lt target_lt kept score_finite =>
    refine { hb with source_lt := ?_, transition := ?_ }
    · intro t' ht'
      rcases List.mem_append.mp ht' with hold | hnew
      · exact hb.source_lt t' hold
      · rw [List.mem_singleton.mp hnew]
        exact source_lt
    · intro t' ht'
      rcases List.mem_append.mp ht' with hold | hnew
      · exact hb.transition t' hold
      · rw [List.mem_singleton.mp hnew]
        exact kept
  | rule rule precondition postcondition =>
    refine { hb with precondition := ?_, postcondition := ?_ }
    · intro rule' hrule
      rcases List.mem_append.mp hrule with hold | hnew
      · exact hb.precondition rule' hold
      · rw [List.mem_singleton.mp hnew]
        exact precondition
    · intro rule' hrule
      rcases List.mem_append.mp hrule with hold | hnew
      · exact hb.postcondition rule' hold
      · rw [List.mem_singleton.mp hnew]
        exact postcondition
  -- Neither the cache nor anything that refers to it is touched.
  | initial | fallback | setup => exact { hb with }

theorem Made.kept {b : Builder} (h : b.Made) : b.Kept :=
  h.induct .fresh fun _ _ hchange hb => hchange.keeps hb

/-- The builder after some calls in a row, failing ones included. -/
def play (calls : List Call) : Builder :=
  calls.foldl (fun b c => (c.run b).2) {}

theorem play_concat (calls : List Call) (c : Call) :
    play (calls ++ [c]) = (c.run (play calls)).2 := by
  rw [play, List.foldl_append]
  rfl

theorem made_play (calls : List Call) : (play calls).Made :=
  .calls .fresh calls

/-- The register and the states agree, what is mentioned by number exists, what is said is an
expression of the right grammar, and scores are finite. -/
structure Consistent (b : Builder) : Prop where
  /-- As many numbers have been drawn as there are states. -/
  next_eq : b.register.next = b.states.length
  /-- Looking up the key of a state gives the state. -/
  index_key : ∀ id node, b.states[id]? = some node → b.register.index node.key = some id
  /-- What is looked up is a state with the key. -/
  key_index : ∀ key id, b.register.index key = some id →
    (b.states[id]?).map (·.key) = some key
  nodup_keys : (b.states.map (·.key)).Nodup
  /-- The register answers what a search among the states finds. -/
  find?_eq : ∀ key, StateNode.find? b.states key = b.register.index key
  /-- A further call leaves the states in their places and adds others behind them. -/
  stays : ∀ c : Call, b.states.map (·.key) <+: (c.run b).2.states.map (·.key)
  source_lt : ∀ t ∈ b.transitions, t.source < b.states.length
  target_lt : ∀ t ∈ b.transitions, t.target < b.states.length
  successor_lt : ∀ node ∈ b.states, ∀ id ∈ node.errorSuccessor, id < b.states.length
  initial_lt : ∀ id ∈ b.initial, id < b.states.length
  fallback_lt : ∀ id ∈ b.fallback, id < b.states.length
  user_matches : ∀ t ∈ b.transitions, t.speaker = .user →
    Expr.parse .matching t.phrase.source = .ok t.phrase.tree
  system_generates : ∀ t ∈ b.transitions, t.speaker = .system →
    Expr.parse .generation t.phrase.source = .ok t.phrase.tree
  guard_generates : ∀ node ∈ b.states, ∀ guard ∈ node.enter,
    Expr.parse .generation guard.source = .ok guard.tree
  precondition_matches : ∀ rule ∈ b.rules,
    Expr.parse .matching rule.precondition.source = .ok rule.precondition.tree
  postcondition_generates : ∀ rule ∈ b.rules, ∀ phrase ∈ rule.postcondition,
    Expr.parse .generation phrase.source = .ok phrase.tree
  score_finite : ∀ t ∈ b.transitions, t.score.isFinite = true
  rule_score_finite : ∀ rule ∈ b.rules, rule.score.isFinite = true

theorem Made.consistent {b : Builder} (hmade : b.Made) : b.Consistent := by
  have hlists : b.register.Lists _ := hmade.indexed
  have hwf := hmade.wellFormed
  have hkept := hmade.kept
  exact {
    hwf with
    next_eq := hmade.indexed.next_eq
    index_key := by
      intro id node hnode
      rw [hlists.index_iff, List.getElem?_map, hnode]
      rfl
    key_index := by
      intro key id hid
      rw [← List.getElem?_map, ← hlists.index_iff, hid]
    nodup_keys := hmade.nodup_keys
    find?_eq := fun key => (hlists.index_eq key).symm
    stays := fun c => (c.run_goes hmade.indexed).changes.keys
    source_lt := hkept.source_lt
    -- A phrase is kept for the grammar that it was read in, which is that of the speaker.
    user_matches := by
      intro t ht huser
      have hphrase := hkept.transition t ht
      rw [huser] at hphrase
      exact hkept.parsed _ _ hphrase
    system_generates := by
      intro t ht hsystem
      have hphrase := hkept.transition t ht
      rw [hsystem] at hphrase
      exact hkept.parsed _ _ hphrase
    guard_generates := fun node hnode guard hguard =>
      hkept.parsed _ _ (hkept.guard node hnode guard hguard)
    precondition_matches := fun rule hrule => hkept.parsed _ _ (hkept.precondition rule hrule)
    postcondition_generates := fun rule hrule phrase hphrase =>
      hkept.parsed _ _ (hkept.postcondition rule hrule phrase hphrase) }

end Builder

/-! ### Flows -/

/-- The places of the transitions, by the states that they leave and the speakers who take them. -/
def adjacency (transitions : List Transition) : StateId × Speaker → List Nat :=
  transitions.zipIdx.foldl (fun table (t, i) =>
    Function.update table (t.source, t.speaker) (table (t.source, t.speaker) ++ [i])) fun _ => []

/-- The table lists the places of the transitions, each of which counts from `start`. -/
theorem adjacency_from (transitions : List Transition) (state : StateId) (speaker : Speaker) :
    ∀ (start : Nat) (table : StateId × Speaker → List Nat),
      ((transitions.zipIdx start).foldl (fun table (t, i) => Function.update table
        (t.source, t.speaker) (table (t.source, t.speaker) ++ [i])) table) (state, speaker) =
      table (state, speaker) ++ ((transitions.zipIdx start).filter fun (t, _) =>
        t.source == state && t.speaker == speaker).map (·.2) := by
  induction transitions with
  | nil =>
    intro start table
    exact (List.append_nil _).symm
  | cons t transitions ih =>
    intro start table
    rw [List.zipIdx_cons, List.foldl_cons, ih, List.filter_cons]
    -- The transition belongs to this state and speaker, and is the next of theirs, or to another
    -- row of the table.
    by_cases hkey : (state, speaker) = (t.source, t.speaker)
    · obtain ⟨rfl, rfl⟩ := Prod.mk.inj hkey
      simp
    · have hne : (t.source == state && t.speaker == speaker) = false := by
        rw [Prod.mk.injEq, not_and_or] at hkey
        rcases hkey with h | h
        · simp [Ne.symm h]
        · simp [Ne.symm h]
      simp [Function.update_of_ne hkey, hne]

theorem adjacency_eq (transitions : List Transition) (state : StateId) (speaker : Speaker) :
    adjacency transitions (state, speaker) = (transitions.zipIdx.filter fun (t, _) =>
      t.source == state && t.speaker == speaker).map (·.2) := by
  rw [adjacency, adjacency_from, List.nil_append]

namespace Flow

/-- The tables of the flow answer what it finds by searching. -/
structure Consistent (flow : Flow) : Prop where
  /-- A state is found by its key. -/
  lookup_key : ∀ id < flow.stateCount, flow.lookup (flow.key id) = some id
  /-- What is looked up in the table of the keys is what is found. -/
  index_eq : ∀ key, (Register.ofKeys (flow.states.map (·.key))).index key = flow.lookup key
  /-- In the places that are listed for a state and a speaker stand the transitions that the speaker
  can take out of the state, in the same order. -/
  places_eq : ∀ state speaker,
    (adjacency flow.transitions (state, speaker)).map (flow.transitions[·]?) =
      (flow.outgoing state speaker).map some
  /-- The place of a transition is listed for its state and speaker, and for no others. -/
  mem_places_iff : ∀ state speaker i, i ∈ adjacency flow.transitions (state, speaker) ↔
    ∃ t, flow.transitions[i]? = some t ∧ t.source = state ∧ t.speaker = speaker
  /-- Each place is listed once, and they are listed in the order of the transitions. -/
  places_ascend : ∀ state speaker,
    (adjacency flow.transitions (state, speaker)).Pairwise (· < ·)

theorem Built.consistent {flow : Flow} (h : flow.Built) : flow.Consistent where
  lookup_key := fun id hid => h.lookup_key hid
  index_eq := (Register.lists_ofKeys h.nodup_keys).index_eq
  places_eq := by
    intro state speaker
    -- A place in the table leads to the transition that it was made for.
    have hplaces : ∀ x ∈ flow.transitions.zipIdx.filter fun (t, _) =>
        t.source == state && t.speaker == speaker,
        ((flow.transitions[·]?) ∘ Prod.snd) x = (some ∘ Prod.fst) x := by
      intro x hx
      exact List.mem_zipIdx_iff_getElem?.mp (List.mem_of_mem_filter hx)
    rw [adjacency_eq, List.map_map, List.map_congr_left hplaces, ← List.map_map, outgoing]
    congr 1
    calc (flow.transitions.zipIdx.filter _).map Prod.fst
        = (flow.transitions.zipIdx.map Prod.fst).filter fun t =>
            t.source == state && t.speaker == speaker := List.filter_map.symm
      _ = flow.transitions.filter fun t => t.source == state && t.speaker == speaker := by
            rw [List.zipIdx_map_fst]
  mem_places_iff := by
    intro state speaker i
    rw [adjacency_eq]
    simp [List.mem_zipIdx_iff_getElem?]
  places_ascend := by
    intro state speaker
    -- All places ascend, so those of a row do.
    have hall : (flow.transitions.zipIdx.map Prod.snd).Pairwise (· < ·) := by
      rw [List.zipIdx_map_snd]
      exact List.pairwise_lt_range'
    rw [adjacency_eq]
    exact hall.sublist (List.filter_sublist.map _)

end Flow

end Colloquy
