import Mathlib.Data.List.TakeWhile
import Colloquy.Proofs.Flow.WellFormed

/-!
# States and their names

A text names the namespaced key of its two sides if its first colon splits it into two
(`StateKey.Splits`), and the plain key of itself otherwise.  The key that it names is written as the
text (`StateKey.render_ofString`).  The keys that texts name are the canonical ones
(`StateKey.exists_ofString_eq_iff`).

No two states of a flow that was built have the same key (`Flow.Built.nodup_keys`), since the
register of its builder leads from a key to one state only, so a state is found by its key
(`Flow.Built.lookup_key`).  In a flow whose states were all named by texts, what the key of a state
is written as names that state (`Flow.Built.names_render`).
-/

namespace Colloquy

namespace StateKey

/-! ### Texts and keys -/

theorem render_ofString (s : String) : (ofString s).render = s := by
  unfold ofString
  dsimp only
  split
  · rename_i c cs d ds hspace hname
    -- The two parts and the colon between them are the text.
    have hsplit : s.toList = c :: cs ++ ':' :: d :: ds := by
      rw [← hspace, ← hname, List.takeWhile_append_dropWhile]
    rw [render, ← String.toList_inj, String.toList_append, String.toList_append,
      String.toList_ofList, String.toList_ofList, hsplit]
    simp
  · rfl

/-- No two texts name one key. -/
theorem ofString_injective : Function.Injective ofString := by
  intro a b h
  rw [← render_ofString a, h, render_ofString]

/-! ### Splitting at the first colon -/

/-- The first colon of the text splits it into these two sides, neither of them empty. -/
structure Splits (s space name : String) : Prop where
  eq : s = space ++ ":" ++ name
  space_ne : space ≠ ""
  name_ne : name ≠ ""
  colon_notMem : ':' ∉ space.toList

theorem Splits.toList_eq {s space name : String} (h : Splits s space name) :
    s.toList = space.toList ++ ':' :: name.toList := by
  rw [h.eq, String.toList_append, String.toList_append, List.append_assoc]
  rfl

theorem ofString_of_splits {s space name : String} (h : Splits s space name) :
    ofString s = namespaced space name := by
  have hbefore : ∀ c ∈ space.toList, (c != ':') = true := by
    intro c hc
    rw [bne_iff_ne]
    rintro rfl
    exact h.colon_notMem hc
  have htake : s.toList.takeWhile (· != ':') = space.toList := by
    rw [h.toList_eq, List.takeWhile_append_of_pos hbefore, List.takeWhile_cons_of_neg (by decide),
      List.append_nil]
  have hdrop : s.toList.dropWhile (· != ':') = ':' :: name.toList := by
    rw [h.toList_eq, List.dropWhile_append_of_pos hbefore, List.dropWhile_cons_of_neg (by decide)]
  obtain ⟨c, cs, hspace⟩ := List.exists_cons_of_ne_nil (mt String.toList_eq_nil_iff.mp h.space_ne)
  obtain ⟨d, ds, hname⟩ := List.exists_cons_of_ne_nil (mt String.toList_eq_nil_iff.mp h.name_ne)
  rw [ofString, htake, hdrop, hspace, hname]
  show namespaced (String.ofList (c :: cs)) (String.ofList (d :: ds)) = _
  rw [← hspace, ← hname, String.ofList_toList, String.ofList_toList]

theorem ofString_of_not_splits {s : String} (h : ∀ space name, ¬ Splits s space name) :
    ofString s = plain s := by
  rw [ofString]
  split
  · rename_i c cs d ds hspace hname
    refine absurd ⟨?_, ?_, ?_, ?_⟩ (h (String.ofList (c :: cs)) (String.ofList (d :: ds)))
    · rw [← String.toList_inj, String.toList_append, String.toList_append]
      simp only [String.toList_ofList, List.append_assoc]
      show s.toList = _ ++ ':' :: d :: ds
      rw [← hspace, ← hname, List.takeWhile_append_dropWhile]
    · exact fun hempty => by simpa using congrArg String.toList hempty
    · exact fun hempty => by simpa using congrArg String.toList hempty
    · rw [String.toList_ofList, ← hspace]
      intro hcolon
      simpa using List.mem_takeWhile_imp hcolon
  · rfl

/-! ### Canonical keys -/

/-- The key is plain and its text does not split, or it is namespaced, of two parts that are not
empty, and there is no colon in the namespace. -/
def Canonical : StateKey → Prop
  | plain text => ¬ ∃ space name, Splits text space name
  | namespaced space name => space ≠ "" ∧ name ≠ "" ∧ ':' ∉ space.toList

theorem canonical_ofString (s : String) : (ofString s).Canonical := by
  by_cases h : ∃ space name, Splits s space name
  · obtain ⟨space, name, hsplits⟩ := h
    rw [ofString_of_splits hsplits]
    exact ⟨hsplits.space_ne, hsplits.name_ne, hsplits.colon_notMem⟩
  · rw [ofString_of_not_splits fun space name hsplits => h ⟨space, name, hsplits⟩]
    exact h

/-- A canonical key is named by what it is written as. -/
theorem Canonical.ofString_render {key : StateKey} (h : key.Canonical) :
    ofString key.render = key := by
  cases key with
  | plain text => exact ofString_of_not_splits fun space name hsplits => h ⟨space, name, hsplits⟩
  | namespaced space name =>
    obtain ⟨hspace, hname, hcolon⟩ := h
    exact ofString_of_splits ⟨rfl, hspace, hname, hcolon⟩

theorem exists_ofString_eq_iff {key : StateKey} : (∃ s, ofString s = key) ↔ key.Canonical := by
  constructor
  · rintro ⟨s, rfl⟩
    exact canonical_ofString s
  · exact fun h => ⟨key.render, h.ofString_render⟩

end StateKey

/-! ### Texts and states -/

/-- The text names a state of the flow. -/
def Flow.Names (flow : Flow) (text : String) : Prop :=
  ∃ node ∈ flow.states, node.key = .ofString text

/-- All states of the flow were named by texts. -/
def Flow.Named (flow : Flow) : Prop :=
  ∀ node ∈ flow.states, ∃ text, node.key = .ofString text

/-! ### Distinct keys -/

/-- No two states have the same key. -/
theorem Builder.Made.nodup_keys {b : Builder} (h : b.Made) : (b.states.map (·.key)).Nodup :=
  Register.Lists.nodup h.indexed

theorem StateNode.find?_eq_none_iff {states : List StateNode} {key : StateKey} :
    StateNode.find? states key = none ↔ key ∉ states.map (·.key) := by
  rw [StateNode.find?, List.findIdx?_eq_none_iff, List.mem_map]
  constructor
  · rintro h ⟨node, hnode, rfl⟩
    simpa using h node hnode
  · intro h node hnode
    simpa using fun heq => h ⟨node, hnode, heq⟩

/-- Where keys are distinct, a key is found in the place in which it stands. -/
theorem StateNode.find?_eq_some_iff {states : List StateNode}
    (hnodup : (states.map (·.key)).Nodup) {key : StateKey} {id : StateId} :
    StateNode.find? states key = some id ↔ (states.map (·.key))[id]? = some key := by
  have hplaces : StateNode.find? states key = (states.map (·.key)).findIdx? (· == key) := by
    rw [StateNode.find?, List.findIdx?_map]
    rfl
  rw [hplaces, List.findIdx?_eq_some_iff_getElem]
  constructor
  · rintro ⟨hid, hkey, -⟩
    rw [List.getElem?_eq_getElem hid, beq_iff_eq.mp hkey]
  · intro hkey
    obtain ⟨hid, rfl⟩ := List.getElem?_eq_some_iff.mp hkey
    refine ⟨hid, beq_self_eq_true _, fun j hj heq => ?_⟩
    -- An earlier place of the key would be another one.
    exact Nat.ne_of_lt hj ((List.Nodup.getElem_inj_iff hnodup).mp (beq_iff_eq.mp heq))

namespace Flow

variable {flow : Flow}

/-- No two states of a flow that was built have the same key. -/
theorem Built.nodup_keys (h : flow.Built) : (flow.states.map (·.key)).Nodup := by
  obtain ⟨b, hmade, hbuild⟩ := h
  obtain ⟨initial, rfl, -⟩ := Builder.build_eq_ok hbuild
  exact hmade.nodup_keys

/-! ### Finding states -/

theorem key_eq {id : StateId} {node : StateNode} (h : flow.states[id]? = some node) :
    flow.key id = node.key := by
  rw [key, Flow.node, List.getD_eq_getElem?_getD, h, Option.getD_some]

theorem key_of_lookup {key : StateKey} {id : StateId} (h : flow.lookup key = some id) :
    flow.key id = key := by
  obtain ⟨hlt, heq, -⟩ := List.findIdx?_eq_some_iff_getElem.mp h
  rw [key_eq (List.getElem?_eq_getElem hlt)]
  simpa using heq

/-- A state is found by its key. -/
theorem Built.lookup_key (h : flow.Built) {id : StateId} (hid : id < flow.stateCount) :
    flow.lookup (flow.key id) = some id := by
  have hnode := List.getElem?_eq_getElem hid
  rw [lookup, StateNode.find?_eq_some_iff h.nodup_keys, List.getElem?_map, hnode, key_eq hnode]
  rfl

/-- The state that a text names; the first one if it names none. -/
def stateOf (flow : Flow) (text : String) : StateId :=
  (flow.lookup (.ofString text)).getD 0

theorem Names.lookup {text : String} (h : flow.Names text) :
    flow.lookup (.ofString text) = some (flow.stateOf text) := by
  obtain ⟨node, hnode, hkey⟩ := h
  have hfound : (flow.lookup (.ofString text)).isSome = true := by
    rw [Flow.lookup, StateNode.find?, List.findIdx?_isSome, List.any_eq_true]
    exact ⟨node, hnode, by simpa using hkey⟩
  obtain ⟨id, hid⟩ := Option.isSome_iff_exists.mp hfound
  rw [stateOf, hid, Option.getD_some]

theorem lookup_eq_none {text : String} (h : ¬ flow.Names text) :
    flow.lookup (.ofString text) = none := by
  rw [lookup, StateNode.find?_eq_none_iff, List.mem_map]
  exact fun ⟨node, hnode, hkey⟩ => h ⟨node, hnode, hkey⟩

/-- Written out, the key of the state that a text names is the text. -/
theorem Names.render_key {text : String} (h : flow.Names text) :
    (flow.key (flow.stateOf text)).render = text := by
  rw [key_of_lookup h.lookup, StateKey.render_ofString]

/-- What the key of a state is written as names the state. -/
theorem Built.names_render (h : flow.Built) (hnamed : flow.Named) {id : StateId}
    (hid : id < flow.stateCount) :
    flow.Names (flow.key id).render ∧ flow.stateOf (flow.key id).render = id := by
  obtain ⟨text, htext⟩ := hnamed _ (List.getElem_mem hid)
  have hkey : flow.key id = .ofString text := (key_eq (List.getElem?_eq_getElem hid)).trans htext
  rw [hkey, StateKey.render_ofString]
  refine ⟨⟨_, List.getElem_mem hid, htext⟩, ?_⟩
  rw [stateOf, ← hkey, h.lookup_key hid, Option.getD_some]

end Flow

end Colloquy
