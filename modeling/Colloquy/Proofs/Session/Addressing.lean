import Mathlib
import Colloquy.Proofs.Flow.Names
import Colloquy.Proofs.Session.Viable
import Colloquy.Session.Snapshot

/-!
# Which keys texts can name

Written out, a key gives the text back that named it, so no two texts name one key.  The keys that
texts name are the canonical ones: a plain key whose text does not split at a colon, and a
namespaced key that is split where it was joined.

Redirects and snapshots name states by texts.  In a flow that was built, a text leads them to the
state whose key is canonical and written as that text, and to no other
(`StateKey.ofString_faithful`).  A state whose key is not canonical, as only a host can make it, is
out of their reach.
-/

namespace Colloquy

open Macro (targetKey)

/-! ### Addressing states -/

/-- The text addresses the state: this has a canonical key, which is written as the text. -/
structure Flow.Addresses (flow : Flow) (text : String) (id : StateId) : Prop where
  lt : id < flow.stateCount
  canonical : (flow.key id).Canonical
  render_eq : (flow.key id).render = text

/-- The state that a text names is the one that it addresses. -/
theorem Flow.Built.lookup_ofString_iff {flow : Flow} (h : flow.Built) {text : String}
    {id : StateId} : flow.lookup (.ofString text) = some id ↔ flow.Addresses text id := by
  constructor
  · intro hlookup
    have hkey := Flow.key_of_lookup hlookup
    refine ⟨Flow.lookup_lt hlookup, ?_, ?_⟩
    · rw [hkey]
      exact StateKey.canonical_ofString text
    · rw [hkey, StateKey.render_ofString]
  · rintro ⟨hlt, hcanonical, rfl⟩
    rw [hcanonical.ofString_render]
    exact h.lookup_key hlt

namespace StateKey

/-- Texts name states faithfully.  A text is what the key that it names is written as, so different
texts name different keys; and a key is named by what it is written as just if some text names it,
that is, if it is canonical.  The states that a snapshot names, and those that a redirect asks for,
are therefore the ones whose canonical keys are written so. -/
theorem ofString_faithful :
    (∀ s, (ofString s).render = s) ∧ Function.Injective ofString ∧
    (∀ key, ofString key.render = key ↔ ∃ s, ofString s = key) ∧
    (∀ key, (∃ s, ofString s = key) ↔ key.Canonical) ∧
    ∀ given : TurnSetting, given.flow.Built → ∀ text id,
      (Snapshot.resolveState given.flow text = .ok id ↔ given.flow.Addresses text id) ∧
      ∀ target vars vars', vars.get? targetKey = some text →
        (given.redirect target vars = .ok (id, vars') ↔
          given.flow.Addresses text id ∧ vars' = vars.erase targetKey) := by
  refine ⟨render_ofString, ofString_injective, fun key => ⟨fun h => ⟨_, h⟩, ?_⟩,
    fun key => exists_ofString_eq_iff, fun given hbuilt text id => ⟨?_, ?_⟩⟩
  · exact fun h => (exists_ofString_eq_iff.mp h).ofString_render
  · rw [← hbuilt.lookup_ofString_iff, Snapshot.resolveState]
    cases given.flow.lookup (.ofString text) <;> simp
  · intro target vars vars' hrequest
    rw [← hbuilt.lookup_ofString_iff, TurnSetting.redirect, hrequest]
    dsimp only
    cases given.flow.lookup (.ofString text) with
    | none => simp
    | some found => simp [eq_comm]

end StateKey

/-- A flow with a state in a namespace, one whose name is a colon, and one that only its maker could
name so. -/
def Builder.harbour : Builder :=
  [Builder.Call.state (.ofString "quay:north"), .state (.plain ":"),
    .state (.namespaced "quay:north" "shed")].foldl (fun b c => (c.run b).2) {}

def Flow.harbour : Flow := .ofBuilder .harbour

theorem Flow.harbour_built : Flow.harbour.Built :=
  ofBuilder_built (.calls .fresh _) (by decide +kernel) (by decide +kernel)

/-- The first two states are addressed by what they are called, the colon also in a redirect; the
third one cannot be addressed at all. -/
theorem StateKey.ofString_faithful_harbour :
    let vars : Bindings := SortedMap.empty.insert targetKey ":"
    Snapshot.resolveState .harbour "quay:north" = .ok 0 ∧
      (TurnSetting.mk .harbour .system .silence).redirect 0 vars = .ok (1, vars.erase targetKey) ∧
      ∀ text, Snapshot.resolveState .harbour text ≠ .ok 2 := by
  intro vars
  have hstates := ofString_faithful.2.2.2.2 (.mk .harbour .system .silence) Flow.harbour_built
  have hcolon : (plain ":").Canonical := by
    rintro ⟨space, name, hsplits⟩
    have hlength := congrArg List.length hsplits.toList_eq
    rw [List.length_append, List.length_cons] at hlength
    have hspace := List.length_pos_iff.mpr (mt String.toList_eq_nil_iff.mp hsplits.space_ne)
    change 1 = _ at hlength
    omega
  refine ⟨?_, ?_, fun text h => ?_⟩
  · apply (hstates "quay:north" 0).1.mpr
    exact ⟨by decide +kernel, canonical_ofString "quay:north", by decide +kernel⟩
  · apply ((hstates ":" 1).2 0 vars _ (by decide +kernel)).mpr
    have hkey : Flow.harbour.key 1 = plain ":" := by decide +kernel
    exact ⟨⟨by decide +kernel, hkey ▸ hcolon, hkey ▸ rfl⟩, rfl⟩
  · have hcanonical := ((hstates text 2).1.mp h).canonical
    have hkey : Flow.harbour.key 2 = namespaced "quay:north" "shed" := by decide +kernel
    rw [hkey] at hcanonical
    exact hcanonical.2.2 (by decide)

end Colloquy
