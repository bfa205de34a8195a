import Mathlib.Data.List.Nodup
import Mathlib.Data.List.Perm.Subperm
import Mathlib.Tactic.SplitIfs
import Colloquy.Flow.Builder

/-!
# Registers

A register that has states with certain keys (`Register.Lists`) has handed out the numbers from zero
on, and leads from a key to the number of the place in which the key stands.  So no key stands
there twice (`Register.Lists.nodup`), and a key that leads nowhere stands nowhere
(`Register.Lists.index_eq_none_iff`).  Entering a key that leads nowhere puts it behind the others
(`Register.Lists.enter`).

Among one more keys for nameless states than there are states, one leads nowhere
(`Register.Lists.exists_free`).
-/

namespace Colloquy

namespace Register

variable {r : Register} {keys : List StateKey} {key other : StateKey} {id : StateId}

/-! ### Entering a key -/

@[simp]
theorem enter_next (r : Register) (key : StateKey) : (r.enter key).next = r.next + 1 :=
  rfl

@[simp]
theorem enter_index_self (r : Register) (key : StateKey) :
    (r.enter key).index key = some r.next :=
  if_pos rfl

theorem enter_index_of_ne (h : other ≠ key) : (r.enter key).index other = r.index other :=
  if_neg h

/-! ### What a register lists -/

/-- The register has the states with these keys, in their order. -/
structure Lists (r : Register) (keys : List StateKey) : Prop where
  next_eq : r.next = keys.length
  index_iff : ∀ key id, r.index key = some id ↔ keys[id]? = some key

theorem lists_empty : Lists {} [] :=
  ⟨rfl, fun _ _ => iff_of_false nofun nofun⟩

namespace Lists

/-- What a key leads to has been handed out. -/
theorem lt (h : r.Lists keys) (hid : r.index key = some id) : id < keys.length :=
  (List.getElem?_eq_some_iff.mp ((h.index_iff key id).mp hid)).1

theorem index_eq_none_iff (h : r.Lists keys) : r.index key = none ↔ key ∉ keys := by
  rw [Option.eq_none_iff_forall_ne_some, List.mem_iff_getElem?, not_exists]
  exact forall_congr' fun id => not_congr (h.index_iff key id)

/-- A key leads to one place only, so it stands in one place only. -/
theorem nodup (h : r.Lists keys) : keys.Nodup := by
  refine List.nodup_iff_getElem?_ne_getElem?.mpr fun i j hij hj heq => ?_
  have hi : keys[i]? = some keys[j] := by rw [heq, List.getElem?_eq_getElem hj]
  have hboth := ((h.index_iff _ i).mpr hi).symm.trans
    ((h.index_iff _ j).mpr (List.getElem?_eq_getElem hj))
  exact Nat.ne_of_lt hij (Option.some.inj hboth)

/-- One more state, with a key of its own. -/
theorem enter (h : r.Lists keys) (hnew : r.index key = none) :
    (r.enter key).Lists (keys ++ [key]) where
  next_eq := by rw [enter_next, h.next_eq, List.length_append, List.length_singleton]
  index_iff := by
    intro other id
    by_cases hkey : other = key
    · subst hkey
      rw [enter_index_self, Option.some.injEq, h.next_eq, List.getElem?_append]
      split_ifs with hlt
      · -- The key does not stand among the earlier ones.
        refine iff_of_false (Nat.ne_of_gt hlt) fun hid => ?_
        exact h.index_eq_none_iff.mp hnew (List.mem_of_getElem? hid)
      · constructor
        · rintro rfl
          rw [Nat.sub_self]
          rfl
        · intro hid
          obtain ⟨hzero, -⟩ := List.getElem?_eq_some_iff.mp hid
          rw [List.length_singleton, Nat.lt_one_iff] at hzero
          exact Nat.le_antisymm (Nat.le_of_not_lt hlt) (Nat.le_of_sub_eq_zero hzero)
    · rw [enter_index_of_ne hkey, h.index_iff, List.getElem?_append]
      split_ifs with hlt
      · rfl
      · -- Behind the earlier keys stands only the new one.
        rw [List.getElem?_eq_none (Nat.le_of_not_lt hlt)]
        refine iff_of_false nofun fun hid => hkey ?_
        exact (List.mem_singleton.mp (List.mem_of_getElem? hid))

end Lists

/-! ### Registers made anew -/

/-- The register of states that come into being one after the other. -/
def ofKeys (keys : List StateKey) : Register :=
  keys.foldl enter {}

/-- Several more states, one after the other. -/
theorem Lists.foldl_enter (more : List StateKey) :
    ∀ {r : Register} {keys : List StateKey}, r.Lists keys → (keys ++ more).Nodup →
      (more.foldl Register.enter r).Lists (keys ++ more) := by
  induction more with
  | nil =>
    intro r keys h _
    rwa [List.append_nil]
  | cons key more ih =>
    intro r keys h hnodup
    rw [List.append_cons] at hnodup ⊢
    have hnew : key ∉ keys := by
      have hprefix := (List.nodup_append.mp hnodup).1
      exact fun hmem => (List.nodup_append.mp hprefix).2.2 _ hmem _ (List.mem_singleton_self _) rfl
    exact ih (h.enter (h.index_eq_none_iff.mpr hnew)) hnodup

theorem lists_ofKeys (hnodup : keys.Nodup) : (ofKeys keys).Lists keys :=
  lists_empty.foldl_enter keys hnodup

end Register

/-! ### Keys for nameless states -/

theorem Builder.autoKey_injective : Function.Injective Builder.autoKey := by
  intro m n h
  -- The number is read back off its digits.
  have hread := congrArg (fun s => Nat.ofDigitChars 10 s.toList 0) (StateKey.namespaced.inj h).2
  simpa only [Nat.toString_eq_ofList_toDigits, String.toList_ofList,
    Nat.ofDigitChars_toDigits (b := 10) (by decide) (by decide)] using hread

/-- One of the keys for nameless states is free. -/
theorem Register.Lists.exists_free {r : Register} {keys : List StateKey} (h : r.Lists keys) :
    ∃ k ∈ List.range' r.next (r.next + 1), (r.index (Builder.autoKey k)).isNone = true := by
  by_contra hnone
  -- Otherwise there are more keys than states.
  have hsubset : (List.range' r.next (r.next + 1)).map Builder.autoKey ⊆ keys := by
    intro key hkey
    obtain ⟨k, hk, rfl⟩ := List.mem_map.mp hkey
    by_contra hfree
    exact hnone ⟨k, hk, by rw [h.index_eq_none_iff.mpr hfree]; rfl⟩
  have hnodup : ((List.range' r.next (r.next + 1)).map Builder.autoKey).Nodup :=
    (List.nodup_range' _).map Builder.autoKey_injective
  have hle := (hnodup.subperm hsubset).length_le
  rw [List.length_map, List.length_range', h.next_eq] at hle
  omega

end Colloquy
