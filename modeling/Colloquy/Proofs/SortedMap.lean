import Mathlib.Data.List.Induction
import Mathlib.Data.List.Nodup
import Mathlib.Data.List.Perm.Basic
import Mathlib.Order.Basic
import Colloquy.SortedMap

/-!
# Sorted maps and their look-ups

A sorted map is known by its look-ups (`ext_get?`).  The keys of a map are listed once each
(`nodup_keys`), and they are the keys that have a value (`mem_keys_iff`).  A list in which no key
occurs twice makes up a map with the same entries (`entries_ofList_perm`).  A set is known by its
elements, and the set of a list has those that are listed (`SortedSet.mem_toList_ofList`).
-/

namespace Colloquy

namespace SortedMap

variable {κ ν : Type} [Ord κ] [Std.TransOrd κ] [Std.LawfulEqOrd κ] [DecidableEq κ]

omit [Std.TransOrd κ] [DecidableEq κ] in
theorem nodup_keys (m : SortedMap κ ν) : m.keys.Nodup := by
  rw [keys, List.Nodup, List.pairwise_map]
  refine m.ascending.imp fun {a b} hlt heq => ?_
  rw [heq] at hlt
  simp at hlt

omit [Std.TransOrd κ] [DecidableEq κ] in
/-- The key of an entry is not that of an earlier one. -/
theorem fst_not_mem_of_entries_eq {m : SortedMap κ ν} {before after : List (κ × ν)} {entry : κ × ν}
    (h : m.entries = before ++ entry :: after) : entry.1 ∉ before.map (·.1) := by
  have hnodup := m.nodup_keys
  rw [keys, h, List.map_append, List.map_cons] at hnodup
  exact fun hmem => List.disjoint_of_nodup_append hnodup hmem List.mem_cons_self

omit [Std.TransOrd κ] in
theorem mem_keys_iff {m : SortedMap κ ν} {key : κ} : key ∈ m.keys ↔ m.contains key = true := by
  rw [contains, Option.isSome_iff_exists, keys, List.mem_map]
  constructor
  · rintro ⟨⟨k, v⟩, hmem, rfl⟩
    exact ⟨v, mem_entries_iff.mp hmem⟩
  · rintro ⟨v, hv⟩
    exact ⟨(key, v), mem_entries_iff.mpr hv, rfl⟩

/-- Two maps with the same look-ups are equal: both list the same entries in the same order. -/
theorem ext_get? {m n : SortedMap κ ν} (h : ∀ key, m.get? key = n.get? key) : m = n := by
  have hperm : m.entries.Perm n.entries := by
    rw [List.perm_ext_iff_of_nodup (m.nodup_keys.of_map _) (n.nodup_keys.of_map _)]
    rintro ⟨k, v⟩
    rw [mem_entries_iff, mem_entries_iff, h k]
  refine eq_of_entries_eq (hperm.eq_of_pairwise ?_ m.ascending n.ascending)
  intro a b _ _ hab hba
  have hgt := Std.OrientedCmp.gt_of_lt hab
  rw [hba] at hgt
  cases hgt

theorem erase_of_get?_eq_none {m : SortedMap κ ν} {key : κ} (h : m.get? key = none) :
    m.erase key = m := by
  refine ext_get? fun other => ?_
  rw [get?_erase]
  split_ifs with hother
  · rw [hother, h]
  · rfl

/-- Writing all entries of a map over another one. -/
theorem get?_foldl_insert (entries : List (κ × ν))
    (hascending : entries.Pairwise fun a b => compare a.1 b.1 = .lt) :
    ∀ (m : SortedMap κ ν) (key : κ),
      (entries.foldl (fun m e => m.insert e.1 e.2) m).get? key =
        (lookup key entries).or (m.get? key) := by
  induction entries with
  | nil => intro m key; rfl
  | cons a rest ih =>
    obtain ⟨k, v⟩ := a
    intro m key
    rw [List.pairwise_cons] at hascending
    rw [List.foldl_cons, ih hascending.2, get?_insert, lookup]
    split_ifs with hkey
    · -- The later entries have greater keys.
      have hnone : lookup key rest = none := by
        refine lookup_eq_none fun e he heq => ?_
        have hlt := hascending.1 e he
        rw [← heq, hkey] at hlt
        simp at hlt
      rw [hnone, Option.none_or, Option.some_or]
    · rfl

/-! ### Maps from lists -/

theorem get?_ofList (entries : List (κ × ν)) (key : κ) :
    (ofList entries).get? key = lookup key entries.reverse := by
  induction entries using List.reverseRecOn with
  | nil => rfl
  | append_singleton entries e ih =>
    have hlast : ofList (entries ++ [e]) = (ofList entries).insert e.1 e.2 := by
      rw [ofList, List.foldl_append]
      rfl
    rw [hlast, get?_insert, ih, List.reverse_append]
    rfl

omit [Ord κ] [Std.TransOrd κ] [Std.LawfulEqOrd κ] in
theorem isSome_lookup_iff {entries : List (κ × ν)} {key : κ} :
    (lookup key entries).isSome = true ↔ key ∈ entries.map (·.1) := by
  rw [List.mem_map]
  constructor
  · intro h
    obtain ⟨value, hvalue⟩ := Option.isSome_iff_exists.mp h
    exact ⟨(key, value), mem_of_lookup hvalue, rfl⟩
  · rintro ⟨e, he, rfl⟩
    -- By induction, an entry with the key would have been found.
    by_contra hnone
    rw [Bool.not_eq_true, Option.isSome_eq_false_iff, Option.isNone_iff_eq_none] at hnone
    induction entries with
    | nil => cases he
    | cons a rest ih =>
      rw [lookup] at hnone
      split_ifs at hnone with hkey
      rcases List.mem_cons.mp he with rfl | he
      · exact hkey rfl
      · exact ih he hnone

/-- The map of a list has the keys that are listed. -/
theorem contains_ofList {entries : List (κ × ν)} {key : κ} :
    (ofList entries).contains key = true ↔ key ∈ entries.map (·.1) := by
  rw [contains, get?_ofList, isSome_lookup_iff, List.map_reverse, List.mem_reverse]

omit [Ord κ] [Std.TransOrd κ] [Std.LawfulEqOrd κ] in
/-- If no key is listed twice, every entry is found. -/
theorem lookup_eq_some_iff {entries : List (κ × ν)} (h : (entries.map (·.1)).Nodup) {key : κ}
    {value : ν} : lookup key entries = some value ↔ (key, value) ∈ entries := by
  refine ⟨mem_of_lookup, fun hmem => ?_⟩
  induction entries with
  | nil => cases hmem
  | cons e rest ih =>
    rw [List.map_cons, List.nodup_cons] at h
    rcases List.mem_cons.mp hmem with rfl | hrest
    · exact if_pos rfl
    · have hne : key ≠ e.1 := fun heq => h.1 (heq ▸ List.mem_map_of_mem hrest)
      rw [lookup, if_neg hne]
      exact ih h.2 hrest

/-- If no key is listed twice, the map has just the listed entries. -/
theorem entries_ofList_perm {entries : List (κ × ν)} (h : (entries.map (·.1)).Nodup) :
    (ofList entries).entries.Perm entries := by
  rw [List.perm_ext_iff_of_nodup ((ofList entries).nodup_keys.of_map _) (h.of_map _)]
  rintro ⟨key, value⟩
  have hreverse : (entries.reverse.map (·.1)).Nodup := by
    rw [List.map_reverse]
    exact List.nodup_reverse.mpr h
  rw [mem_entries_iff, get?_ofList, lookup_eq_some_iff hreverse, List.mem_reverse]

/-- The entries of a map make up that map. -/
theorem ofList_entries (m : SortedMap κ ν) : ofList m.entries = m := by
  refine ext_get? fun key => Option.ext fun value => ?_
  rw [← mem_entries_iff, ← mem_entries_iff]
  exact (entries_ofList_perm m.nodup_keys).mem_iff

end SortedMap

/-! ### Sets -/

namespace SortedSet

variable {κ : Type} [Ord κ] [Std.TransOrd κ] [Std.LawfulEqOrd κ] [DecidableEq κ]

omit [Std.TransOrd κ] in
theorem mem_toList_iff {s : SortedSet κ} {x : κ} : x ∈ s.toList ↔ SortedMap.get? s x = some () := by
  rw [toList, SortedMap.mem_keys_iff, SortedMap.contains, Option.isSome_iff_exists]
  exact ⟨fun ⟨_, h⟩ => h, fun h => ⟨_, h⟩⟩

theorem mem_toList_add {s : SortedSet κ} {x y : κ} : y ∈ (s.add x).toList ↔ y = x ∨ y ∈ s.toList := by
  rw [mem_toList_iff, mem_toList_iff, add, SortedMap.get?_insert]
  split <;> simp_all

/-- The set of a list has the listed elements. -/
theorem mem_toList_ofList {xs : List κ} {x : κ} : x ∈ (ofList xs).toList ↔ x ∈ xs := by
  induction xs using List.reverseRecOn with
  | nil => exact Iff.rfl
  | append_singleton xs y ih =>
    have hlast : ofList (xs ++ [y]) = (ofList xs).add y := by
      rw [ofList, List.foldl_append]
      rfl
    rw [hlast, mem_toList_add, ih, List.mem_append, List.mem_singleton, or_comm]

/-- Two sets with the same elements are equal. -/
theorem ext_mem {s t : SortedSet κ} (h : ∀ x, x ∈ s.toList ↔ x ∈ t.toList) : s = t := by
  refine SortedMap.ext_get? fun x => Option.ext fun _ => ?_
  rw [← mem_toList_iff, ← mem_toList_iff]
  exact h x

end SortedSet

end Colloquy
