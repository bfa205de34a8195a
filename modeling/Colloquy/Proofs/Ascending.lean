import Mathlib.Data.List.Nodup
import Mathlib.Data.List.Perm.Basic

/-!
# Sorted lists without repetitions

Sorting a list and then dropping the repetitions, which stand next to each other by then, gives the
one ascending list with the same members (`eq_sorted_iff`).  So two lists come to the same exactly
when they have the same members, whatever their order and however often each occurs
(`sorted_eq_iff`).
-/

namespace Colloquy

variable {α : Type} [BEq α]

/-! ### Dropping repetitions -/

/-- What was gathered before stays in front. -/
theorem eraseRepsBy_loop_eq (a : α) (as acc : List α) :
    List.eraseRepsBy.loop (· == ·) a as acc =
      acc.reverse ++ List.eraseRepsBy.loop (· == ·) a as [] := by
  induction as generalizing a acc with
  | nil => simp [List.eraseRepsBy.loop]
  | cons b as ih =>
    rw [List.eraseRepsBy.loop, List.eraseRepsBy.loop]
    split
    · exact ih a acc
    · rw [ih b (a :: acc), ih b [a]]
      simp

variable [LawfulBEq α]

theorem eraseReps_cons_cons (a b : α) (as : List α) :
    (a :: b :: as).eraseReps =
      if a == b then (b :: as).eraseReps else a :: (b :: as).eraseReps := by
  show List.eraseRepsBy.loop (· == ·) a (b :: as) [] = _
  rw [List.eraseRepsBy.loop]
  cases h : a == b with
  | true =>
    rw [eq_of_beq h]
    rfl
  | false => exact eraseRepsBy_loop_eq b as [a]

theorem mem_eraseReps {x : α} {as : List α} : x ∈ as.eraseReps ↔ x ∈ as := by
  induction as with
  | nil => exact Iff.rfl
  | cons a as ih =>
    cases as with
    | nil => exact Iff.rfl
    | cons b as =>
      rw [eraseReps_cons_cons]
      split
      · rename_i heq
        rw [ih, eq_of_beq heq]
        simp
      · rw [List.mem_cons, ih, ← List.mem_cons]

/-! ### Ascending lists -/

variable [Ord α]

/-- Every element comes before those behind it, and so none occurs twice. -/
def Ascending (as : List α) : Prop :=
  as.Pairwise fun a b => compare a b = .lt

instance (as : List α) : Decidable (Ascending as) :=
  inferInstanceAs (Decidable (List.Pairwise _ _))

variable [Std.TransOrd α] [Std.LawfulEqOrd α]

omit [BEq α] [LawfulBEq α] [Std.TransOrd α] in
theorem Ascending.nodup {as : List α} (h : Ascending as) : as.Nodup := by
  refine h.imp fun {a b} hlt heq => ?_
  rw [heq, Std.ReflOrd.compare_self] at hlt
  cases hlt

omit [BEq α] [LawfulBEq α] in
/-- Two ascending lists with the same members are equal. -/
theorem Ascending.ext {as bs : List α} (ha : Ascending as) (hb : Ascending bs)
    (h : ∀ x, x ∈ as ↔ x ∈ bs) : as = bs := by
  have hperm : as.Perm bs := (List.perm_ext_iff_of_nodup ha.nodup hb.nodup).mpr h
  refine hperm.eq_of_pairwise ?_ ha hb
  intro a b _ _ hab hba
  have hgt := Std.OrientedCmp.gt_of_lt hab
  rw [hba] at hgt
  cases hgt

/-- In a sorted list, what is repeated stands next to itself. -/
theorem ascending_eraseReps {as : List α}
    (h : as.Pairwise fun a b => (compare a b).isLE = true) : Ascending as.eraseReps := by
  induction as with
  | nil => exact List.Pairwise.nil
  | cons a as ih =>
    obtain ⟨hfirst, hrest⟩ := List.pairwise_cons.mp h
    cases as with
    | nil => exact List.pairwise_singleton _ a
    | cons b as =>
      rw [eraseReps_cons_cons]
      split
      · exact ih hrest
      · rename_i hne
        have hab : compare a b = .lt := by
          have hle := hfirst b (.head _)
          have hneq : compare a b ≠ .eq := fun heq =>
            hne (beq_iff_eq.mpr (Std.LawfulEqCmp.eq_of_compare heq))
          cases hcompare : compare a b <;> simp_all
        refine List.pairwise_cons.mpr ⟨fun x hx => ?_, ih hrest⟩
        -- The elements behind `b` are not less than it.
        rcases List.mem_cons.mp (mem_eraseReps.mp hx) with rfl | hx
        · exact hab
        · exact Std.TransCmp.lt_of_lt_of_isLE hab ((List.pairwise_cons.mp hrest).1 x hx)

/-! ### Sorting -/

/-- The elements of a list in their order, each once. -/
abbrev sorted (as : List α) : List α :=
  (as.mergeSort fun a b => compare a b != .gt).eraseReps

omit [Std.TransOrd α] [Std.LawfulEqOrd α] in
theorem mem_sorted {x : α} {as : List α} : x ∈ sorted as ↔ x ∈ as := by
  rw [sorted, mem_eraseReps, List.mem_mergeSort]

theorem ascending_sorted (as : List α) : Ascending (sorted as) := by
  have hle : ∀ a b : α, (compare a b != .gt) = (compare a b).isLE := fun a b => by
    cases compare a b <;> rfl
  refine ascending_eraseReps ?_
  simp only [hle]
  refine List.pairwise_mergeSort (fun a b c hab hbc => ?_) (fun a b => ?_) as
  · exact Std.TransCmp.isLE_trans hab hbc
  · have hswap : compare b a = (compare a b).swap := Std.OrientedCmp.eq_swap
    rw [hswap]
    cases compare a b <;> rfl

/-- `sorted as` is the one ascending list with the members of `as`. -/
theorem eq_sorted_iff {as bs : List α} :
    bs = sorted as ↔ Ascending bs ∧ ∀ x, x ∈ bs ↔ x ∈ as := by
  constructor
  · rintro rfl
    exact ⟨ascending_sorted as, fun _ => mem_sorted⟩
  · rintro ⟨hbs, hmem⟩
    refine hbs.ext (ascending_sorted as) fun x => ?_
    rw [hmem, mem_sorted]

/-- Two lists are sorted alike exactly when they hold the same members. -/
theorem sorted_eq_iff {as bs : List α} : sorted as = sorted bs ↔ ∀ x, x ∈ as ↔ x ∈ bs := by
  rw [eq_sorted_iff]
  refine ⟨fun h x => ?_, fun h => ⟨ascending_sorted as, fun x => ?_⟩⟩
  · rw [← h.2 x, mem_sorted]
  · rw [mem_sorted, h x]

end Colloquy
