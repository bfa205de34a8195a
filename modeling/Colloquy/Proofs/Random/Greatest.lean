import Mathlib
import Colloquy.Random.Selection

/-!
# The greatest score

`argmaxRandom` gives a place among the scores whenever one of them is a number
(`argmaxRandom_eq_none_iff`), and the score there is a number that no other score exceeds
(`argmaxRandom_greatest`).  Nothing is said about which of several such places is given: that is up
to the random source.

Doubles other than `NaN` are compared through `grade`, which puts them into a linear order: first by
sign and kind, then by exponent, then by mantissa.  Both zeros have one grade.
-/

namespace Colloquy

/-- Draws in a row: the second goes on with the words that the first leaves. -/
theorem Draw.bind_apply {α β : Type} (x : Draw α) (f : α → Draw β) (src : Source) :
    (x >>= f) src = f (x src).1 (x src).2 := rfl

namespace Selection

open Float.Model
open Float.Model.UnpackedFloat (Sign)

/-! ### The order of doubles -/

/-- The place of an unpacked double that is a number in the order of numbers. -/
def gradeOf : UnpackedFloat → ℤ ×ₗ ℤ ×ₗ ℤ
  | .infinity .negative => toLex (-2, toLex (0, 0))
  | .finite .negative m e _ => toLex (-1, toLex (-e, -(m : ℤ)))
  | .zero _ | .notANumber => toLex (0, toLex (0, 0))
  | .finite .positive m e _ => toLex (1, toLex (e, (m : ℤ)))
  | .infinity .positive => toLex (2, toLex (0, 0))

/-- The place of a double that is a number in the order of numbers. -/
def grade (s : Float) : ℤ ×ₗ ℤ ×ₗ ℤ :=
  gradeOf s.toModel.unpack

theorem compare_negative_positive : compare Sign.negative Sign.positive = .lt := rfl

theorem compare_positive_negative : compare Sign.positive Sign.negative = .gt := rfl

theorem compare_sign_self (s : Sign) : compare s s = .eq := by cases s <;> rfl

/-- Of two numbers, the lower is lower in grade. -/
theorem compare_eq_lt_iff {a b : UnpackedFloat} (ha : a.isNaN = false) (hb : b.isNaN = false) :
    a.compare b = some .lt ↔ gradeOf a < gradeOf b := by
  rcases a with (_ | _) | _ | _ | ⟨_ | _, m, e, _⟩ <;>
    rcases b with (_ | _) | _ | _ | ⟨_ | _, m', e', _⟩ <;>
    simp_all [UnpackedFloat.isNaN, UnpackedFloat.compare, gradeOf, Prod.Lex.toLex_lt_toLex,
      compare_negative_positive, Ordering.then_eq_lt, Ordering.then_eq_gt, Ordering.swap_eq_lt,
      compare_gt_iff_gt, compare_lt_iff_lt]

/-- Two numbers compare as equal if they have the same grade, as zeros of either sign do. -/
theorem compare_eq_eq_iff {a b : UnpackedFloat} (ha : a.isNaN = false) (hb : b.isNaN = false) :
    a.compare b = some .eq ↔ gradeOf a = gradeOf b := by
  rcases a with (_ | _) | _ | _ | ⟨_ | _, m, e, _⟩ <;>
    rcases b with (_ | _) | _ | _ | ⟨_ | _, m', e', _⟩ <;>
    simp_all [UnpackedFloat.isNaN, UnpackedFloat.compare, gradeOf, compare_negative_positive,
      compare_positive_negative, compare_sign_self, Ordering.then_eq_eq]

/-- The order of doubles that are numbers is that of their grades. -/
theorem lt_iff_grade_lt {a b : Float} (ha : a.isNaN = false) (hb : b.isNaN = false) :
    a < b ↔ grade a < grade b := by
  rw [grade, grade, ← compare_eq_lt_iff ha hb]
  simp [LT.lt, Float.lt, Float.Model.lt, UnpackedFloat.lt]

/-- Doubles that are numbers are equal if their grades are. -/
theorem beq_iff_grade_eq {a b : Float} (ha : a.isNaN = false) (hb : b.isNaN = false) :
    (a == b) = true ↔ grade a = grade b := by
  rw [grade, grade, ← compare_eq_eq_iff ha hb]
  show (a.toModel.unpack.compare b.toModel.unpack == some .eq) = true ↔ _
  exact beq_iff_eq

/-- The same for the order with equality. -/
theorem le_iff_grade_le {a b : Float} (ha : a.isNaN = false) (hb : b.isNaN = false) :
    a ≤ b ↔ grade a ≤ grade b := by
  have hle : a ≤ b ↔ (a.toModel.unpack.compare b.toModel.unpack).any (·.isLE) = true := by
    show decide ((a.toModel.unpack.compare b.toModel.unpack).any (·.isLE) = true) = true ↔ _
    exact decide_eq_true_iff
  rw [hle, le_iff_lt_or_eq, grade, grade, ← compare_eq_lt_iff ha hb, ← compare_eq_eq_iff ha hb]
  rcases a.toModel.unpack.compare b.toModel.unpack with _ | _ | _ | _ <;> simp

/-- Of two numbers, one is at most the other. -/
theorem le_of_not_lt {a b : Float} (ha : a.isNaN = false) (hb : b.isNaN = false) (h : ¬ a < b) :
    b ≤ a := by
  rw [lt_iff_grade_lt ha hb, not_lt] at h
  exact (le_iff_grade_le hb ha).mpr h

/-- Nothing equals `NaN`. -/
theorem isNaN_eq_false_of_beq {a b : Float} (h : (a == b) = true) : a.isNaN = false := by
  have h' : (a.toModel.unpack.compare b.toModel.unpack == some .eq) = true := h
  show a.toModel.unpack.isNaN = false
  cases ha : a.toModel.unpack with
  | notANumber => rw [ha] at h'; cases h'
  | infinity | zero | finite => rfl

/-- Only a number exceeds anything. -/
theorem isNaN_eq_false_of_lt {a b : Float} (h : a < b) : b.isNaN = false := by
  have h' : a.toModel.unpack.compare b.toModel.unpack = some .lt := by
    simpa [LT.lt, Float.lt, Float.Model.lt, UnpackedFloat.lt] using h
  show b.toModel.unpack.isNaN = false
  cases hb : b.toModel.unpack with
  | notANumber =>
    rw [hb] at h'
    cases ha : a.toModel.unpack <;> rw [ha] at h' <;> cases h'
  | infinity | zero | finite => rfl

/-- What is finite is a number. -/
theorem isNaN_eq_false_of_isFinite {s : Float} (h : s.isFinite = true) : s.isNaN = false := by
  have h' : s.toModel.unpack.isFinite = true := h
  show s.toModel.unpack.isNaN = false
  cases hs : s.toModel.unpack with
  | notANumber => rw [hs] at h'; cases h'
  | infinity | zero | finite => rfl

/-- Minus infinity is a number, and no number has a lower grade. -/
theorem isNaN_bottom : (-1.0 / 0.0 : Float).isNaN = false := rfl

/-- Nothing is below minus infinity. -/
theorem grade_bottom_le (s : Float) : grade (-1.0 / 0.0) ≤ grade s := by
  show toLex (-2, toLex (0, 0)) ≤ gradeOf s.toModel.unpack
  rcases s.toModel.unpack with (_ | _) | _ | _ | ⟨_ | _, m, e, _⟩ <;>
    simp [gradeOf, Prod.Lex.toLex_le_toLex]

/-! ### The greatest of a list -/

/-- The greater of two numbers is one. -/
theorem isNaN_greater {a b : Float} (ha : a.isNaN = false) (hb : b.isNaN = false) :
    (greater a b).isNaN = false := by
  unfold greater
  split_ifs
  · exact hb
  · exact ha

/-- The greater of two numbers has the greater grade. -/
theorem grade_greater {a b : Float} (ha : a.isNaN = false) (hb : b.isNaN = false) :
    grade (greater a b) = max (grade a) (grade b) := by
  unfold greater
  split_ifs with h
  · rw [max_eq_right ((lt_iff_grade_lt ha hb).mp h).le]
  · rw [max_eq_left (not_lt.mp fun hlt => h ((lt_iff_grade_lt ha hb).mpr hlt))]

/-- The fold of `greater` over numbers is a number; its grade is that of the start or of one of the
numbers, and none of these has a higher one. -/
theorem foldl_greater (scores : List Float) :
    ∀ (start : Float), start.isNaN = false → (∀ s ∈ scores, s.isNaN = false) →
      (scores.foldl greater start).isNaN = false ∧
      grade start ≤ grade (scores.foldl greater start) ∧
      (∀ s ∈ scores, grade s ≤ grade (scores.foldl greater start)) ∧
      (grade (scores.foldl greater start) = grade start ∨
        ∃ s ∈ scores, grade (scores.foldl greater start) = grade s) := by
  induction scores with
  | nil =>
    intro start hstart _
    exact ⟨hstart, le_refl _, by simp, Or.inl rfl⟩
  | cons a rest ih =>
    intro start hstart hall
    have ha : a.isNaN = false := hall a List.mem_cons_self
    have hrest : ∀ s ∈ rest, s.isNaN = false := fun s hs => hall s (List.mem_cons_of_mem _ hs)
    obtain ⟨hnum, hle, hbound, hattained⟩ := ih (greater start a) (isNaN_greater hstart ha) hrest
    rw [grade_greater hstart ha] at hle hattained
    rw [List.foldl_cons]
    refine ⟨hnum, (le_max_left _ _).trans hle, ?_, ?_⟩
    · intro s hs
      rcases List.mem_cons.mp hs with rfl | hs
      · exact (le_max_right _ _).trans hle
      · exact hbound s hs
    · rcases hattained with h | ⟨s, hs, h⟩
      · -- What is attained is the start of the rest: the old start or the first score.
        rcases max_choice (grade start) (grade a) with hm | hm
        · exact Or.inl (h.trans hm)
        · exact Or.inr ⟨a, List.mem_cons_self, h.trans hm⟩
      · exact Or.inr ⟨s, List.mem_cons_of_mem _ hs, h⟩

/-- `best` is a number, no number among the scores has a higher grade, and unless no score is a
number one of them has the same grade. -/
theorem best_spec (scores : List Float) :
    (best scores).isNaN = false ∧
    (∀ s ∈ scores, s.isNaN = false → grade s ≤ grade (best scores)) ∧
    ((∃ s ∈ scores, s.isNaN = false) →
      ∃ s ∈ scores, s.isNaN = false ∧ grade s = grade (best scores)) := by
  have hall : ∀ s ∈ scores.filter fun s => !s.isNaN, s.isNaN = false := by
    intro s hs
    simpa using (List.mem_filter.mp hs).2
  obtain ⟨hnum, -, hbound, hattained⟩ := foldl_greater _ (-1.0 / 0.0) isNaN_bottom hall
  have hbound' : ∀ s ∈ scores, s.isNaN = false → grade s ≤ grade (best scores) := by
    intro s hs hsn
    exact hbound s (List.mem_filter.mpr ⟨hs, by rw [hsn]; rfl⟩)
  refine ⟨hnum, hbound', ?_⟩
  rintro ⟨s, hs, hsn⟩
  rcases hattained with h | ⟨t, ht, h⟩
  · -- The greatest is minus infinity, so `s` has its grade.
    exact ⟨s, hs, hsn, le_antisymm (hbound' s hs hsn) (h.trans_le (grade_bottom_le s))⟩
  · exact ⟨t, (List.mem_filter.mp ht).1, hall t ht, h.symm⟩

/-- Tied are the places of the scores that equal the best. -/
theorem mem_tied_iff {scores : List Float} {i : Nat} :
    i ∈ tied scores ↔ ∃ s, scores[i]? = some s ∧ (s == best scores) = true := by
  simp only [tied, List.mem_map, List.mem_filter, Prod.exists, List.mem_zipIdx_iff_getElem?]
  constructor
  · rintro ⟨s, j, ⟨hj, hs⟩, rfl⟩
    exact ⟨s, hj, hs⟩
  · rintro ⟨s, hi, hs⟩
    exact ⟨s, i, ⟨hi, hs⟩, rfl⟩

/-- At the place stands a number, and no other score exceeds it. -/
def Greatest (scores : List Float) (i : Nat) : Prop :=
  ∃ s, scores[i]? = some s ∧ s.isNaN = false ∧ ∀ t ∈ scores, ¬ s < t

/-- The scores that equal the best are the greatest ones. -/
theorem mem_tied_iff_greatest {scores : List Float} {i : Nat} :
    i ∈ tied scores ↔ Greatest scores i := by
  obtain ⟨hnum, hbound, hattained⟩ := best_spec scores
  rw [mem_tied_iff]
  constructor
  · rintro ⟨s, hs, hsb⟩
    have hsn := isNaN_eq_false_of_beq hsb
    refine ⟨s, hs, hsn, fun t ht hlt => ?_⟩
    have htn := isNaN_eq_false_of_lt hlt
    have hgrade := (beq_iff_grade_eq hsn hnum).mp hsb
    exact absurd ((lt_iff_grade_lt hsn htn).mp hlt) (not_lt.mpr (hgrade ▸ hbound t ht htn))
  · rintro ⟨s, hs, hsn, hgreatest⟩
    have hmem := List.mem_of_getElem? hs
    obtain ⟨t, ht, htn, htb⟩ := hattained ⟨s, hmem, hsn⟩
    -- The best is attained by some score, and that does not exceed this one.
    have hle : grade t ≤ grade s :=
      not_lt.mp fun hlt => hgreatest t ht ((lt_iff_grade_lt hsn htn).mpr hlt)
    exact ⟨s, hs, (beq_iff_grade_eq hsn hnum).mpr
      (le_antisymm (hbound s hmem hsn) (htb ▸ hle))⟩

/-- No place is tied if no score is a number. -/
theorem tied_eq_nil_iff {scores : List Float} :
    tied scores = [] ↔ ∀ s ∈ scores, s.isNaN = true := by
  obtain ⟨hnum, -, hattained⟩ := best_spec scores
  constructor
  · intro h s hs
    -- A number among the scores would make the best attained.
    by_contra hsn
    obtain ⟨t, ht, htn, htb⟩ := hattained ⟨s, hs, by simpa using hsn⟩
    obtain ⟨i, hi⟩ := List.mem_iff_getElem?.mp ht
    have : i ∈ tied scores := mem_tied_iff.mpr ⟨t, hi, (beq_iff_grade_eq htn hnum).mpr htb⟩
    rw [h] at this
    exact absurd this List.not_mem_nil
  · intro h
    rw [List.eq_nil_iff_forall_not_mem]
    intro i hi
    obtain ⟨s, hs, hsb⟩ := mem_tied_iff.mp hi
    have hnan := h s (List.mem_iff_getElem?.mpr ⟨i, hs⟩)
    rw [isNaN_eq_false_of_beq hsb] at hnan
    cases hnan

/-! ### Draws -/

/-- A word stands for an index in range, whether or not it is accepted. -/
theorem mul_div_size_lt (v : UInt64) {n : Nat} (hn : 0 < n) :
    v.toNat * n / UInt64.size < n := by
  rw [Nat.div_lt_iff_lt_mul (by decide), Nat.mul_comm n]
  exact Nat.mul_lt_mul_of_pos_right v.toNat_lt hn

/-- A word is accepted for an index in range. -/
theorem lt_of_accept? {v : UInt64} {n i : Nat} (hn : 0 < n) (h : Source.accept? n v = some i) :
    i < n := by
  simp only [Source.accept?, Option.ite_none_right_eq_some, Option.some.injEq] at h
  exact h.2 ▸ mul_div_size_lt v hn

/-- An index is drawn in range. -/
theorem indexWithin_lt {n : Nat} (hn : 0 < n) :
    ∀ (rejections : Nat) (src : Source), (Source.indexWithin n rejections src).1 < n := by
  intro rejections
  induction rejections with
  | zero => intro src; exact mul_div_size_lt _ hn
  | succ rejections ih =>
    intro src
    rw [Source.indexWithin, Draw.bind_apply]
    cases h : Source.accept? n (Source.next src).1 with
    | some i => exact lt_of_accept? hn h
    | none => exact ih _

theorem chooseUniform_nil {α : Type} (src : Source) :
    chooseUniform ([] : List α) src = (none, src) := rfl

/-- A choice among some items gives one of them. -/
theorem chooseUniform_mem {α : Type} {items : List α} (h : items ≠ []) (src : Source) :
    ∃ x ∈ items, (chooseUniform items src).1 = some x := by
  have hlt := indexWithin_lt (List.length_pos_iff.mpr h) Source.patience src
  refine ⟨items[(Source.index items.length src).1], List.getElem_mem hlt, ?_⟩
  unfold chooseUniform
  rw [if_neg (by simpa using h)]
  exact List.getElem?_eq_getElem hlt

/-- A place is given unless no score is a number. -/
theorem argmaxRandom_eq_none_iff {scores : List Float} {src : Source} :
    (argmaxRandom scores src).1 = none ↔ ∀ s ∈ scores, s.isNaN = true := by
  rw [← tied_eq_nil_iff, argmaxRandom]
  constructor
  · intro h
    by_contra hne
    obtain ⟨x, -, hx⟩ := chooseUniform_mem hne src
    rw [h] at hx
    cases hx
  · intro h
    rw [h, chooseUniform_nil]

/-- At the place that is given stands a number, and no other score exceeds it. -/
theorem argmaxRandom_greatest {scores : List Float} {src : Source} {i : Nat}
    (h : (argmaxRandom scores src).1 = some i) : Greatest scores i := by
  have hne : tied scores ≠ [] := by
    intro hnil
    rw [argmaxRandom, hnil, chooseUniform_nil] at h
    cases h
  obtain ⟨j, hj, hchosen⟩ := chooseUniform_mem hne src
  obtain rfl : j = i := Option.some.inj (hchosen.symm.trans h)
  exact mem_tied_iff_greatest.mp hj

end Selection

end Colloquy
