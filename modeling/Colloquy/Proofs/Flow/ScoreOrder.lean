import Mathlib
import Colloquy.Flow.Rules
import Colloquy.Proofs.Random.Greatest

/-!
# The order in which rules are tried

Scores are put in the total order of doubles (`TotalLt`): numbers as they compare, `-0.0` below
`0.0`, and `NaN` above all numbers.  `rank_lt_rank_iff` says that the ranks of doubles are in this
order, and `rank_inj` that no two doubles have one rank.  So the rules are tried by descending score
and those of one score in the order in which they were added (`ordered_perm`, `ordered_pairwise`).

A double is read through the three fields of its bits; `gradeOf_unpack` says which grade they amount
to.
-/

namespace Colloquy.Rules

open Float.Model Float.Model.UnpackedFloat

/-! ### The fields of a double -/

/-- The mantissa is in the low 52 bits. -/
theorem toNat_unpackMantissa (b : BitVec 64) :
    (@unpackMantissa Format.binary64 b).toNat = b.toNat % 2 ^ 52 := by
  simp [unpackMantissa]

/-- The exponent is in the next 11 bits. -/
theorem toNat_unpackExponent (b : BitVec 64) :
    (@unpackExponent Format.binary64 b).toNat = b.toNat / 2 ^ 52 % 2 ^ 11 := by
  simp [unpackExponent, Nat.shiftRight_eq_div_pow]

/-- The sign is the highest bit. -/
theorem toNat_unpackSign (b : BitVec 64) :
    (@unpackSign Format.binary64 b).toNat = b.toNat / 2 ^ 63 := by
  have := b.isLt
  simp [unpackSign, Nat.shiftRight_eq_div_pow]
  omega

/-- The kind, the exponent and the mantissa of a double without its sign, whose fields are `e` and
`m`. -/
def gradeOfFields (e m : Nat) : ℤ × ℤ × ℤ :=
  if e = 2047 then (2, 0, 0)
  else if e = 0 then if m = 0 then (0, 0, 0) else (1, -1074, m)
  else (1, e - 1075, m + 2 ^ 52)

/-- The grade with a sign. -/
def withSign (g : ℤ × ℤ × ℤ) : Sign → ℤ ×ₗ ℤ ×ₗ ℤ
  | .positive => toLex (g.1, toLex g.2)
  | .negative => toLex (-g.1, toLex (-g.2))

/-- The sign of a double with the bits `b`. -/
def signOf (b : Nat) : Sign :=
  if b / 2 ^ 63 = 0 then .positive else .negative

/-- Bits that stand for a number have no mantissa where the exponent is full, and their grade is
that of their fields. -/
theorem gradeOf_unpack (b : BitVec 64)
    (hnum : (UnpackedFloat.unpack Format.binary64 b).isNaN = false) :
    (b.toNat / 2 ^ 52 % 2 ^ 11 = 2047 → b.toNat % 2 ^ 52 = 0) ∧
      Selection.gradeOf (UnpackedFloat.unpack Format.binary64 b) =
        withSign (gradeOfFields (b.toNat / 2 ^ 52 % 2 ^ 11) (b.toNat % 2 ^ 52))
          (signOf b.toNat) := by
  have hsign : Sign.ofBitVec (@unpackSign Format.binary64 b) = signOf b.toNat := by
    rw [signOf, ← toNat_unpackSign b, Sign.ofBitVec]
    simp [← BitVec.toNat_inj]
  have hfull : (@unpackExponent Format.binary64 b).toNat = 2047 ↔
      @unpackExponent Format.binary64 b = -1#11 := by
    rw [← BitVec.toNat_inj]
    rfl
  have hempty : (@unpackExponent Format.binary64 b).toNat = 0 ↔
      @unpackExponent Format.binary64 b = 0#11 := by
    rw [← BitVec.toNat_inj]
    rfl
  have hzero : (@unpackMantissa Format.binary64 b).toNat = 0 ↔
      @unpackMantissa Format.binary64 b = 0#52 := by
    rw [← BitVec.toNat_inj]
    rfl
  have hbias : ((Format.binary64.exponentBias : Nat) : Int) = 1023 := rfl
  -- A normal number has a leading one that its bits do not show.
  have himplicit : (1#1 ++ @unpackMantissa Format.binary64 b).toNat =
      (@unpackMantissa Format.binary64 b).toNat + 2 ^ 52 := by
    have hlt := (@unpackMantissa Format.binary64 b).isLt
    rw [BitVec.toNat_append, Nat.shiftLeft_eq, Nat.mul_comm, ← Nat.two_pow_add_eq_or_of_lt hlt]
    simp
    omega
  rw [← toNat_unpackMantissa b, ← toNat_unpackExponent b]
  unfold UnpackedFloat.unpack at hnum ⊢
  unfold gradeOfFields
  simp only [hfull, hempty, hzero, hsign] at hnum ⊢
  generalize signOf b.toNat = s at *
  -- Infinity, zero, a subnormal number and a normal one, by the exponent and the mantissa.
  by_cases h1 : @unpackExponent Format.binary64 b = -1#11
  · by_cases h2 : @unpackMantissa Format.binary64 b = 0#52
    · cases s <;> simp [h1, h2, Selection.gradeOf, withSign]
    · rw [if_pos h1, if_neg h2] at hnum
      cases hnum
  · rw [if_neg h1, if_neg h1]
    refine ⟨fun h => absurd h h1, ?_⟩
    by_cases h2 : @unpackExponent Format.binary64 b = 0#11
    · by_cases h3 : @unpackMantissa Format.binary64 b = 0#52
      · cases s <;> simp [h2, h3, Selection.gradeOf, withSign]
      · cases s <;> simp [h2, h3, Selection.gradeOf, withSign, hbias]
    · rw [if_neg h2, if_neg h2]
      cases s <;> simp [Selection.gradeOf, withSign, hbias, himplicit]

/-! ### Grades of magnitudes -/

/-- The grade of a double whose bits other than the sign are `n`. -/
def gradeOfMagnitude (n : Nat) : Sign → ℤ ×ₗ ℤ ×ₗ ℤ :=
  withSign (gradeOfFields (n / 2 ^ 52) (n % 2 ^ 52))

/-- The magnitude of infinity; no number has a greater one. -/
def greatestMagnitude : Nat := 2047 * 2 ^ 52

section

variable {n n' : Nat}

/-- Positive doubles are ordered as their magnitudes are. -/
theorem gradeOfMagnitude_positive_lt_iff (hn : n ≤ greatestMagnitude)
    (hn' : n' ≤ greatestMagnitude) :
    gradeOfMagnitude n .positive < gradeOfMagnitude n' .positive ↔ n < n' := by
  unfold greatestMagnitude at hn hn'
  unfold gradeOfMagnitude gradeOfFields
  split_ifs <;> simp [withSign, Prod.Lex.toLex_lt_toLex] <;> omega

/-- Negative doubles are ordered the other way round. -/
theorem gradeOfMagnitude_negative_lt_iff (hn : n ≤ greatestMagnitude)
    (hn' : n' ≤ greatestMagnitude) :
    gradeOfMagnitude n .negative < gradeOfMagnitude n' .negative ↔ n' < n := by
  unfold greatestMagnitude at hn hn'
  unfold gradeOfMagnitude gradeOfFields
  split_ifs <;> simp [withSign, Prod.Lex.toLex_lt_toLex] <;> omega

/-- A negative double is below a positive one, zeros apart. -/
theorem gradeOfMagnitude_negative_lt_positive_iff :
    gradeOfMagnitude n .negative < gradeOfMagnitude n' .positive ↔ n ≠ 0 ∨ n' ≠ 0 := by
  unfold gradeOfMagnitude gradeOfFields
  split_ifs <;> simp [withSign, Prod.Lex.toLex_lt_toLex] <;> omega

/-- No positive double is below a negative one. -/
theorem not_gradeOfMagnitude_positive_lt_negative :
    ¬ gradeOfMagnitude n .positive < gradeOfMagnitude n' .negative := by
  unfold gradeOfMagnitude gradeOfFields
  split_ifs <;> simp [withSign, Prod.Lex.toLex_lt_toLex]

end

/-! ### Ranks -/

/-- A double is known by its bits. -/
theorem float_eq_of_toBits {x y : Float} (h : x.toBits = y.toBits) : x = y := by
  obtain ⟨⟨bits, _⟩⟩ := x
  obtain ⟨⟨bits', _⟩⟩ := y
  obtain rfl : bits = bits' := h
  rfl

/-- Positive doubles rank by their magnitude in the upper half. -/
theorem rank_of_positive {x : Float} (h : x.toBits.toNat / 2 ^ 63 = 0) :
    rank x = 2 ^ 63 + x.toBits.toNat % 2 ^ 63 := by
  have hlt : x.toBits.toNat < 1 <<< 63 := by
    rw [Nat.one_shiftLeft]
    omega
  rw [rank, if_pos hlt, Nat.one_shiftLeft]
  omega

/-- Negative doubles rank by their magnitude, downwards, in the lower half. -/
theorem rank_of_negative {x : Float} (h : x.toBits.toNat / 2 ^ 63 ≠ 0) :
    rank x = 2 ^ 63 - 1 - x.toBits.toNat % 2 ^ 63 := by
  have hbits := x.toBits.toNat_lt
  have hge : ¬ x.toBits.toNat < 1 <<< 63 := by
    rw [Nat.one_shiftLeft]
    omega
  rw [rank, if_neg hge, UInt64.size]
  omega

/-- The rank is another spelling of the bits. -/
theorem rank_inj {x y : Float} : rank x = rank y ↔ x = y := by
  refine ⟨fun h => float_eq_of_toBits (UInt64.toNat_inj.mp ?_), fun h => h ▸ rfl⟩
  have hx := x.toBits.toNat_lt
  have hy := y.toBits.toNat_lt
  -- Doubles of different sign rank in different halves.
  by_cases hsx : x.toBits.toNat / 2 ^ 63 = 0 <;> by_cases hsy : y.toBits.toNat / 2 ^ 63 = 0
  · rw [rank_of_positive hsx, rank_of_positive hsy] at h
    omega
  · rw [rank_of_positive hsx, rank_of_negative hsy] at h
    omega
  · rw [rank_of_negative hsx, rank_of_positive hsy] at h
    omega
  · rw [rank_of_negative hsx, rank_of_negative hsy] at h
    omega

/-- The total order of doubles. -/
def TotalLt (x y : Float) : Prop :=
  x < y ∨ (x = -0.0 ∧ y = 0.0) ∨ (x.isNaN = false ∧ y.isNaN = true)

/-- The bits of a number other than its sign, and its grade. -/
theorem grade_eq_magnitude {x : Float} (hx : x.isNaN = false) :
    x.toBits.toNat % 2 ^ 63 ≤ greatestMagnitude ∧
      Selection.grade x =
        gradeOfMagnitude (x.toBits.toNat % 2 ^ 63) (signOf x.toBits.toNat) := by
  obtain ⟨hfull, hgrade⟩ := gradeOf_unpack x.toModel.toBits.toBitVec hx
  have hbits : x.toModel.toBits.toBitVec.toNat = x.toBits.toNat := rfl
  rw [hbits] at hfull hgrade
  have hdiv : x.toBits.toNat / 2 ^ 52 % 2 ^ 11 = x.toBits.toNat % 2 ^ 63 / 2 ^ 52 := by omega
  have hmod : x.toBits.toNat % 2 ^ 52 = x.toBits.toNat % 2 ^ 63 % 2 ^ 52 := by omega
  refine ⟨?_, ?_⟩
  · unfold greatestMagnitude
    omega
  · rw [Selection.grade, gradeOfMagnitude, ← hdiv, ← hmod]
    exact hgrade

/-- There is one double that is not a number. -/
theorem toBits_of_isNaN {x : Float} (hx : x.isNaN = true) : x.toBits = 0x7FF8000000000000 := by
  have hvalid := x.toModel.valid.eq_packedNaN
  have hx' : (UnpackedFloat.unpack Format.binary64 x.toModel.toBits.toBitVec).isNaN = true := hx
  have hpacked : x.toModel.toBits.toBitVec = packedNaN Format.binary64 := by
    unfold UnpackedFloat.unpack at hx'
    dsimp only at hx'
    split at hx'
    · rename_i hexponent
      split at hx'
      · cases hx'
      · -- Of all the patterns that mean no number, only the canonical one is a double here.
        rename_i hmantissa
        exact hvalid hexponent hmantissa
    · split at hx'
      · split at hx' <;> cases hx'
      · cases hx'
  exact UInt64.eq_of_toBitVec_eq hpacked

/-- It ranks above infinity. -/
theorem rank_of_isNaN {x : Float} (hx : x.isNaN = true) :
    rank x = 2 ^ 63 + 0x7FF8000000000000 := by
  rw [rank, toBits_of_isNaN hx]
  rfl

/-- A number has a lower rank than `NaN`. -/
theorem rank_lt_of_isNaN {x y : Float} (hx : x.isNaN = false) (hy : y.isNaN = true) :
    rank x < rank y := by
  obtain ⟨hle, -⟩ := grade_eq_magnitude hx
  unfold greatestMagnitude at hle
  rw [rank_of_isNaN hy]
  by_cases hsx : x.toBits.toNat / 2 ^ 63 = 0
  · rw [rank_of_positive hsx]
    omega
  · rw [rank_of_negative hsx]
    omega

/-- Numbers are ranked as they compare, and the zeros by their signs. -/
theorem rank_lt_rank_iff_of_number {x y : Float} (hx : x.isNaN = false) (hy : y.isNaN = false) :
    rank x < rank y ↔ x < y ∨ (x = -0.0 ∧ y = 0.0) := by
  obtain ⟨hlex, hgradex⟩ := grade_eq_magnitude hx
  obtain ⟨hley, hgradey⟩ := grade_eq_magnitude hy
  have hltx := x.toBits.toNat_lt
  have hlty := y.toBits.toNat_lt
  have hminus : x = -0.0 ↔ x.toBits.toNat = 2 ^ 63 := by
    rw [show (2 ^ 63 : Nat) = (-0.0 : Float).toBits.toNat from rfl, UInt64.toNat_inj]
    exact ⟨congrArg _, float_eq_of_toBits⟩
  have hplus : y = 0.0 ↔ y.toBits.toNat = 0 := by
    rw [show (0 : Nat) = (0.0 : Float).toBits.toNat from rfl, UInt64.toNat_inj]
    exact ⟨congrArg _, float_eq_of_toBits⟩
  rw [Selection.lt_iff_grade_lt hx hy, hgradex, hgradey, hminus, hplus, signOf, signOf]
  -- The signs decide which of the four comparisons of magnitudes applies.
  by_cases hsx : x.toBits.toNat / 2 ^ 63 = 0 <;> by_cases hsy : y.toBits.toNat / 2 ^ 63 = 0
  · rw [if_pos hsx, if_pos hsy, gradeOfMagnitude_positive_lt_iff hlex hley, rank_of_positive hsx,
      rank_of_positive hsy]
    omega
  · rw [if_pos hsx, if_neg hsy, or_iff_right not_gradeOfMagnitude_positive_lt_negative,
      rank_of_positive hsx, rank_of_negative hsy]
    omega
  · rw [if_neg hsx, if_pos hsy, gradeOfMagnitude_negative_lt_positive_iff, rank_of_negative hsx,
      rank_of_positive hsy]
    omega
  · rw [if_neg hsx, if_neg hsy, gradeOfMagnitude_negative_lt_iff hlex hley, rank_of_negative hsx,
      rank_of_negative hsy]
    omega

/-- Nothing is above `NaN`. -/
theorem not_totalLt_of_isNaN {x y : Float} (hx : x.isNaN = true) : ¬ TotalLt x y := by
  rintro (hlt | ⟨rfl, -⟩ | ⟨hnum, -⟩)
  · have hlt' : x.toModel.unpack.compare y.toModel.unpack = some .lt := by
      simpa [LT.lt, Float.lt, Float.Model.lt, UnpackedFloat.lt] using hlt
    have hx' : x.toModel.unpack.isNaN = true := hx
    cases hunpack : x.toModel.unpack with
    | notANumber =>
      rw [hunpack] at hlt'
      cases hlt'
    | infinity | zero | finite =>
      rw [hunpack] at hx'
      cases hx'
  · cases hx
  · rw [hx] at hnum
    cases hnum

/-- Ranks are in the total order of doubles. -/
theorem rank_lt_rank_iff {x y : Float} : rank x < rank y ↔ TotalLt x y := by
  cases hx : x.isNaN with
  | true =>
    -- Nothing ranks above what is not a number.
    refine iff_of_false ?_ (not_totalLt_of_isNaN hx)
    rw [rank_of_isNaN hx, not_lt]
    cases hy : y.isNaN with
    | true => rw [rank_of_isNaN hy]
    | false =>
      have hlt := rank_lt_of_isNaN hy hx
      rw [rank_of_isNaN hx] at hlt
      exact hlt.le
  | false =>
    cases hy : y.isNaN with
    | true => exact iff_of_true (rank_lt_of_isNaN hx hy) (.inr (.inr ⟨hx, hy⟩))
    | false =>
      rw [rank_lt_rank_iff_of_number hx hy, TotalLt, hx, hy]
      simp

/-! ### The order of the rules -/

/-- The rules are tried each under its place, none left out and none twice. -/
theorem ordered_perm (rules : List Rule) :
    (ordered rules).Perm (rules.zipIdx.map fun (rule, i) => (i, rule)) :=
  List.mergeSort_perm _ _

/-- No rule is lost by ordering. -/
theorem length_ordered (rules : List Rule) : (ordered rules).length = rules.length := by
  rw [(ordered_perm rules).length_eq, List.length_map, List.length_zipIdx]

/-- Each rule stands in one place. -/
theorem nodup_places (rules : List Rule) : ((ordered rules).map (·.1)).Nodup := by
  rw [((ordered_perm rules).map _).nodup_iff, List.map_map]
  show (rules.zipIdx.map Prod.snd).Nodup
  rw [List.zipIdx_map_snd]
  exact List.nodup_range'

/-- A rule is tried before another one if its score is higher, or if the scores are equal and it was
added first. -/
theorem ordered_pairwise (rules : List Rule) :
    (ordered rules).Pairwise fun a b =>
      TotalLt b.2.score a.2.score ∨ (a.2.score = b.2.score ∧ a.1 < b.1) := by
  let placed : List (Nat × Rule) := rules.zipIdx.map fun (rule, i) => (i, rule)
  let le : Nat × Rule → Nat × Rule → Bool := fun a b => rank b.2.score ≤ rank a.2.score
  have htrans : ∀ a b c, le a b → le b c → le a c := by
    intro a b c hab hbc
    exact decide_eq_true ((of_decide_eq_true hbc).trans (of_decide_eq_true hab))
  have htotal : ∀ a b, le a b || le b a := by
    intro a b
    rw [Bool.or_eq_true]
    exact (Nat.le_total _ _).imp decide_eq_true decide_eq_true
  -- Sorting is stable: it sorts by rank and, among rules of one rank, by what comes first.
  have hstable : ((placed.zipIdx.mergeSort (List.zipIdxLE le)).map (·.1)).Pairwise fun a b =>
      le a b = true ∧ (le b a = true → a.1 ≤ b.1) := by
    rw [List.pairwise_map]
    refine (List.pairwise_mergeSort (List.zipIdxLE_trans htrans) (List.zipIdxLE_total htotal)
      placed.zipIdx).imp_of_mem ?_
    intro a b ha hb hab
    have hplace : ∀ x ∈ placed.zipIdx.mergeSort (List.zipIdxLE le), x.2 = x.1.1 := by
      intro x hx
      rw [List.mem_mergeSort, List.mem_zipIdx_iff_getElem?, List.getElem?_map,
        Option.map_eq_some_iff] at hx
      obtain ⟨⟨rule, i⟩, hrule, hx⟩ := hx
      rw [List.getElem?_zipIdx, Option.map_eq_some_iff] at hrule
      obtain ⟨_, _, heq⟩ := hrule
      obtain ⟨_, rfl⟩ := Prod.mk.inj heq
      rw [← hx, Nat.zero_add]
    rw [← hplace a ha, ← hplace b hb]
    simp only [List.zipIdxLE] at hab
    split_ifs at hab with h1 h2
    · exact ⟨h1, fun _ => of_decide_eq_true hab⟩
    · exact ⟨h1, fun h => absurd h h2⟩
  rw [List.mergeSort_zipIdx] at hstable
  have hdistinct : (ordered rules).Pairwise fun a b => a.1 ≠ b.1 :=
    List.pairwise_map.mp (nodup_places rules)
  refine (hstable.and hdistinct).imp ?_
  rintro a b ⟨⟨hle, htie⟩, hne⟩
  rcases Nat.lt_or_ge (rank b.2.score) (rank a.2.score) with hlt | hge
  · exact .inl (rank_lt_rank_iff.mp hlt)
  · have hrank : rank a.2.score = rank b.2.score := Nat.le_antisymm hge (of_decide_eq_true hle)
    exact .inr ⟨rank_inj.mp hrank, lt_of_le_of_ne (htie (decide_eq_true hge)) hne⟩

end Colloquy.Rules
