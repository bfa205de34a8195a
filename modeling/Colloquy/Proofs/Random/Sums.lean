import Mathlib
import Colloquy.Proofs.Random.Greatest

/-!
# Sums of doubles

Rounding does not take a sum of positive doubles to zero (`add_pos`, `foldl_add_pos`).  The exact
sum is a whole multiple of the least positive double, since both doubles are.  So what rounding
drops of its mantissa leaves a first digit, however many digits that are too many are dropped
(`shiftToTargetExponent_bounds`), and a number with such a mantissa and exponent has bits that stand
for a positive double (`Positive.pack`).
-/

namespace Colloquy.Selection

open Float.Model (Format UnpackedFloat totalExponent)
open Float.Model.UnpackedFloat

/-- Positive infinity, or a positive number with a mantissa and an exponent that doubles can
have. -/
inductive Positive : UnpackedFloat → Prop
  | infinity : Positive (.infinity .positive)
  | finite {m : Nat} {e : Int} (hm : 0 < m) (fits : m < 2 ^ 53) (least : -1074 ≤ e) :
      Positive (.finite .positive m e hm)

/-! ### Bits -/

theorem unpackSign_packComponents (e : BitVec 11) (m : BitVec 52) :
    @unpackSign Format.binary64 (packComponents Format.binary64 .positive e m) = 0#1 := by
  simp only [unpackSign, packComponents, BitVec.extractLsb]
  rw [BitVec.extractLsb'_append_eq_of_le (by decide), BitVec.extractLsb'_append_eq_of_le (by decide)]
  rfl

/-- Bits without a sign stand for a positive double unless all of them are zero or there is a
mantissa where the exponent is full. -/
theorem positive_unpack {b : BitVec 64} (hsign : @unpackSign Format.binary64 b = 0#1)
    (hne : @unpackExponent Format.binary64 b = 0#11 → @unpackMantissa Format.binary64 b ≠ 0#52)
    (hnum : @unpackExponent Format.binary64 b = -1#11 → @unpackMantissa Format.binary64 b = 0#52) :
    Positive (unpack Format.binary64 b) := by
  have hbias : ((Format.binary64.exponentBias : Nat) : Int) = 1023 := rfl
  have hpositive : Sign.ofBitVec (@unpackSign Format.binary64 b) = .positive := by
    rw [hsign]
    rfl
  have hmantissa : (@unpackMantissa Format.binary64 b).toNat < 2 ^ 52 := BitVec.isLt _
  unfold unpack
  dsimp only
  rw [hpositive]
  -- Infinity, no number, zero, a subnormal number and a normal one.
  split_ifs with hfull hzero hempty hzero
  · exact .infinity
  · exact absurd (hnum hfull) hzero
  · exact absurd hzero (hne hempty)
  · refine .finite _ (by omega) ?_
    rw [hempty, hbias]
    decide
  · have hpos : (@unpackExponent Format.binary64 b).toNat ≠ 0 :=
      fun h => hempty (BitVec.eq_of_toNat_eq h)
    refine .finite _ (BitVec.isLt _) ?_
    rw [hbias]
    omega

theorem positive_unpack_packComponents {e : BitVec 11} {m : BitVec 52} (hne : e = 0#11 → m ≠ 0#52)
    (hnum : e = -1#11 → m = 0#52) :
    Positive (unpack Format.binary64 (packComponents Format.binary64 .positive e m)) := by
  apply positive_unpack
  · exact unpackSign_packComponents ..
  · rwa [unpackExponent_packComponents, unpackMantissa_packComponents]
  · rwa [unpackExponent_packComponents, unpackMantissa_packComponents]

theorem Positive.pack {u : UnpackedFloat} (h : Positive u) :
    Positive (unpack Format.binary64 (UnpackedFloat.pack Format.binary64 u)) := by
  have hinfinity : Positive (unpack Format.binary64 (packedInfinity Format.binary64 .positive)) :=
    positive_unpack_packComponents (by decide) fun _ => rfl
  cases h with
  | infinity => exact hinfinity
  | @finite m e hm fits least =>
    have hbias : ((Format.binary64.exponentBias : Nat) : Int) = 1023 := rfl
    unfold UnpackedFloat.pack
    dsimp only
    split_ifs with hlarge hnormal
    · exact hinfinity
    · -- The exponent is neither empty nor full.
      rw [hbias] at hlarge ⊢
      refine positive_unpack_packComponents (fun hempty => ?_) fun hfull => ?_
      · have hexponent := congrArg BitVec.toNat hempty
        rw [BitVec.toNat_ofNat] at hexponent
        change _ = 0 at hexponent
        omega
      · have hexponent := congrArg BitVec.toNat hfull
        rw [BitVec.toNat_ofNat] at hexponent
        change _ = 2047 at hexponent
        omega
    · -- The mantissa is not empty, and it is stored whole.
      have hlog : m.log2 < 53 := (Nat.log2_lt hm.ne').mpr fits
      have hsmall : m < 2 ^ 52 := by
        rw [← Nat.log2_lt hm.ne']
        change ¬ m.log2 + 1 = 53 at hnormal
        omega
      refine positive_unpack_packComponents (fun _ hempty => ?_) fun hfull => nomatch hfull
      have hmantissa := congrArg BitVec.toNat hempty
      rw [BitVec.toNat_ofNat, Nat.mod_eq_of_lt hsmall] at hmantissa
      exact hm.ne' hmantissa

/-! ### Rounding -/

theorem mantissa_shiftRight (em : ExtendedMantissa) (n : Nat) :
    (em >>> n).mantissa = em.mantissa / 2 ^ n := by
  induction n with
  | zero => exact (Nat.div_one _).symm
  | succ n ih =>
    show (em >>> n).mantissa / 2 = _
    rw [ih, Nat.div_div_eq_div_mul, Nat.pow_succ]

theorem mantissa_ofMantissaAndAccuracy (m : Nat) (accuracy : Accuracy) :
    (ExtendedMantissa.ofMantissaAndAccuracy m accuracy).mantissa = m := by
  rcases accuracy with _ | _ | _ | _ <;> rfl

theorem le_roundedMantissa (em : ExtendedMantissa) : em.mantissa ≤ em.roundedMantissa := by
  rw [ExtendedMantissa.roundedMantissa]
  rcases em.accuracy with _ | _ | _ | _ <;> simp [Accuracy.roundToNearestEven]

/-- Shifted to the exponent at which it is rounded, a positive mantissa still is one, and has at
most 53 digits. -/
theorem shiftToTargetExponent_bounds {m : Nat} {e : Int} (hm : 0 < m) (he : -1074 ≤ e)
    (accuracy : Accuracy) :
    let shifted := shiftToTargetExponent Format.binary64 m e accuracy
    0 < shifted.1.mantissa ∧ shifted.1.mantissa < 2 ^ 53 ∧ -1074 ≤ shifted.2 := by
  have htarget : Format.binary64.targetExponent (totalExponent m e) =
      max (m.log2 + 1 + e - 53) (-1074) := rfl
  have hshift : (max (m.log2 + 1 + e - 53) (-1074) - e).toNat = m.log2 - 52 := by omega
  dsimp only [shiftToTargetExponent, shiftToExponent]
  rw [htarget, hshift, mantissa_shiftRight, mantissa_ofMantissaAndAccuracy]
  refine ⟨?_, ?_, by omega⟩
  · refine Nat.div_pos ?_ (Nat.two_pow_pos _)
    calc 2 ^ (m.log2 - 52) ≤ 2 ^ m.log2 := Nat.pow_le_pow_right (by decide) (Nat.sub_le _ _)
      _ ≤ m := Nat.log2_self_le hm.ne'
  · rw [Nat.div_lt_iff_lt_mul (Nat.two_pow_pos _), ← Nat.pow_add]
    calc m < 2 ^ (m.log2 + 1) := Nat.lt_log2_self
      _ ≤ 2 ^ (53 + (m.log2 - 52)) := Nat.pow_le_pow_right (by decide) (by omega)

theorem positive_round {m : Nat} {e : Int} (hm : 0 < m) (he : -1074 ≤ e) :
    Positive (UnpackedFloat.round Format.binary64 .positive m e) := by
  have htarget : -1074 ≤ Format.binary64.targetExponent (totalExponent m e) := le_max_right _ _
  have hround {m : Nat} {e : Int} (hm : 0 < m) (he : -1074 ≤ e) :
      Positive (roundWithAccuracy Format.binary64 .positive m e .exact) := by
    obtain ⟨hpos, -, hleast⟩ := shiftToTargetExponent_bounds hm he .exact
    -- What is rounded up may have one digit more, and is shifted again.
    have hrounded := hpos.trans_le (le_roundedMantissa _)
    obtain ⟨hpos', hfits', hleast'⟩ := shiftToTargetExponent_bounds hrounded hleast .exact
    unfold roundWithAccuracy
    dsimp only
    rw [dif_neg hpos'.ne']
    exact .finite _ hfits' hleast'
  unfold UnpackedFloat.round decreaseExponent
  refine hround ?_ ?_
  · rw [Nat.shiftLeft_eq]
    exact Nat.mul_pos hm (Nat.two_pow_pos _)
  · omega

/-! ### Sums -/

theorem Positive.add {u v : UnpackedFloat} (hu : Positive u) (hv : Positive v) :
    Positive (UnpackedFloat.add Format.binary64 u v) := by
  cases hu with
  | infinity => cases hv <;> exact .infinity
  | @finite m e hm fits least =>
    cases hv with
    | infinity => exact .infinity
    | @finite m' e' hm' fits' least' =>
      -- Both mantissas are brought to the lower exponent, where neither vanishes.
      have hsum : 0 < m <<< (e - min e e').toNat + m' <<< (e' - min e e').toNat := by
        rw [Nat.shiftLeft_eq]
        exact Nat.add_pos_left (Nat.mul_pos hm (Nat.two_pow_pos _)) _
      show Positive (UnpackedFloat.normalize Format.binary64
        (((m <<< (e - min e e').toNat : Nat) : Int) + ((m' <<< (e' - min e e').toNat : Nat) : Int))
        (min e e') .positive)
      rw [← Int.natCast_add, UnpackedFloat.normalize]
      have hcompare :
          compare ((m <<< (e - min e e').toNat + m' <<< (e' - min e e').toNat : Nat) : Int)
            0 = .gt := Int.compare_eq_gt.mpr (by omega)
      rw [hcompare]
      exact positive_round hsum (by omega)

/-- A double is above zero just if its bits stand for a positive one. -/
theorem zero_lt_iff {a : Float} : 0.0 < a ↔ Positive a.toModel.unpack := by
  have hlt : 0.0 < a ↔ UnpackedFloat.lt (.zero .positive) a.toModel.unpack = true := by
    show decide (UnpackedFloat.lt (.zero .positive) a.toModel.unpack = true) = true ↔ _
    exact decide_eq_true_iff
  rw [hlt]
  constructor
  · intro h
    change UnpackedFloat.lt _ (unpack Format.binary64 a.toModel.toBits.toBitVec) = true at h
    show Positive (unpack Format.binary64 a.toModel.toBits.toBitVec)
    generalize a.toModel.toBits.toBitVec = b at h ⊢
    unfold unpack at h
    dsimp only at h
    -- A sign bit, an empty mantissa or no number would each make the comparison fail.
    refine positive_unpack ?_ (fun hempty hzero => ?_) fun hfull => ?_
    · by_contra hsign
      have hnegative : Sign.ofBitVec (@unpackSign Format.binary64 b) = .negative := if_neg hsign
      rw [hnegative] at h
      split_ifs at h <;> cases h
    · have hfull : @unpackExponent Format.binary64 b ≠ -1#11 := by
        rw [hempty]
        decide
      rw [if_neg hfull, if_pos hempty, dif_pos hzero] at h
      cases h
    · by_contra hzero
      rw [if_pos hfull, if_neg hzero] at h
      cases h
  · intro h
    generalize a.toModel.unpack = u at h
    cases h <;> rfl

/-- The double is exactly zero, without a sign, or above zero. -/
def ZeroOrAbove (a : Float) : Prop :=
  a = 0.0 ∨ 0.0 < a

theorem add_pos {a b : Float} (ha : ZeroOrAbove a) (hb : ZeroOrAbove b)
    (h : 0.0 < a ∨ 0.0 < b) : 0.0 < a + b := by
  have hirrefl : ¬ (0.0 : Float) < 0.0 := by decide +kernel
  rw [zero_lt_iff]
  show Positive (unpack Format.binary64 (UnpackedFloat.pack Format.binary64
    (UnpackedFloat.add Format.binary64 a.toModel.unpack b.toModel.unpack)))
  apply Positive.pack
  rcases ha with rfl | ha
  · -- The sum of zero and a positive double is that double.
    have hb := zero_lt_iff.mp (h.resolve_left hirrefl)
    show Positive (UnpackedFloat.add Format.binary64 (.zero .positive) b.toModel.unpack)
    generalize b.toModel.unpack = v at hb
    cases hb with
    | infinity => exact .infinity
    | finite hm fits least => exact .finite hm fits least
  · rcases hb with rfl | hb
    · have ha := zero_lt_iff.mp ha
      show Positive (UnpackedFloat.add Format.binary64 a.toModel.unpack (.zero .positive))
      generalize a.toModel.unpack = u at ha
      cases ha with
      | infinity => exact .infinity
      | finite hm fits least => exact .finite hm fits least
    · exact (zero_lt_iff.mp ha).add (zero_lt_iff.mp hb)

theorem zero_add_zero : (0.0 + 0.0 : Float) = 0.0 := rfl

/-- The sum of doubles, none of them below zero, is above zero if one of them is. -/
theorem foldl_add_pos {ws : List Float} (hws : ∀ w ∈ ws, ZeroOrAbove w) {start : Float}
    (hstart : ZeroOrAbove start) (h : 0.0 < start ∨ ∃ w ∈ ws, 0.0 < w) :
    0.0 < ws.foldl (· + ·) start := by
  induction ws generalizing start with
  | nil => exact h.resolve_right fun ⟨_, hw, _⟩ => List.not_mem_nil hw
  | cons w ws ih =>
    obtain ⟨hw, hws⟩ := List.forall_mem_cons.mp hws
    rw [List.foldl_cons]
    by_cases hpos : 0.0 < start ∨ 0.0 < w
    · have hsum := add_pos hstart hw hpos
      exact ih hws (.inr hsum) (.inl hsum)
    · -- Both are zero, so the positive one is yet to come.
      rw [not_or] at hpos
      have hsum : start + w = 0.0 := by
        rw [hstart.resolve_right hpos.1, hw.resolve_right hpos.2, zero_add_zero]
      refine ih hws (.inl hsum) (.inr ?_)
      obtain ⟨v, hv, hvpos⟩ := h.resolve_left hpos.1
      exact ⟨v, (List.mem_cons.mp hv).resolve_left fun heq => hpos.2 (heq ▸ hvpos), hvpos⟩

theorem foldl_add_zero {ws : List Float} (hws : ∀ w ∈ ws, w = 0.0) :
    ws.foldl (· + ·) 0.0 = 0.0 := by
  induction ws with
  | nil => rfl
  | cons w ws ih =>
    obtain ⟨hw, hrest⟩ := List.forall_mem_cons.mp hws
    rw [List.foldl_cons, hw, zero_add_zero, ih hrest]

end Colloquy.Selection
