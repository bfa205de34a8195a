import Colloquy.Regex.Cursor

/-!
# Sets of positions

The positions of a subject with `n` characters are the numbers from `0` to `n`.  A set of them is
held as the bits of one number.
-/

namespace Colloquy.Regex

/-- A set of positions: `i` belongs to it when bit `i` is set. -/
structure Positions where
  bits : Nat
  deriving DecidableEq, Repr

namespace Positions

/-- The position belongs to the set. -/
def contains (s : Positions) (i : Nat) : Bool :=
  s.bits.testBit i

/-- No position at all. -/
def none : Positions := ⟨0⟩

/-- No position belongs to the set. -/
def isEmpty (s : Positions) : Bool :=
  s.bits == 0

/-- The last position of a set that is not empty. -/
def last (s : Positions) : Nat :=
  s.bits.log2

/-- Adds a position. -/
def add (s : Positions) (i : Nat) : Positions := ⟨s.bits ||| 1 <<< i⟩

/-- One position. -/
def single (i : Nat) : Positions := none.add i

/-- The listed positions. -/
def ofList (is : List Nat) : Positions :=
  is.foldl add none

/-- The positions of both sets. -/
def union (s t : Positions) : Positions := ⟨s.bits ||| t.bits⟩

/-- The positions of `s` that are not in `t`. -/
def diff (s t : Positions) : Positions := ⟨s.bits ^^^ (s.bits &&& t.bits)⟩

/-- The positions of the bits of a number, descending; `fuel` bounds their number. -/
def bitsOf : (fuel bits : Nat) → List Nat
  | 0, _ => []
  | fuel + 1, bits =>
    if bits = 0 then [] else bits.log2 :: bitsOf fuel (bits ^^^ 1 <<< bits.log2)

/-- The members, descending. -/
def toList (s : Positions) : List Nat :=
  bitsOf (s.bits.log2 + 1) s.bits

/-! ### Members -/

@[simp] theorem contains_none (i : Nat) : none.contains i = false := by
  simp [none, contains]

@[simp] theorem contains_add (s : Positions) (i j : Nat) :
    (s.add i).contains j = (s.contains j || decide (i = j)) := by
  rw [add, contains, Nat.testBit_or, Nat.one_shiftLeft, Nat.testBit_two_pow, contains]

@[simp] theorem contains_single (i j : Nat) : (single i).contains j = decide (i = j) := by
  simp [single]

@[simp] theorem contains_union (s t : Positions) (i : Nat) :
    (s.union t).contains i = (s.contains i || t.contains i) := by
  simp [union, contains]

@[simp] theorem contains_diff (s t : Positions) (i : Nat) :
    (s.diff t).contains i = (s.contains i && !t.contains i) := by
  simp only [diff, contains, Nat.testBit_xor, Nat.testBit_and]
  cases s.bits.testBit i <;> cases t.bits.testBit i <;> rfl

theorem contains_foldl_add (is : List Nat) (s : Positions) (j : Nat) :
    (is.foldl add s).contains j = (s.contains j || decide (j ∈ is)) := by
  induction is generalizing s with
  | nil => simp
  | cons i is ih => simp [ih, Bool.or_assoc, eq_comm]

@[simp] theorem contains_ofList (is : List Nat) (j : Nat) :
    (ofList is).contains j = decide (j ∈ is) := by
  simp [ofList, contains_foldl_add]

@[simp] theorem isEmpty_iff (s : Positions) : s.isEmpty = true ↔ ∀ i, s.contains i = false := by
  rw [isEmpty, beq_iff_eq]
  exact ⟨fun h i => by simp [contains, h],
    fun h => Nat.eq_of_testBit_eq fun i => by simpa [contains] using h i⟩

theorem testBit_log2_self {bits : Nat} (h : bits ≠ 0) : bits.testBit bits.log2 = true := by
  obtain ⟨i, hi, ht⟩ := Nat.exists_ge_and_testBit_of_ge_two_pow (Nat.log2_self_le h)
  have : i < bits.log2 + 1 := by
    refine Nat.lt_of_not_le fun hge => ?_
    have hlt : bits < 2 ^ i :=
      Nat.lt_of_lt_of_le Nat.lt_log2_self (Nat.pow_le_pow_right (by decide) hge)
    simp [Nat.testBit_lt_two_pow hlt] at ht
  obtain rfl : i = bits.log2 := by omega
  exact ht

theorem mem_bitsOf (fuel bits i : Nat) (h : bits < 1 <<< fuel) :
    i ∈ bitsOf fuel bits ↔ bits.testBit i = true := by
  induction fuel generalizing bits with
  | zero =>
    obtain rfl : bits = 0 := by simpa using h
    simp [bitsOf]
  | succ fuel ih =>
    by_cases h0 : bits = 0
    · simp [bitsOf, h0]
    · have htop := testBit_log2_self h0
      -- Without its highest bit, the number is below that bit.
      have hrest : bits ^^^ 1 <<< bits.log2 < 1 <<< fuel := by
        rw [Nat.one_shiftLeft] at h
        simp only [Nat.one_shiftLeft]
        have hle : bits.log2 ≤ fuel := Nat.le_of_lt_succ ((Nat.log2_lt h0).2 h)
        refine Nat.lt_of_lt_of_le ?_ (Nat.pow_le_pow_right (by decide) hle)
        refine Nat.lt_pow_two_of_testBit _ fun j hj => ?_
        rw [Nat.testBit_xor, Nat.testBit_two_pow]
        by_cases hj' : bits.log2 = j
        · subst hj'; simp [htop]
        · have : bits < 2 ^ j :=
            Nat.lt_of_lt_of_le Nat.lt_log2_self (Nat.pow_le_pow_right (by decide) (by omega))
          simp [hj', Nat.testBit_lt_two_pow this]
      rw [bitsOf, if_neg h0, List.mem_cons, ih _ hrest, Nat.testBit_xor, Nat.one_shiftLeft,
        Nat.testBit_two_pow]
      by_cases hi : i = bits.log2
      · subst hi; simp [htop]
      · simp [hi, Ne.symm hi]

@[simp] theorem mem_toList (s : Positions) (i : Nat) : i ∈ s.toList ↔ s.contains i = true :=
  mem_bitsOf _ _ _ (by rw [Nat.one_shiftLeft]; exact Nat.lt_log2_self)

end Positions

/-- The positions after one character that satisfies the test. -/
def Positions.step (s : Positions) (subject : Subject) (test : Char → Bool) : Positions :=
  .ofList (s.toList.filterMap (stepOver subject test))

/-- The positions that satisfy the test. -/
def Positions.filter (s : Positions) (test : Nat → Bool) : Positions :=
  .ofList (s.toList.filter test)

end Colloquy.Regex
