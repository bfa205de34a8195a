import Mathlib
import Colloquy.Text.Case
import Colloquy.Text.Fold
import Colloquy.Text.WordChar

/-!
# Lower case and case folding

The lower case of a text is the text again, character by character and up to case, and words stay
words (`forall₂_lowerAfter`).  The exception is `İ`, whose lower case is two characters and which is
like no other character up to case.

What the case maps do is read off their runs.  The lower case of a character folds as the character
does, because each run of the one map is a run of the other or, where small letters fold to
capitals, the reverse of one, and what is folded is not folded further (`Concordant.fold_lower`).
Nor has a text in lower case another lower case (`lowerAfter_eq_self`).
-/

namespace Colloquy.Text

/-! ### Sets of code points -/

namespace CodePoints

/-- The range is not empty, and the next one begins behind it. -/
def Before (r next : Nat × Nat) : Prop := r.1 ≤ r.2 ∧ r.2 < next.1

instance : DecidableRel Before := fun _ _ => inferInstanceAs (Decidable (_ ∧ _))

instance : IsTrans (Nat × Nat) Before := ⟨fun _ _ _ h h' => ⟨h.1, h.2.trans (h'.1.trans_lt h'.2)⟩⟩

/-- In ascending ranges, all code points of a range are found. -/
theorem hasCode_of_mem {set : CodePoints} (hset : set.Pairwise Before) {r : Nat × Nat} (hr : r ∈ set)
    {n : Nat} (hn : r.1 ≤ n ∧ n ≤ r.2) : set.hasCode n = true := by
  induction set with
  | nil => cases hr
  | cons first set ih =>
    obtain ⟨hfirst, hset⟩ := List.pairwise_cons.mp hset
    rw [hasCode]
    rcases List.mem_cons.mp hr with rfl | hr
    · rw [if_neg (by omega), if_pos hn.2]
    · have hbefore := hfirst r hr
      -- The range is a later one, so the first is passed over.
      rw [if_neg (by rw [Before] at hbefore; omega)]
      split
      · rfl
      · exact ih hset hr

/-- The intervals that are left when those at the front that lie in the range are dropped. -/
def dropWithin (pending : List (Nat × Nat)) (r : Nat × Nat) : List (Nat × Nat) :=
  pending.dropWhile fun p => Nat.ble r.1 p.1 && Nat.ble p.2 r.2

/-- If ranges take away all intervals, each one lies in a range. -/
theorem exists_range_of_foldl_dropWithin {set pending : List (Nat × Nat)}
    (h : set.foldl dropWithin pending = []) :
    ∀ p ∈ pending, ∃ r ∈ set, r.1 ≤ p.1 ∧ p.2 ≤ r.2 := by
  induction set generalizing pending with
  | nil =>
    rw [List.foldl_nil] at h
    rw [h]
    exact fun _ hp => nomatch hp
  | cons r set ih =>
    intro p hp
    rw [← List.takeWhile_append_dropWhile
      (p := fun p : Nat × Nat => Nat.ble r.1 p.1 && Nat.ble p.2 r.2) (l := pending)] at hp
    rcases List.mem_append.mp hp with hp | hp
    · have hwithin := List.mem_takeWhile_imp hp
      rw [Bool.and_eq_true, Nat.ble_eq, Nat.ble_eq] at hwithin
      exact ⟨r, .head _, hwithin⟩
    · obtain ⟨r', hr', hin⟩ := ih h p hp
      exact ⟨r', .tail _ hr', hin⟩

end CodePoints

/-! ### Runs of case maps -/

namespace CaseRun

/-- The code points that the run sends elsewhere. -/
def codes (run : CaseRun) : List Nat :=
  (List.range ((run.last - run.first) / run.stride + 1)).map fun k => run.first + run.stride * k

/-- Where the run sends a code point. -/
def move (run : CaseRun) (n : Nat) : Nat := (n + run.shift).toNat

/-- The run that sends each code point back. -/
def reverse (run : CaseRun) : CaseRun :=
  ⟨run.move run.first, run.move run.last, run.stride, -run.shift⟩

/-- The run is not empty, and the next one begins behind it. -/
def Before (run next : CaseRun) : Prop := run.first ≤ run.last ∧ run.last < next.first

instance : DecidableRel Before := fun _ _ => inferInstanceAs (Decidable (_ ∧ _))

instance : IsTrans CaseRun Before := ⟨fun _ _ _ h h' => ⟨h.1, h.2.trans (h'.1.trans_lt h'.2)⟩⟩

variable {run : CaseRun} {n : Nat}

/-- A code point of a run stands between its ends, a number of strides from the first. -/
theorem le_of_mem_codes (hle : run.first ≤ run.last) (h : n ∈ run.codes) :
    run.first ≤ n ∧ n ≤ run.last ∧ (n - run.first) % run.stride = 0 := by
  obtain ⟨k, hk, rfl⟩ := List.mem_map.mp h
  have hk' : k ≤ (run.last - run.first) / run.stride := Nat.le_of_lt_succ (List.mem_range.mp hk)
  have hmul : run.stride * k ≤ run.last - run.first :=
    (Nat.mul_le_mul_left _ hk').trans (Nat.mul_div_le _ _)
  refine ⟨Nat.le_add_right _ _, by omega, ?_⟩
  rw [Nat.add_sub_cancel_left, Nat.mul_mod_right]

/-- Whatever stands so is a code point of the run. -/
theorem mem_codes (hle : run.first ≤ n) (hn : n ≤ run.last)
    (hstride : (n - run.first) % run.stride = 0) :
    n ∈ run.codes := by
  refine List.mem_map.mpr ⟨(n - run.first) / run.stride, ?_, ?_⟩
  · have := Nat.div_le_div_right (c := run.stride) (Nat.sub_le_sub_right hn run.first)
    exact List.mem_range.mpr (Nat.lt_succ_of_le this)
  · rw [Nat.mul_div_cancel' (Nat.dvd_of_mod_eq_zero hstride)]
    omega

end CaseRun

namespace CaseMap

variable {map : CaseMap} {n : Nat}

/-- A map leaves a code point alone, or one of its runs moves it. -/
theorem code_cases (map : CaseMap) (n : Nat) :
    map.code n = n ∨ ∃ run ∈ map, n ∈ run.codes ∧ map.code n = run.move n := by
  induction map with
  | nil => exact .inl rfl
  | cons run map ih =>
    rw [code]
    split_ifs with hfirst hlast hstride
    · exact .inl rfl
    · exact .inr ⟨run, .head _, CaseRun.mem_codes (Nat.le_of_not_lt hfirst) hlast hstride, rfl⟩
    · exact .inl rfl
    · rcases ih with hself | ⟨other, hother, hmoved⟩
      · exact .inl hself
      · exact .inr ⟨other, .tail _ hother, hmoved⟩

/-- In ascending runs, each run moves its code points. -/
theorem code_of_mem (hmap : map.Pairwise CaseRun.Before) {run : CaseRun} (hrun : run ∈ map)
    (hle : run.first ≤ run.last) (hn : n ∈ run.codes) : map.code n = run.move n := by
  obtain ⟨hfirst, hlast, hstride⟩ := CaseRun.le_of_mem_codes hle hn
  induction map with
  | nil => cases hrun
  | cons first map ih =>
    obtain ⟨hbefore, hmap⟩ := List.pairwise_cons.mp hmap
    rw [code]
    rcases List.mem_cons.mp hrun with rfl | hrun
    · rw [if_neg (Nat.not_lt.mpr hfirst), if_pos hlast, if_pos hstride]
      rfl
    · -- The run is a later one, so the first is passed over.
      have hbehind := hbefore run hrun
      rw [CaseRun.Before] at hbehind
      rw [if_neg (by omega), if_neg (by omega)]
      exact ih hmap hrun

/-- No run moves a code point from `a` to `b`; if `step` is two, every other one of them counts. -/
def spares (a b step : Nat) : CaseMap → Bool
  | [] => true
  | run :: rest =>
    bif Nat.blt b run.first then true
    else
      (Nat.blt run.last a ||
        (Nat.beq run.stride 2 && Nat.beq step 2 && Nat.beq ((a + run.first) % 2) 1)) &&
      spares a b step rest

/-- What is spared stays. -/
theorem code_eq_of_spares {a b step : Nat} (h : map.spares a b step = true) (ha : a ≤ n) (hb : n ≤ b)
    (hstep : step = 2 → (n - a) % 2 = 0) : map.code n = n := by
  induction map with
  | nil => rfl
  | cons run map ih =>
    rw [code]
    rw [spares, Bool.cond_eq_ite] at h
    split_ifs with hfirst hlast hstride
    · rfl
    · rw [if_neg (by rw [Nat.blt_eq]; omega), Bool.and_eq_true, Bool.or_eq_true, Bool.and_eq_true,
        Bool.and_eq_true, Nat.blt_eq, Nat.beq_eq, Nat.beq_eq, Nat.beq_eq] at h
      -- The run moves code points of the other parity.
      obtain hbefore | ⟨⟨htwo, hstep'⟩, hparity⟩ := h.1
      · omega
      · have := hstep hstep'
        rw [htwo] at hstride
        omega
    · rfl
    · split_ifs at h with hb'
      · rw [Nat.blt_eq] at hb'
        omega
      · rw [Bool.and_eq_true] at h
        exact ih h.2

/-- The runs that end in front of `a` can be left out. -/
theorem spares_of_dropWhile {a b step a' : Nat} (ha : a' ≤ a)
    (h : CaseMap.spares a b step (map.dropWhile fun run => Nat.blt run.last a') = true) :
    map.spares a b step = true := by
  induction map with
  | nil => rfl
  | cons run map ih =>
    rw [List.dropWhile_cons] at h
    split_ifs at h with hlast
    · rw [Nat.blt_eq] at hlast
      have hbefore : Nat.blt run.last a = true := Nat.blt_eq.mpr (hlast.trans_le ha)
      rw [spares, hbefore, Bool.true_or, Bool.true_and, ih h, Bool.cond_self]
    · exact h

/-- Each of the triples in a row is spared, by a search that goes on where the last one ended. -/
def sparesAll (map : CaseMap) : List (Nat × Nat × Nat) → Bool
  | [] => true
  | (a, b, step) :: rest =>
    let behind := map.dropWhile fun run => Nat.blt run.last a
    CaseMap.spares a b step behind && sparesAll behind rest

/-- Each of the triples is spared by the whole map. -/
theorem spares_of_sparesAll {triples : List (Nat × Nat × Nat)}
    (hsorted : triples.Pairwise fun p q => p.1 ≤ q.1) (h : map.sparesAll triples = true) :
    ∀ p ∈ triples, map.spares p.1 p.2.1 p.2.2 = true := by
  induction triples generalizing map with
  | nil => exact fun _ hp => nomatch hp
  | cons p triples ih =>
    obtain ⟨hp, hsorted⟩ := List.pairwise_cons.mp hsorted
    rw [sparesAll, Bool.and_eq_true] at h
    intro q hq
    rcases List.mem_cons.mp hq with rfl | hq
    · exact spares_of_dropWhile le_rfl h.1
    · exact spares_of_dropWhile (hp q hq) (ih hsorted h.2 q hq)

/-- A code point that no run moves, and to which none leads, has no other one that is sent there. -/
theorem code_eq_iff {m : Nat} (hm : map.code m = m)
    (havoids : ∀ run ∈ map,
      run.first ≤ run.last ∧ (run.move run.last < m ∨ m < run.move run.first)) :
    map.code n = m ↔ n = m := by
  constructor
  · intro h
    rcases map.code_cases n with hself | ⟨run, hrun, hn, hmoved⟩
    · exact hself.symm.trans h
    · -- A run that sends something to `m` would have it in its image.
      obtain ⟨hle, havoid⟩ := havoids run hrun
      obtain ⟨hfirst, hlast, -⟩ := CaseRun.le_of_mem_codes hle hn
      rw [h] at hmoved
      simp only [CaseRun.move] at hmoved havoid
      omega
  · rintro rfl
    exact hm

end CaseMap

/-! ### Lower case and folding -/

namespace CaseRun

variable {run : CaseRun} {n : Nat}

deriving instance DecidableEq for CaseRun

/-- The run is not empty and leads to characters. -/
structure WellFormed (run : CaseRun) : Prop where
  le : run.first ≤ run.last
  nonneg : 0 ≤ (run.first : Int) + run.shift
  valid : run.move run.last < 0xD800 ∨ 0xDFFF < run.move run.first ∧ run.move run.last < 0x110000

instance : DecidablePred WellFormed := fun run =>
  decidable_of_iff (run.first ≤ run.last ∧ 0 ≤ (run.first : Int) + run.shift ∧
      (run.move run.last < 0xD800 ∨ 0xDFFF < run.move run.first ∧ run.move run.last < 0x110000))
    ⟨fun h => ⟨h.1, h.2.1, h.2.2⟩, fun h => ⟨h.le, h.nonneg, h.valid⟩⟩

/-- What a run has moved, its reverse moves. -/
theorem WellFormed.move_mem_reverse_codes (h : run.WellFormed) (hn : n ∈ run.codes) :
    run.move n ∈ run.reverse.codes := by
  obtain ⟨hfirst, hlast, hstride⟩ := le_of_mem_codes h.le hn
  have hpos := h.nonneg
  have hsub : run.move n - run.move run.first = n - run.first := by
    simp only [move]
    omega
  refine mem_codes ?_ ?_ ?_
  · simp only [reverse, move]
    omega
  · simp only [reverse, move]
    omega
  · show (run.move n - run.move run.first) % run.stride = 0
    rw [hsub, hstride]

/-- The reverse of a run moves back. -/
theorem WellFormed.reverse_move (h : run.WellFormed) (hn : n ∈ run.codes) :
    run.reverse.move (run.move n) = n := by
  obtain ⟨hfirst, -, -⟩ := le_of_mem_codes h.le hn
  have hpos := h.nonneg
  simp only [reverse, move]
  omega

/-- The intervals of the code points that the run moves. -/
def intervals (run : CaseRun) : List (Nat × Nat) :=
  bif Nat.beq run.stride 1 then [(run.first, run.last)] else run.codes.map fun n => (n, n)

/-- A code point of a run stands in one of its intervals. -/
theorem WellFormed.exists_interval (h : run.WellFormed) (hn : n ∈ run.codes) :
    ∃ p ∈ run.intervals, p.1 ≤ n ∧ n ≤ p.2 := by
  rw [intervals, Bool.cond_eq_ite]
  split_ifs
  · obtain ⟨hfirst, hlast, -⟩ := le_of_mem_codes h.le hn
    exact ⟨_, List.mem_cons_self, hfirst, hlast⟩
  · exact ⟨(n, n), List.mem_map_of_mem hn, le_rfl, le_rfl⟩

/-- The interval to which the run leads. -/
def image (run : CaseRun) : Nat × Nat := (run.move run.first, run.move run.last)

/-- The image of the run, in steps of two where it moves every other code point or only one. -/
def steps (run : CaseRun) : Nat × Nat × Nat :=
  (run.move run.first, run.move run.last, bif Nat.beq run.first run.last then 2 else run.stride)

/-- A run leads to its image. -/
theorem WellFormed.move_mem_image (h : run.WellFormed) (hn : n ∈ run.codes) :
    run.image.1 ≤ run.move n ∧ run.move n ≤ run.image.2 := by
  obtain ⟨hfirst, hlast, -⟩ := le_of_mem_codes h.le hn
  simp only [image, move]
  omega

end CaseRun

/-- The map is made of well-formed runs, in ascending order. -/
structure CaseMap.WellFormed (map : CaseMap) : Prop where
  before : map.IsChain CaseRun.Before
  runs : ∀ run ∈ map, run.WellFormed

/-- A code point of a run goes where the run sends it. -/
theorem CaseMap.WellFormed.code_of_mem {map : CaseMap} (h : map.WellFormed) {run : CaseRun}
    (hrun : run ∈ map) {n : Nat} (hn : n ∈ run.codes) : map.code n = run.move n :=
  CaseMap.code_of_mem (List.isChain_iff_pairwise.mp h.before) hrun (h.runs run hrun).le hn

/-- A map that moves nothing to which its runs lead leaves alone what a run leads to. -/
theorem CaseMap.WellFormed.code_move {map : CaseMap} (h : map.WellFormed)
    (hspares : map.sparesAll ((map.map CaseRun.steps).insertionSort fun p q => p.1 ≤ q.1) = true)
    {run : CaseRun} (hrun : run ∈ map) {n : Nat} (hn : n ∈ run.codes) :
    map.code (run.move n) = run.move n := by
  have hrunWF := h.runs run hrun
  obtain ⟨hfirst, hlast, hstride⟩ := CaseRun.le_of_mem_codes hrunWF.le hn
  have hspares := CaseMap.spares_of_sparesAll (List.pairwise_insertionSort _ _) hspares
    run.steps ((List.mem_insertionSort _).mpr (List.mem_map_of_mem hrun))
  obtain ⟨hle, hle'⟩ := hrunWF.move_mem_image hn
  refine CaseMap.code_eq_of_spares hspares hle hle' fun hstep => ?_
  have hsub : run.move n - run.move run.first = n - run.first := by
    have hpos := hrunWF.nonneg
    simp only [CaseRun.move]
    omega
  show (run.move n - run.move run.first) % 2 = 0
  rw [hsub]
  -- A stride of one leaves no gaps to skip; with one of two, every other code point counts.
  rw [CaseRun.steps, Bool.cond_eq_ite] at hstep
  split_ifs at hstep with hone
  · rw [Nat.beq_eq] at hone
    omega
  · have hstep : run.stride = 2 := hstep
    rwa [hstep] at hstride

/-- A lower case, a folding and a set of word characters that go together, by their runs. -/
structure Concordant (lower fold : CaseMap) (word : CodePoints) : Prop where
  lower_wellFormed : lower.WellFormed
  fold_wellFormed : fold.WellFormed
  word_before : word.IsChain CodePoints.Before
  /-- The folding moves nothing to which it leads. -/
  fold_spares : fold.sparesAll ((fold.map CaseRun.steps).insertionSort fun p q => p.1 ≤ q.1) = true
  fold_or_reverse : ∀ run ∈ lower, run ∈ fold ∨ run.reverse ∈ fold
  word_intervals : word.foldl CodePoints.dropWithin (lower.flatMap CaseRun.intervals) = []
  word_images : word.foldl CodePoints.dropWithin
    ((lower.map CaseRun.image).insertionSort fun p q => p.1 ≤ q.1) = []

namespace Concordant

variable {lower fold : CaseMap} {word : CodePoints} {run : CaseRun} {n : Nat}

/-- What a run of the folding leads to is not folded further. -/
theorem fold_move (h : Concordant lower fold word) (hrun : run ∈ fold) (hn : n ∈ run.codes) :
    fold.code (run.move n) = run.move n :=
  h.fold_wellFormed.code_move h.fold_spares hrun hn

/-- The lower case of a code point folds as the code point does. -/
theorem fold_lower (h : Concordant lower fold word) (n : Nat) :
    fold.code (lower.code n) = fold.code n := by
  rcases lower.code_cases n with hself | ⟨run, hrun, hn, hmoved⟩
  · rw [hself]
  · rw [hmoved]
    rcases h.fold_or_reverse run hrun with hfold | hfold
    · rw [h.fold_move hfold hn, h.fold_wellFormed.code_of_mem hfold hn]
    · -- The capital is what the small letter folds to.
      have hwf := h.lower_wellFormed.runs run hrun
      have hback := hwf.reverse_move hn
      have hcodes := hwf.move_mem_reverse_codes hn
      have hself := h.fold_move hfold hcodes
      rw [hback] at hself
      rw [h.fold_wellFormed.code_of_mem hfold hcodes, hback, hself]

/-- Lower case leaves word characters word characters, and makes no others so. -/
theorem word_lower (h : Concordant lower fold word) (n : Nat) :
    word.hasCode (lower.code n) = word.hasCode n := by
  rcases lower.code_cases n with hself | ⟨run, hrun, hn, hmoved⟩
  · rw [hself]
  · -- Both are word characters.
    have hwf := h.lower_wellFormed.runs run hrun
    have hword := List.isChain_iff_pairwise.mp h.word_before
    have hsource : word.hasCode n = true := by
      obtain ⟨p, hp, hnp⟩ := hwf.exists_interval hn
      obtain ⟨r, hr, hin⟩ := CodePoints.exists_range_of_foldl_dropWithin h.word_intervals p
        (List.mem_flatMap.mpr ⟨run, hrun, hp⟩)
      exact CodePoints.hasCode_of_mem hword hr ⟨hin.1.trans hnp.1, hnp.2.trans hin.2⟩
    have himage : word.hasCode (run.move n) = true := by
      obtain ⟨hle, hle'⟩ := hwf.move_mem_image hn
      obtain ⟨r, hr, hin⟩ := CodePoints.exists_range_of_foldl_dropWithin h.word_images run.image
        ((List.mem_insertionSort _).mpr (List.mem_map_of_mem hrun))
      exact CodePoints.hasCode_of_mem hword hr ⟨hin.1.trans hle, hle'.trans hin.2⟩
    rw [hmoved, hsource, himage]

/-- The lower case of a character is one. -/
theorem isValidChar_lower (h : Concordant lower fold word) (hn : n.isValidChar) :
    (lower.code n).isValidChar := by
  rcases lower.code_cases n with hself | ⟨run, hrun, hcode, hmoved⟩
  · rwa [hself]
  · have hwf := h.lower_wellFormed.runs run hrun
    obtain ⟨hle, hle'⟩ := hwf.move_mem_image hcode
    have hvalid := hwf.valid
    rw [hmoved, Nat.isValidChar]
    simp only [CaseRun.image] at hle hle'
    omega

end Concordant

/-! ### The standard's tables -/

/-- The run's capitals are those to which their small letters fold. -/
def CaseRun.isTarget (run : CaseRun) : Bool :=
  Nat.ble 0x13A0 run.first && Nat.ble run.first 0x13F5

/-- The tables of the standard go together. -/
theorem concordant : Concordant lowerMap foldMap wordCodePoints where
  lower_wellFormed := ⟨by decide +kernel, by decide +kernel⟩
  fold_wellFormed := ⟨by decide +kernel, by decide +kernel⟩
  word_before := by decide +kernel
  fold_spares := by decide +kernel
  -- A run of the lower case is one of the folding, or the folding goes the other way.
  fold_or_reverse := by
    have hsame : (lowerMap.filter fun run => !run.isTarget).Sublist foldMap :=
      List.isSublist_iff_sublist.mp (by decide +kernel)
    have hreverse : ∀ run ∈ lowerMap.filter CaseRun.isTarget, run.reverse ∈ foldMap := by
      decide +kernel
    intro run hrun
    cases htarget : run.isTarget with
    | false => exact .inl (hsame.subset (List.mem_filter.mpr ⟨hrun, by rw [htarget]; rfl⟩))
    | true => exact .inr (hreverse run (List.mem_filter.mpr ⟨hrun, htarget⟩))
  word_intervals := by decide +kernel
  word_images := by decide +kernel

/-- Lower case moves nothing to which it leads. -/
theorem lower_spares :
    lowerMap.sparesAll ((lowerMap.map CaseRun.steps).insertionSort fun p q => p.1 ≤ q.1) = true := by
  decide +kernel

/-! ### Characters -/

/-- The code point of a lower case is that of the map. -/
theorem toNat_lower (c : Char) : (lowerMap.image c).toNat = lowerMap.code c.toNat := by
  have hvalid : (lowerMap.code c.toNat).isValidChar := concordant.isValidChar_lower c.valid
  rw [CaseMap.image, Char.toNat_ofNat, if_pos hvalid]

/-- Up to case, a character is its lower case. -/
theorem sameFold_lower (c : Char) : sameFold c (lowerMap.image c) = true := by
  rw [sameFold, beq_iff_eq, fold, fold, CaseMap.image, CaseMap.image.eq_def foldMap, toNat_lower,
    concordant.fold_lower]

/-- A character and its lower case are word characters together. -/
theorem isWordChar_lower (c : Char) : isWordChar (lowerMap.image c) = isWordChar c := by
  rw [isWordChar, CodePoints.contains, toNat_lower, concordant.word_lower]
  rfl

/-- The lower case of a character has no other lower case. -/
theorem lower_lower (c : Char) : lowerMap.image (lowerMap.image c) = lowerMap.image c := by
  rw [CaseMap.image, toNat_lower]
  rcases lowerMap.code_cases c.toNat with hself | ⟨run, hrun, hn, hmoved⟩
  · rw [hself]
    rfl
  · rw [hmoved, concordant.lower_wellFormed.code_move lower_spares hrun hn, ← hmoved]
    rfl

theorem sameFold_comm (c d : Char) : sameFold c d = sameFold d c := by
  rw [sameFold, sameFold, Bool.beq_comm]

/-- A character that the folding leaves alone, and to which it leads from nowhere, is like no
other. -/
theorem sameFold_iff_eq {c : Char} (hc : c.toNat ≠ 0) (hself : foldMap.code c.toNat = c.toNat)
    (havoids : ∀ run ∈ foldMap, run.first ≤ run.last ∧
      (run.move run.last < c.toNat ∨ c.toNat < run.move run.first)) {d : Char} :
    sameFold c d = true ↔ d = c := by
  rw [sameFold, beq_iff_eq]
  constructor
  · intro h
    have hnat := congrArg Char.toNat h
    rw [fold, fold, CaseMap.image, CaseMap.image, hself, Char.ofNat_toNat, Char.toNat_ofNat] at hnat
    split at hnat
    · exact Char.toNat_inj.mp ((CaseMap.code_eq_iff hself havoids).mp hnat.symm)
    · exact absurd hnat hc
  · rintro rfl
    rfl

/-- The blank, the apostrophe and `İ` are like no other character up to case. -/
theorem sameFold_iff_eq_of_mem {c : Char} (hc : c ∈ [' ', '\'', 'İ']) {d : Char} :
    sameFold c d = true ↔ d = c := by
  rw [List.mem_cons, List.mem_pair] at hc
  rcases hc with rfl | rfl | rfl
  all_goals exact sameFold_iff_eq (by decide) (by decide +kernel) (by decide +kernel)

/-- Nothing but themselves has one of them as its lower case. -/
theorem eq_of_lower {c d : Char} (hd : d ∈ [' ', '\'', 'İ']) (h : lowerMap.image c = d) : c = d := by
  have hsame := sameFold_lower c
  rw [h, sameFold_comm] at hsame
  exact (sameFold_iff_eq_of_mem hd).mp hsame

/-! ### Texts -/

/-- The second character stands for the first one in a text in lower case. -/
structure Lowers (c d : Char) : Prop where
  sameFold : sameFold c d = true
  isWordChar : isWordChar d = isWordChar c

/-- A capital sigma is lowered to either of the small ones. -/
theorem lowers_sigma : Lowers 'Σ' 'σ' ∧ Lowers 'Σ' 'ς' := by
  refine ⟨⟨?_, ?_⟩, ?_, ?_⟩ <;> decide

/-- All characters but `İ` have a lower case of one character. -/
theorem exists_lowerOf (before : List Char) {c : Char} (hc : c ≠ 'İ') (after : List Char) :
    ∃ d, lowerOf before c after = [d] ∧ Lowers c d ∧ d ≠ 'İ' := by
  rw [lowerOf]
  split_ifs with hsigma hfinal
  · exact ⟨'ς', rfl, hsigma ▸ lowers_sigma.2, by decide⟩
  · exact ⟨'σ', rfl, hsigma ▸ lowers_sigma.1, by decide⟩
  · exact ⟨_, rfl, ⟨sameFold_lower c, isWordChar_lower c⟩, mt (eq_of_lower (by decide)) hc⟩

/-- The lower case of a text stands for it character by character. -/
theorem forall₂_lowerAfter {cs : List Char} (h : 'İ' ∉ cs) (before : List Char) :
    List.Forall₂ Lowers cs (lowerAfter before cs) := by
  induction cs generalizing before with
  | nil => exact .nil
  | cons c cs ih =>
    obtain ⟨hc, hcs⟩ := List.ne_and_not_mem_of_not_mem_cons h
    obtain ⟨d, hlower, hd, -⟩ := exists_lowerOf before hc.symm cs
    rw [lowerAfter, hlower]
    exact .cons hd (ih hcs _)

/-- No character is lost in lower case. -/
theorem lowerAfter_ne_nil (c : Char) (cs : List Char) : lowerAfter [] (c :: cs) ≠ [] := by
  rw [lowerAfter, ne_eq, List.append_eq_nil_iff, not_and]
  intro hnil
  rw [lowerOf] at hnil
  split_ifs at hnil

/-- No text in lower case holds `İ`. -/
theorem dottedI_notMem_lowerAfter (before cs : List Char) : 'İ' ∉ lowerAfter before cs := by
  induction cs generalizing before with
  | nil => exact List.not_mem_nil
  | cons c cs ih =>
    rw [lowerAfter, List.mem_append, not_or]
    refine ⟨?_, ih _⟩
    by_cases hc : c = 'İ'
    · rw [hc, lowerOf, if_neg (by decide), if_pos rfl]
      decide
    · obtain ⟨d, hlower, -, hd⟩ := exists_lowerOf before hc cs
      rw [hlower, List.mem_singleton]
      exact hd.symm

/-- What stands in a text in lower case has no other lower case. -/
theorem lower_of_mem_lowerAfter {before cs : List Char} {d : Char} (h : d ∈ lowerAfter before cs) :
    lowerMap.image d = d := by
  induction cs generalizing before with
  | nil => cases h
  | cons c cs ih =>
    rw [lowerAfter, List.mem_append] at h
    rcases h with h | h
    · rw [lowerOf] at h
      split_ifs at h
      · rw [List.mem_singleton.mp h]
        decide
      · rw [List.mem_singleton.mp h]
        decide
      · rcases List.mem_pair.mp h with rfl | rfl <;> decide
      · rw [List.mem_singleton.mp h]
        exact lower_lower c
    · exact ih h

/-- Text in lower case stays, for want of a capital sigma that would ask for its place in the
word. -/
theorem lowerAfter_eq_self {cs : List Char} (h : ∀ c ∈ cs, lowerMap.image c = c) (hdotted : 'İ' ∉ cs)
    (before : List Char) : lowerAfter before cs = cs := by
  induction cs generalizing before with
  | nil => rfl
  | cons c cs ih =>
    obtain ⟨hc, hcs⟩ := List.forall_mem_cons.mp h
    obtain ⟨hne, hdotted⟩ := List.ne_and_not_mem_of_not_mem_cons hdotted
    have hsigma : c ≠ 'Σ' := by
      rintro rfl
      exact absurd hc (by decide)
    rw [lowerAfter, lowerOf, if_neg hsigma, if_neg hne.symm, hc, ih hcs hdotted,
      List.singleton_append]

/-- No spaces come into a text in lower case. -/
theorem space_notMem_lowerAfter {cs : List Char} (h : ' ' ∉ cs) (before : List Char) :
    ' ' ∉ lowerAfter before cs := by
  induction cs generalizing before with
  | nil => exact List.not_mem_nil
  | cons c cs ih =>
    obtain ⟨hc, hcs⟩ := List.ne_and_not_mem_of_not_mem_cons h
    rw [lowerAfter, List.mem_append, not_or]
    refine ⟨?_, ih hcs _⟩
    by_cases hdotted : c = 'İ'
    · rw [hdotted, lowerOf, if_neg (by decide), if_pos rfl]
      decide
    · obtain ⟨d, hlower, hd, -⟩ := exists_lowerOf before hdotted cs
      rw [hlower, List.mem_singleton]
      -- A blank is the lower case of nothing but itself.
      rintro rfl
      have hsame := hd.sameFold
      rw [sameFold_comm, sameFold_iff_eq_of_mem (by decide)] at hsame
      exact hc hsame.symm

end Colloquy.Text
