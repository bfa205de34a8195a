import Mathlib
import Colloquy.Proofs.Random.Words

/-!
# Fair choices

An index below `n` is drawn by taking words until one is accepted.  Of all words, the same number is
accepted for each index: `2 ^ leadingZeros n`, because the words that stand for an index and are
accepted are those between two multiples (`Source.ncard_accept?`).  So each index is given by the
same number of word sequences, however many words are rejected on the way
(`Source.ncard_accepts`), and a choice gives each of different items in equally many ways
(`Selection.ncard_ways_chooseUniform`).

For scores this means that `argmaxRandom` picks nothing but greatest ones, and each of them in
equally many ways (`Selection.argmaxRandom_fair`).
-/

namespace Colloquy

namespace Source

/-! ### Words that are accepted -/

/-- The zeros in front of a number that is written with 64 binary digits. -/
def leadingZeros (n : Nat) : Nat :=
  (BitVec.ofNat 64 n).clz.toNat

variable {n i : Nat}

theorem log2_add_leadingZeros (hn : 0 < n) (hsize : n < UInt64.size) :
    n.log2 + leadingZeros n = 63 := by
  have hnat : (BitVec.ofNat 64 n).toNat = n := by
    rw [BitVec.toNat_ofNat, Nat.mod_eq_of_lt hsize]
  have hne : BitVec.ofNat 64 n ≠ 0#64 := by
    intro h
    rw [h] at hnat
    exact Nat.ne_of_lt hn hnat
  have hlower := BitVec.two_pow_sub_clz_le_toNat_of_ne_zero (by decide) hne
  have hupper := BitVec.toNat_lt_two_pow_sub_clz (x := BitVec.ofNat 64 n)
  rw [hnat] at hlower hupper
  change 2 ^ (63 - leadingZeros n) ≤ n at hlower
  change n < 2 ^ (64 - leadingZeros n) at hupper
  -- A positive number has fewer than 64 leading zeros.
  have hlt : leadingZeros n < 64 := by
    by_contra hge
    rw [Nat.sub_eq_zero_of_le (Nat.le_of_not_lt hge)] at hupper
    omega
  have hlog : n.log2 = 63 - leadingZeros n := by
    rw [Nat.log2_eq_iff hn.ne']
    exact ⟨hlower, by rwa [show 63 - leadingZeros n + 1 = 64 - leadingZeros n by omega]⟩
  omega

/-- Shifted until its first digit is a one, a number still has 64 digits. -/
theorem mul_two_pow_leadingZeros_le (hn : 0 < n) (hsize : n < UInt64.size) :
    n * 2 ^ leadingZeros n ≤ UInt64.size :=
  calc n * 2 ^ leadingZeros n ≤ 2 ^ (n.log2 + 1) * 2 ^ leadingZeros n :=
        Nat.mul_le_mul_right _ Nat.lt_log2_self.le
    _ = 2 ^ (n.log2 + leadingZeros n + 1) := by rw [← pow_add, Nat.add_right_comm]
    _ = UInt64.size := by rw [log2_add_leadingZeros hn hsize]; rfl

theorem le_zone_iff (hn : 0 < n) (hsize : n < UInt64.size) {low : Nat} :
    low ≤ zone n ↔ low < n * 2 ^ leadingZeros n := by
  have hshift : 63 - n.log2 = leadingZeros n := by
    have := log2_add_leadingZeros hn hsize
    omega
  have hpos : 0 < n * 2 ^ leadingZeros n := Nat.mul_pos hn (Nat.two_pow_pos _)
  rw [zone, hshift, Nat.shiftLeft_eq]
  omega

/-- A word is accepted for an index if its product falls into the first part of the index's share of
all products. -/
theorem accept?_eq_some_iff (hn : 0 < n) (hsize : n < UInt64.size) {v : UInt64} :
    accept? n v = some i ↔ i * UInt64.size ≤ v.toNat * n ∧
      v.toNat * n < i * UInt64.size + n * 2 ^ leadingZeros n := by
  have hshare := mul_two_pow_leadingZeros_le hn hsize
  have hpos : 0 < UInt64.size := by decide
  simp only [accept?, Option.ite_none_right_eq_some, Option.some.injEq, le_zone_iff hn hsize]
  -- From here on it is about quotients: the low word is the remainder, the index the quotient.
  generalize v.toNat * n = product
  generalize n * 2 ^ leadingZeros n = share at hshare ⊢
  generalize UInt64.size = size at hshare hpos ⊢
  have hsplit := Nat.div_add_mod product size
  rw [Nat.mul_comm] at hsplit
  constructor
  · rintro ⟨hlow, rfl⟩
    omega
  · rintro ⟨hlower, hupper⟩
    have hdiv : product / size = i :=
      Nat.div_eq_of_lt_le hlower (by rw [Nat.succ_mul]; omega)
    rw [hdiv] at hsplit
    exact ⟨by omega, hdiv⟩

/-- Each index has the same number of words that are accepted for it. -/
theorem ncard_accept? (hsize : n < UInt64.size) (hi : i < n) :
    {v : UInt64 | accept? n v = some i}.ncard = 2 ^ leadingZeros n := by
  have hn : 0 < n := Nat.zero_lt_of_lt hi
  have hshare := mul_two_pow_leadingZeros_le hn hsize
  -- The accepted words are a run from the first whose product falls into the share of the index.
  let first := i * UInt64.size ⌈/⌉ n
  have hfirst : ∀ k, first ≤ k ↔ i * UInt64.size ≤ k * n := by
    intro k
    rw [Nat.mul_comm k]
    exact ceilDiv_le_iff_le_mul hn
  have hlast : ∀ k, k < first + 2 ^ leadingZeros n ↔
      k * n < i * UInt64.size + n * 2 ^ leadingZeros n := by
    intro k
    rw [← not_le, ← not_le, not_iff_not]
    rcases Nat.lt_or_ge k (2 ^ leadingZeros n) with hk | hk
    · have hlt := Nat.mul_lt_mul_of_pos_left hk hn
      rw [Nat.mul_comm] at hlt
      exact iff_of_false (by omega) (by omega)
    · obtain ⟨d, rfl⟩ := Nat.exists_eq_add_of_le hk
      rw [Nat.add_comm first, Nat.add_le_add_iff_left, hfirst, Nat.add_mul, Nat.mul_comm n]
      omega
  have himage : UInt64.toNat '' {v : UInt64 | accept? n v = some i} =
      Finset.Ico first (first + 2 ^ leadingZeros n) := by
    ext k
    rw [Finset.coe_Ico, Set.mem_Ico, hfirst, hlast]
    constructor
    · rintro ⟨v, hv, rfl⟩
      exact (accept?_eq_some_iff hn hsize).mp hv
    · intro hk
      have hlt : k < UInt64.size := by
        refine Nat.lt_of_mul_lt_mul_right (a := n) ?_
        calc k * n < i * UInt64.size + n * 2 ^ leadingZeros n := hk.2
          _ ≤ i * UInt64.size + UInt64.size := Nat.add_le_add_left hshare _
          _ = (i + 1) * UInt64.size := (Nat.succ_mul ..).symm
          _ ≤ n * UInt64.size := Nat.mul_le_mul_right _ hi
          _ = UInt64.size * n := Nat.mul_comm _ _
      refine ⟨UInt64.ofNat k, ?_, UInt64.toNat_ofNat_of_lt' hlt⟩
      rw [Set.mem_ofPred_eq, accept?_eq_some_iff hn hsize, UInt64.toNat_ofNat_of_lt' hlt]
      exact hk
  rw [← Set.ncard_image_of_injective _ fun _ _ h => UInt64.toNat_inj.mp h, himage,
    Set.ncard_coe_finset, Nat.card_Ico, Nat.add_sub_cancel_left]

/-! ### Word sequences that end with an accepted word -/

/-- All the words but the last are rejected, and the last one is accepted for the index. -/
inductive Accepts (n i : Nat) : List UInt64 → Prop
  | last {v : UInt64} : accept? n v = some i → Accepts n i [v]
  | next {v : UInt64} {ws : List UInt64} : accept? n v = none → Accepts n i ws →
      Accepts n i (v :: ws)

theorem accepts_cons_iff {v : UInt64} {ws : List UInt64} : Accepts n i (v :: ws) ↔
    (accept? n v = some i ∧ ws = []) ∨ (accept? n v = none ∧ Accepts n i ws) := by
  constructor
  · rintro (h | ⟨hv, hws⟩)
    · exact .inl ⟨h, rfl⟩
    · exact .inr ⟨hv, hws⟩
  · rintro (⟨hv, rfl⟩ | ⟨hv, hws⟩)
    · exact .last hv
    · exact .next hv hws

theorem indexWithin_succ (rejections : Nat) (src : Source) :
    indexWithin n (rejections + 1) src = match accept? n (src.word src.drawn) with
      | some i => (i, src.skip 1)
      | none => indexWithin n rejections (src.skip 1) := by
  rw [indexWithin, Draw.bind_apply]
  show (match accept? n (src.word src.drawn) with
    | some i => pure i
    | none => indexWithin n rejections : Draw Nat) (src.skip 1) = _
  cases accept? n (src.word src.drawn) <;> rfl

/-- Every draw of an index takes a word. -/
theorem drawn_lt_indexWithin (rejections : Nat) (src : Source) :
    src.drawn < (indexWithin n rejections src).2.drawn := by
  induction rejections generalizing src with
  | zero => exact Nat.lt_succ_self _
  | succ rejections ih =>
    rw [indexWithin_succ]
    cases accept? n (src.word src.drawn) with
    | some i => exact Nat.lt_succ_self _
    | none => exact (Nat.lt_succ_self src.drawn).trans (ih (src.skip 1))

theorem skip_inj {src : Source} {m n : Nat} : src.skip m = src.skip n ↔ m = n := by
  rw [skip, skip, mk.injEq, Nat.add_right_inj]
  exact and_iff_right rfl

/-- As long as not too many words are rejected in a row, a draw takes the words up to the first that
is accepted. -/
theorem indexWithin_eq_iff {ws : List UInt64} :
    ∀ {rejections : Nat} {src : Source}, src.Begins ws → ws.length ≤ rejections →
      (indexWithin n rejections src = (i, src.skip ws.length) ↔ Accepts n i ws) := by
  induction ws with
  | nil =>
    intro rejections src _ _
    refine iff_of_false (fun h => ?_) nofun
    have hlt := drawn_lt_indexWithin (n := n) rejections src
    rw [h] at hlt
    exact Nat.lt_irrefl _ hlt
  | cons v ws ih =>
    intro rejections src hsrc hlength
    obtain ⟨rejections, rfl⟩ : ∃ r, rejections = r + 1 :=
      Nat.exists_eq_add_of_le' (Nat.le_trans (Nat.succ_pos _) hlength)
    obtain ⟨hfirst, hws⟩ : src.Begins [v] ∧ (src.skip 1).Begins ws := begins_append.mp hsrc
    have hv : src.word src.drawn = v := hfirst 0 v rfl
    rw [indexWithin_succ, hv, accepts_cons_iff, List.length_cons, Nat.add_comm, ← skip_skip]
    cases hv : accept? n v with
    | none =>
      rw [← ih hws (Nat.le_of_succ_le_succ hlength)]
      simp
    | some j =>
      -- The draw ends here, so nothing may be left of the words.
      have hend : src.skip 1 = (src.skip 1).skip ws.length ↔ ws = [] := by
        rw [skip_skip, skip_inj, ← List.length_eq_zero_iff]
        omega
      show (j, src.skip 1) = (i, _) ↔ _
      rw [Prod.mk.injEq, hend, Option.some.injEq]
      exact ⟨.inl, fun h => h.resolve_right nofun⟩

/-- A draw of an index takes the words up to the first that is accepted. -/
theorem gives_index_iff {ws : List UInt64} (hlength : ws.length ≤ patience) :
    (index n).Gives ws i ↔ Accepts n i ws := by
  constructor
  · intro h
    obtain ⟨src, hsrc⟩ := exists_begins ws
    exact (indexWithin_eq_iff hsrc hlength).mp (h src hsrc)
  · intro h src hsrc
    exact (indexWithin_eq_iff hsrc hlength).mpr h

/-- The words decide for which index they are accepted. -/
theorem Accepts.unique {j : Nat} {ws : List UInt64} (hi : Accepts n i ws) (hj : Accepts n j ws) :
    i = j := by
  induction hi with
  | last hv =>
    rcases accepts_cons_iff.mp hj with ⟨hv', -⟩ | ⟨hv', -⟩
    · exact Option.some.inj (hv.symm.trans hv')
    · cases hv.symm.trans hv'
  | next hv _ ih =>
    rcases accepts_cons_iff.mp hj with ⟨hv', -⟩ | ⟨-, hws⟩
    · cases hv.symm.trans hv'
    · exact ih hws

/-- Each index is given by the same number of word sequences of one length. -/
theorem ncard_accepts (hsize : n < UInt64.size) (hi : i < n) (rejections : Nat) :
    {ws | ws.length = rejections + 1 ∧ Accepts n i ws}.ncard =
      {v | accept? n v = none}.ncard ^ rejections * 2 ^ leadingZeros n := by
  induction rejections with
  | zero =>
    have hwords : {ws | ws.length = 0 + 1 ∧ Accepts n i ws} =
        (fun v => [v]) '' {v | accept? n v = some i} := by
      ext ws
      constructor
      · rintro ⟨hlength, hws⟩
        obtain ⟨v, rfl⟩ := List.length_eq_one_iff.mp hlength
        rcases accepts_cons_iff.mp hws with ⟨hv, -⟩ | ⟨-, hrest⟩
        · exact ⟨v, hv, rfl⟩
        · cases hrest
      · rintro ⟨v, hv, rfl⟩
        exact ⟨rfl, .last hv⟩
    rw [hwords, Set.ncard_image_of_injective _ List.singleton_injective, ncard_accept? hsize hi,
      pow_zero, Nat.one_mul]
  -- A first word that is rejected, and any words that are accepted after it.
  | succ rejections ih =>
    have hwords : {ws | ws.length = rejections + 1 + 1 ∧ Accepts n i ws} =
        (fun p : UInt64 × List UInt64 => p.1 :: p.2) '' ({v | accept? n v = none} ×ˢ
          {ws | ws.length = rejections + 1 ∧ Accepts n i ws}) := by
      ext ws
      constructor
      · rintro ⟨hlength, hws⟩
        obtain ⟨v, ws, rfl⟩ := List.exists_cons_of_length_eq_add_one hlength
        have hlength' : ws.length = rejections + 1 := Nat.succ.inj hlength
        rcases accepts_cons_iff.mp hws with ⟨-, rfl⟩ | ⟨hv, hws⟩
        · cases hlength'
        · exact ⟨(v, ws), ⟨hv, hlength', hws⟩, rfl⟩
      · rintro ⟨⟨v, ws⟩, ⟨hv, hlength, hws⟩, rfl⟩
        exact ⟨congrArg (· + 1) hlength, .next hv hws⟩
    have hinjective : Function.Injective fun p : UInt64 × List UInt64 => p.1 :: p.2 :=
      fun _ _ h => Prod.ext (List.cons.inj h).1 (List.cons.inj h).2
    rw [hwords, Set.ncard_image_of_injective _ hinjective, Set.ncard_prod, ih, pow_succ',
      Nat.mul_assoc]

end Source

/-! ### Choices -/

namespace Selection

open Source

variable {α : Type}

/-- The word sequences of a length by which a draw gives a result. -/
def ways (x : Draw α) (length : Nat) (a : α) : Set (List UInt64) :=
  {ws | ws.length = length ∧ x.Gives ws a}

theorem chooseUniform_apply {items : List α} (hne : items ≠ []) (src : Source) :
    chooseUniform items src =
      (items[(Source.index items.length src).1]?, (Source.index items.length src).2) := by
  rw [chooseUniform, if_neg (by simpa using hne)]
  rfl

/-- A choice gives an item by the words that are taken for one of its places. -/
theorem gives_chooseUniform_iff {items : List α} (hne : items ≠ []) {ws : List UInt64}
    (hlength : ws.length ≤ patience) {x : α} :
    (chooseUniform items).Gives ws (some x) ↔
      ∃ i, items[i]? = some x ∧ Accepts items.length i ws := by
  constructor
  · intro h
    obtain ⟨src, hsrc⟩ := exists_begins ws
    have hrun := h src hsrc
    rw [chooseUniform_apply hne] at hrun
    obtain ⟨hitem, hskip⟩ := Prod.mk.inj hrun
    refine ⟨(Source.index items.length src).1, hitem, ?_⟩
    exact (indexWithin_eq_iff hsrc hlength).mp (Prod.ext rfl hskip)
  · rintro ⟨i, hitem, hwords⟩ src hsrc
    rw [chooseUniform_apply hne, (gives_index_iff hlength).mpr hwords src hsrc, hitem]

/-- An item stands in as many places as it is counted. -/
theorem ncard_places [DecidableEq α] (items : List α) (x : α) :
    {i : Nat | items[i]? = some x}.ncard = items.count x := by
  induction items with
  | nil => simp
  | cons a items ih =>
    have hfinite : {i : Nat | items[i]? = some x}.Finite :=
      (Set.finite_lt_nat items.length).subset fun i hi => (List.getElem?_eq_some_iff.mp hi).1
    have hrest : (Nat.succ '' {i : Nat | items[i]? = some x}).ncard = items.count x := by
      rw [Set.ncard_image_of_injective _ Nat.succ_injective, ih]
    rw [List.count_cons]
    -- The first place counts if the item is there; the others are those of the rest, moved on by
    -- one.
    by_cases hax : a = x
    · have hplaces : {i : Nat | (a :: items)[i]? = some x} =
          insert 0 (Nat.succ '' {i : Nat | items[i]? = some x}) := by
        ext i
        cases i <;> simp [hax]
      rw [hplaces, Set.ncard_insert_of_notMem (by simp) (hfinite.image _), hrest]
      simp [hax]
    · have hplaces : {i : Nat | (a :: items)[i]? = some x} =
          Nat.succ '' {i : Nat | items[i]? = some x} := by
        ext i
        cases i <;> simp [hax]
      rw [hplaces, hrest]
      simp [hax]

/-- A choice gives all its items in equally many ways, an item that stands in several places once
for each. -/
theorem ncard_ways_chooseUniform [DecidableEq α] {items : List α}
    (hsize : items.length < UInt64.size) {rejections : Nat} (hpatience : rejections < patience)
    (x : α) :
    (ways (chooseUniform items) (rejections + 1) (some x)).ncard =
      items.count x * ({v | accept? items.length v = none}.ncard ^ rejections *
        2 ^ leadingZeros items.length) := by
  rcases eq_or_ne items [] with rfl | hne
  · have hnone : ways (chooseUniform ([] : List α)) (rejections + 1) (some x) = ∅ := by
      rw [Set.eq_empty_iff_forall_notMem]
      rintro ws ⟨-, hgives⟩
      obtain ⟨src, hsrc⟩ := exists_begins ws
      cases hgives src hsrc
    rw [hnone, Set.ncard_empty, List.count_nil, Nat.zero_mul]
  · -- The ways are those for the places of the item, and no two places share one.
    let places := {i : Nat | items[i]? = some x}
    let words := fun i => {ws | ws.length = rejections + 1 ∧ Accepts items.length i ws}
    have hunion : ways (chooseUniform items) (rejections + 1) (some x) = ⋃ i ∈ places, words i := by
      ext ws
      simp only [Set.mem_iUnion, exists_prop]
      constructor
      · rintro ⟨hlength, hgives⟩
        obtain ⟨i, hi, hwords⟩ := (gives_chooseUniform_iff hne (by omega)).mp hgives
        exact ⟨i, hi, hlength, hwords⟩
      · rintro ⟨i, hi, hlength, hwords⟩
        exact ⟨hlength, (gives_chooseUniform_iff hne (by omega)).mpr ⟨i, hi, hwords⟩⟩
    have hlt : ∀ i ∈ places, i < items.length := fun i hi => (List.getElem?_eq_some_iff.mp hi).1
    have hplaces : places.Finite := (Set.finite_lt_nat items.length).subset hlt
    have hwords : ∀ i ∈ places, (words i).Finite := fun i _ =>
      (List.finite_length_eq UInt64 (rejections + 1)).subset fun ws hws => hws.1
    have hdisjoint : places.PairwiseDisjoint words := fun i _ j _ hij =>
      Set.disjoint_left.mpr fun ws hi hj => hij (hi.2.unique hj.2)
    rw [hunion, hplaces.ncard_biUnion hwords hdisjoint,
      finsum_mem_congr rfl fun i hi => ncard_accepts hsize (hlt i hi) rejections,
      finsum_mem_eq_finite_toFinset_sum _ hplaces, Finset.sum_const, smul_eq_mul,
      ← Set.ncard_eq_toFinset_card _ hplaces, ncard_places]

theorem ncard_ways_one (x : Draw α) (a : α) :
    (ways x 1 a).ncard = {v | x.Gives [v] a}.ncard := by
  have hways : ways x 1 a = (fun v => [v]) '' {v | x.Gives [v] a} := by
    ext ws
    constructor
    · rintro ⟨hlength, hgives⟩
      obtain ⟨v, rfl⟩ := List.length_eq_one_iff.mp hlength
      exact ⟨v, hgives, rfl⟩
    · rintro ⟨v, hgives, rfl⟩
      exact ⟨rfl, hgives⟩
  rw [hways, Set.ncard_image_of_injective _ List.singleton_injective]

/-! ### Greatest scores -/

theorem nodup_tied (scores : List Float) : (tied scores).Nodup := by
  have hall : (scores.zipIdx.map Prod.snd).Nodup := by
    rw [List.zipIdx_map_snd]
    exact List.nodup_range'
  exact hall.sublist (List.filter_sublist.map _)

theorem ncard_greatest (scores : List Float) :
    {i | Greatest scores i}.ncard = (tied scores).length := by
  have hset : {i | Greatest scores i} = (tied scores).toFinset := by
    ext i
    rw [List.coe_toFinset]
    exact mem_tied_iff_greatest.symm
  rw [hset, Set.ncard_coe_finset, List.toFinset_card_of_nodup (nodup_tied scores)]

theorem length_tied_le (scores : List Float) : (tied scores).length ≤ scores.length := by
  rw [tied, List.length_map]
  exact (List.length_filter_le ..).trans_eq List.length_zipIdx

/-- Each of the greatest scores is picked in equally many ways. -/
theorem ncard_ways_argmaxRandom {scores : List Float} (hsize : scores.length < UInt64.size)
    {i : Nat} (hi : Greatest scores i) {rejections : Nat} (hpatience : rejections < patience) :
    (ways (argmaxRandom scores) (rejections + 1) (some i)).ncard =
      {v | accept? {i | Greatest scores i}.ncard v = none}.ncard ^ rejections *
        2 ^ leadingZeros {i | Greatest scores i}.ncard := by
  have hcount : (tied scores).count i = 1 :=
    List.count_eq_one_of_mem (nodup_tied scores) (mem_tied_iff_greatest.mpr hi)
  rw [argmaxRandom, ncard_ways_chooseUniform ((length_tied_le scores).trans_lt hsize) hpatience,
    hcount, Nat.one_mul, ncard_greatest]

/-- Ties are broken fairly.  No place is picked only if no score is a number; a place that is picked
has a greatest score.  Of all words, the same number picks each of the greatest scores at once; and
so does, of the sequences of any length, the same number in which all words but the last are
rejected.  The same goes for every choice among some items. -/
theorem argmaxRandom_fair (scores : List Float) :
    (∀ src, (argmaxRandom scores src).1 = none ↔ ∀ s ∈ scores, s.isNaN = true) ∧
    (∀ src i, (argmaxRandom scores src).1 = some i → Greatest scores i) ∧
    (scores.length < UInt64.size → ∀ i, Greatest scores i →
      {v | (argmaxRandom scores).Gives [v] (some i)}.ncard =
        2 ^ leadingZeros {i | Greatest scores i}.ncard ∧
      ∀ rejections < patience, (ways (argmaxRandom scores) (rejections + 1) (some i)).ncard =
        {v | accept? {i | Greatest scores i}.ncard v = none}.ncard ^ rejections *
          2 ^ leadingZeros {i | Greatest scores i}.ncard) ∧
    (∀ {α : Type} [DecidableEq α] (items : List α), items.length < UInt64.size → ∀ x,
      {v | (chooseUniform items).Gives [v] (some x)}.ncard =
        items.count x * 2 ^ leadingZeros items.length ∧
      ∀ rejections < patience, (ways (chooseUniform items) (rejections + 1) (some x)).ncard =
        items.count x * ({v | accept? items.length v = none}.ncard ^ rejections *
          2 ^ leadingZeros items.length)) := by
  have hpatience : 0 < patience := by decide
  refine ⟨fun _ => argmaxRandom_eq_none_iff, fun _ _ => argmaxRandom_greatest,
    fun hsize i hi => ⟨?_, fun _ h => ncard_ways_argmaxRandom hsize hi h⟩,
    fun items hsize x => ⟨?_, fun _ h => ncard_ways_chooseUniform hsize h x⟩⟩
  · rw [← ncard_ways_one, ncard_ways_argmaxRandom hsize hi hpatience, pow_zero, Nat.one_mul]
  · rw [← ncard_ways_one, ncard_ways_chooseUniform hsize hpatience, pow_zero, Nat.one_mul]

/-- Two of four scores are greatest, and one is no number: a quarter of all words picks each. -/
theorem argmaxRandom_fair_tie :
    {v | (argmaxRandom [1.0, 5.0, 0.0 / 0.0, 5.0]).Gives [v] (some 3)}.ncard = 2 ^ 62 := by
  obtain ⟨-, -, hways, -⟩ := argmaxRandom_fair [1.0, 5.0, 0.0 / 0.0, 5.0]
  have hgreatest : Greatest [1.0, 5.0, 0.0 / 0.0, 5.0] 3 :=
    mem_tied_iff_greatest.mp (by decide +kernel)
  have htwo : {i | Greatest [1.0, 5.0, 0.0 / 0.0, 5.0] i}.ncard = 2 := by
    rw [ncard_greatest]
    decide +kernel
  obtain ⟨hpicks, -⟩ := hways (by decide) 3 hgreatest
  rw [htwo] at hpicks
  exact hpicks

end Selection

end Colloquy
