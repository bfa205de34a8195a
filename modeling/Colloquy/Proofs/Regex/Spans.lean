import Mathlib
import Colloquy.Regex.Trace

/-!
# What an expression matches

`Spans subject r i j` says that the characters from position `i` up to position `j` of the subject
are a match of `r`.  It is a relation on positions, built from the relations of the parts, and knows
nothing of the order in which matches are tried or of what they cost.  Captures are looked through,
and nothing is said of back-references, of what is atomic and of conditions: an expression that
holds one spans nothing there.  `commits` tells whether an expression holds a part of the last two
kinds.

The first way to run an expression is shown to follow it: `reach` collects the ends of the spans
(`contains_reach`), for expressions without look-arounds.
-/

namespace Colloquy.Regex

/-! ### Rounds -/

/-- Exactly `n` rounds of a relation. -/
def Rounds (R : Nat → Nat → Prop) : Nat → Nat → Nat → Prop
  | 0 => Eq
  | n + 1 => Relation.Comp R (Rounds R n)

variable {R Q : Nat → Nat → Prop} {i j n m : Nat}

/-- Without a round one stays. -/
theorem rounds_zero : Rounds R 0 i j ↔ i = j := Iff.rfl

/-- A first round is followed by the others. -/
theorem rounds_succ : Rounds R (n + 1) i j ↔ ∃ k, R i k ∧ Rounds R n k j := Iff.rfl

/-- Rounds are counted from either end: `m + n` of them are `m`, and from there `n`. -/
theorem rounds_add : Rounds R (m + n) i j ↔ ∃ k, Rounds R m i k ∧ Rounds R n k j := by
  -- The first of the `m` rounds is taken off on both sides.
  induction m generalizing i with
  | zero => simp [rounds_zero]
  | succ m ih =>
    rw [Nat.succ_add, rounds_succ]
    constructor
    · rintro ⟨l, hl, hrest⟩
      obtain ⟨k, hk, hkj⟩ := ih.mp hrest
      exact ⟨k, ⟨l, hl, hk⟩, hkj⟩
    · rintro ⟨k, ⟨l, hl, hk⟩, hkj⟩
      exact ⟨l, hl, ih.mpr ⟨k, hk, hkj⟩⟩

/-- Some number of rounds is the reflexive and transitive closure. -/
theorem exists_rounds_iff : (∃ n, Rounds R n i j) ↔ Relation.ReflTransGen R i j := by
  constructor
  · rintro ⟨n, h⟩
    induction n generalizing i with
    | zero => exact h ▸ .refl
    | succ n ih =>
      obtain ⟨k, hk, hkj⟩ := h
      exact .head hk (ih hkj)
  · intro h
    induction h using Relation.ReflTransGen.head_induction_on with
    | refl => exact ⟨0, rfl⟩
    | head hk _ ih =>
      obtain ⟨n, hn⟩ := ih
      exact ⟨n + 1, _, hk, hn⟩

/-- The relation leads forwards, and not beyond `size`. -/
def Advances (size : Nat) (R : Nat → Nat → Prop) : Prop :=
  ∀ i j, i ≤ size → R i j → i ≤ j ∧ j ≤ size

/-- One after the other, two relations that lead forwards do. -/
theorem Advances.comp {size : Nat} (hR : Advances size R) (hQ : Advances size Q) :
    Advances size (Relation.Comp R Q) := by
  rintro i j hi ⟨k, hik, hkj⟩
  obtain ⟨hle, hk⟩ := hR i k hi hik
  obtain ⟨hle', hj⟩ := hQ k j hk hkj
  exact ⟨hle.trans hle', hj⟩

/-- So do the rounds of one. -/
theorem Advances.rounds {size : Nat} (h : Advances size R) (n : Nat) :
    Advances size (Rounds R n) := by
  induction n with
  | zero =>
    rintro i j hi rfl
    exact ⟨le_rfl, hi⟩
  | succ n ih => exact h.comp ih

/-! ### Spans -/

/-- The characters from `i` up to `j` are a match of the expression. -/
def Spans (subject : Subject) : Regex → Nat → Nat → Prop
  | empty, i, j => i = j
  | char c, i, j => stepOver subject (Text.sameFold c) i = some j
  | any, i, j => stepOver subject (fun _ => true) i = some j
  | set cls, i, j => stepOver subject cls.contains i = some j
  | anchor a, i, j => a.holds subject i = true ∧ i = j
  | seq a b, i, j => Relation.Comp (Spans subject a) (Spans subject b) i j
  | alt a b, i, j => Spans subject a i j ∨ Spans subject b i j
  | group r, i, j | capture _ r, i, j | embedded _ r, i, j => Spans subject r i j
  | ahead negated r, i, j => ((∃ k, Spans subject r i k) ↔ negated = false) ∧ i = j
  | behind negated width r, i, j =>
    ((width ≤ i ∧ ∃ k, Spans subject r (i - width) k) ↔ negated = false) ∧ i = j
  | loop r least most _, i, j =>
    ∃ n, (∀ m ∈ most, n ≤ m - least) ∧ Rounds (Spans subject r) (least + n) i j
  | backref _, _, _ | captured _, _, _ | atomic _, _, _ | conditional .., _, _ | unreadable _, _, _ =>
    False

/-- The expression holds a part that gives other ways up once it has found one. -/
def commits : Regex → Bool
  | atomic _ | conditional .. => true
  | seq a b | alt a b => a.commits || b.commits
  | capture _ r | group r | ahead _ r | behind _ _ r | loop r .. | embedded _ r => r.commits
  | empty | char _ | any | set _ | anchor _ | backref _ | captured _ | unreadable _ => false

variable {subject : Subject}

/-- A step is over one character that passes the test. -/
theorem stepOver_eq_some {test : Char → Bool} :
    stepOver subject test i = some j ↔
      ∃ h : i < subject.size, test subject[i] = true ∧ j = i + 1 := by
  rw [stepOver]
  rcases Nat.lt_or_ge i subject.size with hlt | hge
  · rw [Array.getElem?_eq_getElem hlt]
    by_cases htest : test subject[i] = true
    · simp [htest, hlt, eq_comm]
    · simp [htest]
  · rw [Array.getElem?_eq_none hge]
    simp [Nat.not_lt.mpr hge]

theorem advances_stepOver (test : Char → Bool) :
    Advances subject.size fun i j => stepOver subject test i = some j := by
  intro i j _ h
  obtain ⟨hlt, _, rfl⟩ := stepOver_eq_some.mp h
  exact ⟨Nat.le_succ i, hlt⟩

/-- The rounds that a repetition must make, and then those that it may make. -/
theorem spans_loop {r : Regex} {least : Nat} {most : Option Nat} {greedy : Bool} :
    Spans subject (loop r least most greedy) i j ↔
      Relation.Comp (Rounds (Spans subject r) least)
        (fun k j => ∃ n, (∀ m ∈ most, n ≤ m - least) ∧ Rounds (Spans subject r) n k j) i j := by
  rw [Spans]
  constructor
  · rintro ⟨n, hn, hrounds⟩
    obtain ⟨k, hik, hkj⟩ := rounds_add.mp hrounds
    exact ⟨k, hik, n, hn, hkj⟩
  · rintro ⟨k, hik, n, hn, hkj⟩
    exact ⟨n, hn, rounds_add.mpr ⟨k, hik, hkj⟩⟩

/-- No match ends before it begins, or behind the subject. -/
theorem advances_spans (r : Regex) : Advances subject.size (Spans subject r) := by
  induction r with
  | empty =>
    rintro i j hi rfl
    exact ⟨le_rfl, hi⟩
  | char c => exact advances_stepOver _
  | any => exact advances_stepOver _
  | set cls => exact advances_stepOver _
  | anchor a =>
    rintro i j hi ⟨_, rfl⟩
    exact ⟨le_rfl, hi⟩
  | seq a b iha ihb => exact iha.comp ihb
  | alt a b iha ihb =>
    rintro i j hi (h | h)
    · exact iha i j hi h
    · exact ihb i j hi h
  | group r ih | capture _ r ih | embedded _ r ih => exact ih
  | ahead negated r _ =>
    rintro i j hi ⟨_, rfl⟩
    exact ⟨le_rfl, hi⟩
  | behind negated width r _ =>
    rintro i j hi ⟨_, rfl⟩
    exact ⟨le_rfl, hi⟩
  | loop r least most greedy ih =>
    rintro i j hi ⟨n, _, hrounds⟩
    exact ih.rounds _ i j hi hrounds
  | backref | captured | atomic | conditional | unreadable => exact fun _ _ _ h => h.elim

/-! ### Collecting the ends -/

/-- `body` sends sets of positions to where the relation leads from them. -/
def Collects (size : Nat) (R : Nat → Nat → Prop) (body : Positions → Positions) : Prop :=
  ∀ s, (∀ i, s.contains i = true → i ≤ size) →
    ∀ j, (body s).contains j = true ↔ ∃ i, s.contains i = true ∧ R i j

section Collecting

variable {size : Nat} {body : Positions → Positions} {s : Positions}

/-- The positions that are sent stay within the subject. -/
theorem contains_le (hbody : Collects size R body) (hR : Advances size R)
    (hs : ∀ i, s.contains i = true → i ≤ size) : ∀ j, (body s).contains j = true → j ≤ size := by
  intro j hj
  obtain ⟨i, hi, hij⟩ := (hbody s hs j).mp hj
  exact (hR i j (hs i hi) hij).2

/-- A required number of rounds is computed set by set. -/
theorem collects_roundsFrom (hbody : Collects size R body) (hR : Advances size R) (n : Nat) :
    Collects size (Rounds R n) (roundsFrom body n) := by
  induction n with
  | zero => simp [Collects, roundsFrom, rounds_zero]
  | succ n ih =>
    intro s hs j
    rw [roundsFrom, ih (body s) (contains_le hbody hR hs)]
    constructor
    · rintro ⟨k, hk, hkj⟩
      obtain ⟨i, hi, hik⟩ := (hbody s hs k).mp hk
      exact ⟨i, hi, k, hik, hkj⟩
    · rintro ⟨i, hi, k, hik, hkj⟩
      exact ⟨k, (hbody s hs k).mpr ⟨i, hi, hik⟩, hkj⟩

/-- A capped number of rounds is computed as the union of the sets on the way. -/
theorem collects_roundsUpTo (hbody : Collects size R body) (hR : Advances size R) (n : Nat) :
    Collects size (fun i j => ∃ m ≤ n, Rounds R m i j) (roundsUpTo body n) := by
  induction n with
  | zero => simp [Collects, roundsUpTo, rounds_zero]
  | succ n ih =>
    intro s hs j
    rw [roundsUpTo, Positions.contains_union, Bool.or_eq_true,
      ih (body s) (contains_le hbody hR hs)]
    constructor
    · rintro (hj | ⟨k, hk, m, hm, hkj⟩)
      · exact ⟨j, hj, 0, Nat.zero_le _, rfl⟩
      · obtain ⟨i, hi, hik⟩ := (hbody s hs k).mp hk
        exact ⟨i, hi, m + 1, Nat.succ_le_succ hm, k, hik, hkj⟩
    · rintro ⟨i, hi, m, hm, hij⟩
      cases m with
      | zero => exact .inl (hij ▸ hi)
      | succ m =>
        obtain ⟨k, hik, hkj⟩ := hij
        exact .inr ⟨k, (hbody s hs k).mpr ⟨i, hi, hik⟩, m, Nat.le_of_succ_le_succ hm, hkj⟩

/-- The positions up to `size` that are not in the set. -/
def missing (size : Nat) (s : Positions) : Finset Nat :=
  (Finset.range (size + 1)).filter fun i => s.contains i = false

/-- What is missing is counted up to the end of the subject, the end included. -/
theorem mem_missing :
    i ∈ missing size s ↔ i ≤ size ∧ s.contains i = false := by
  rw [missing, Finset.mem_filter, Finset.mem_range, Nat.lt_succ_iff]

/-- A position that is new to the set was missing. -/
theorem card_missing_union_lt {fresh : Positions} (hi : i ≤ size) (hfresh : fresh.contains i = true)
    (hnew : s.contains i = false) : (missing size (s.union fresh)).card < (missing size s).card := by
  have hsubset : missing size (s.union fresh) ⊆ missing size s := by
    intro k hk
    rw [mem_missing, Positions.contains_union, Bool.or_eq_false_iff] at hk
    exact mem_missing.mpr ⟨hk.1, hk.2.1⟩
  refine Finset.card_lt_card ((Finset.ssubset_iff_of_subset hsubset).mpr
    ⟨i, mem_missing.mpr ⟨hi, hnew⟩, ?_⟩)
  rw [mem_missing, Positions.contains_union, hfresh, Bool.or_true]
  simp

/-- The closure of a relation that leads forwards stays within the subject. -/
theorem le_of_reflTransGen (hR : Advances size R) (hi : i ≤ size)
    (h : Relation.ReflTransGen R i j) : j ≤ size := by
  induction h with
  | refl => exact hi
  | tail _ hkj hk => exact (hR _ _ hk hkj).2

/-- A set that the relation does not lead out of. -/
theorem contains_of_reflTransGen
    (hclosed : ∀ i j, s.contains i = true → R i j → s.contains j = true)
    (hi : s.contains i = true) (h : Relation.ReflTransGen R i j) : s.contains j = true := by
  induction h with
  | refl => exact hi
  | tail _ hkj hk => exact hclosed _ _ hk hkj

/-- Saturation adds all that the relation leads to.  What has been found and is not on the frontier
has been followed already; each round that goes on finds a position that was missing. -/
theorem contains_saturate (hbody : Collects size R body) (hR : Advances size R) (fuel : Nat)
    {frontier found : Positions} (hfound : ∀ i, found.contains i = true → i ≤ size)
    (hfrontier : ∀ i, frontier.contains i = true → found.contains i = true)
    (hfollowed : ∀ i j, found.contains i = true → frontier.contains i = false → R i j →
      found.contains j = true)
    (hfuel : (missing size found).card ≤ fuel) (j : Nat) :
    (saturate body fuel frontier found).contains j = true ↔
      ∃ i, found.contains i = true ∧ Relation.ReflTransGen R i j := by
  induction fuel generalizing frontier found with
  | zero =>
    rw [saturate]
    refine ⟨fun hj => ⟨j, hj, .refl⟩, fun ⟨i, hi, hij⟩ => ?_⟩
    have hj : j ≤ size := le_of_reflTransGen hR (hfound i hi) hij
    have hnone : missing size found = ∅ := Finset.card_eq_zero.mp (Nat.le_zero.mp hfuel)
    have hnot : j ∉ missing size found := hnone ▸ Finset.notMem_empty j
    rw [mem_missing, not_and, Bool.not_eq_false] at hnot
    exact hnot hj
  | succ fuel ih =>
    have hends : ∀ j, (body frontier).contains j = true ↔
        ∃ i, frontier.contains i = true ∧ R i j :=
      hbody frontier fun i hi => hfound i (hfrontier i hi)
    let fresh := (body frontier).diff found
    have hfresh : ∀ j, fresh.contains j = true ↔
        (∃ i, frontier.contains i = true ∧ R i j) ∧ found.contains j = false := fun j => by
      rw [Positions.contains_diff, Bool.and_eq_true, hends, Bool.not_eq_true']
    -- Whatever the found positions lead to in one step is found now or fresh.
    have hstep : ∀ i j, found.contains i = true → R i j →
        found.contains j = true ∨ fresh.contains j = true := by
      intro i j hi hij
      cases hj : found.contains j with
      | true => exact .inl rfl
      | false =>
        refine .inr ((hfresh j).mpr ⟨?_, hj⟩)
        cases hif : frontier.contains i with
        | true => exact ⟨i, hif, hij⟩
        | false => exact absurd (hfollowed i j hi hif hij) (by simp [hj])
    show (if fresh.isEmpty then found else saturate body fuel fresh (found.union fresh)).contains j
      = true ↔ _
    by_cases hempty : fresh.isEmpty = true
    · rw [if_pos hempty]
      rw [Positions.isEmpty_iff] at hempty
      refine ⟨fun hj => ⟨j, hj, .refl⟩, fun ⟨i, hi, hij⟩ => ?_⟩
      refine contains_of_reflTransGen (fun i j hi hij => ?_) hi hij
      exact (hstep i j hi hij).resolve_right (by simp [hempty])
    · rw [if_neg hempty]
      have hunion : ∀ i, (found.union fresh).contains i = true ↔
          found.contains i = true ∨ fresh.contains i = true := fun i => by
        rw [Positions.contains_union, Bool.or_eq_true]
      have hfresh_le : ∀ i, fresh.contains i = true → i ≤ size := by
        intro i hi
        obtain ⟨⟨k, hk, hki⟩, _⟩ := (hfresh i).mp hi
        exact (hR k i (hfound k (hfrontier k hk)) hki).2
      rw [ih (fun i hi => ((hunion i).mp hi).elim (hfound i) (hfresh_le i))
        (fun i hi => (hunion i).mpr (.inr hi))]
      · constructor
        · rintro ⟨i, hi, hij⟩
          rcases (hunion i).mp hi with hi | hi
          · exact ⟨i, hi, hij⟩
          · obtain ⟨⟨k, hk, hki⟩, _⟩ := (hfresh i).mp hi
            exact ⟨k, hfrontier k hk, .head hki hij⟩
        · rintro ⟨i, hi, hij⟩
          exact ⟨i, (hunion i).mpr (.inl hi), hij⟩
      · intro i j hi hnot hij
        have hi : found.contains i = true := ((hunion i).mp hi).resolve_right (by simp [hnot])
        exact (hunion j).mpr (hstep i j hi hij)
      · obtain ⟨i, hi⟩ : ∃ i, fresh.contains i = true := by
          simpa [Positions.isEmpty_iff] using hempty
        have hlt := card_missing_union_lt (hfresh_le i hi) hi ((hfresh i).mp hi).2
        omega

end Collecting

/-- Stepping over a character, for all positions of a set at once. -/
theorem collects_step (size : Nat) (test : Char → Bool) :
    Collects size (fun i j => stepOver subject test i = some j) fun s => s.step subject test := by
  intro s _ j
  show (s.step subject test).contains j = true ↔ _
  rw [Positions.step, Positions.contains_ofList, decide_eq_true_iff, List.mem_filterMap]
  simp only [Positions.mem_toList]

/-- A test that consumes nothing keeps the positions that pass it. -/
theorem collects_filter (size : Nat) (test : Nat → Bool) :
    Collects size (fun i j => test i = true ∧ i = j) fun s => s.filter test := by
  intro s _ j
  show (s.filter test).contains j = true ↔ _
  rw [Positions.filter, Positions.contains_ofList, decide_eq_true_iff, List.mem_filter,
    Positions.mem_toList]
  constructor
  · rintro ⟨hj, htest⟩
    exact ⟨j, hj, htest, rfl⟩
  · rintro ⟨i, hi, htest, rfl⟩
    exact ⟨hi, htest⟩

/-- What is sent by two bodies in turn is where the relations lead one after the other. -/
theorem Collects.comp {size : Nat} {body after : Positions → Positions}
    (hbody : Collects size R body) (hR : Advances size R) (hafter : Collects size Q after) :
    Collects size (Relation.Comp R Q) fun s => after (body s) := by
  intro s hs j
  rw [hafter (body s) (contains_le hbody hR hs)]
  constructor
  · rintro ⟨k, hk, hkj⟩
    obtain ⟨i, hi, hik⟩ := (hbody s hs k).mp hk
    exact ⟨i, hi, k, hik, hkj⟩
  · rintro ⟨i, hi, k, hik, hkj⟩
    exact ⟨k, (hbody s hs k).mpr ⟨i, hi, hik⟩, hkj⟩

/-- What either of two bodies sends is where one of the relations leads. -/
theorem Collects.union {size : Nat} {body other : Positions → Positions}
    (hbody : Collects size R body) (hother : Collects size Q other) :
    Collects size (fun i j => R i j ∨ Q i j) fun s => (body s).union (other s) := by
  intro s hs j
  rw [Positions.contains_union, Bool.or_eq_true, hbody s hs, hother s hs, ← exists_or]
  simp only [and_or_left]

/-- The relation only matters up to equivalence. -/
theorem Collects.congr {size : Nat} {body : Positions → Positions} (hbody : Collects size R body)
    (h : ∀ i j, R i j ↔ Q i j) : Collects size Q body := by
  intro s hs j
  rw [hbody s hs]
  simp only [h]

/-- An uncapped number of rounds is computed by saturation.  There are `size + 1` positions, so as
many turns are enough. -/
theorem collects_saturate {size : Nat} {body : Positions → Positions}
    (hbody : Collects size R body) (hR : Advances size R) :
    Collects size (fun i j => ∃ n, Rounds R n i j) fun s => saturate body (size + 1) s s := by
  intro s hs j
  simp only [exists_rounds_iff]
  refine contains_saturate hbody hR (size + 1) hs (fun _ hi => hi) (fun i j hi hnot _ => ?_) ?_ j
  · rw [hi] at hnot
    cases hnot
  · exact (Finset.card_filter_le _ _).trans (Finset.card_range _).le

/-- The ends of the spans that start in a set are collected. -/
theorem collects_reach {referenced : List Label} (r : Regex) (hplain : r.isPlain referenced = true) :
    Collects subject.size (Spans subject r) (reach subject r) := by
  induction r with
  | empty => simp [Collects, reach, Spans]
  | char c => exact collects_step _ _
  | any => exact collects_step _ _
  | set cls => exact collects_step _ _
  | anchor a => exact collects_filter _ _
  | seq a b iha ihb =>
    rw [isPlain, Bool.and_eq_true] at hplain
    exact (iha hplain.1).comp (advances_spans a) (ihb hplain.2)
  | alt a b iha ihb =>
    rw [isPlain, Bool.and_eq_true] at hplain
    exact (iha hplain.1).union (ihb hplain.2)
  | group r ih => exact ih hplain
  | embedded _ r ih => exact ih hplain
  | capture l r ih =>
    rw [isPlain, Bool.and_eq_true] at hplain
    exact ih hplain.2
  -- The turns that must be made come first, then what is left of a cap or the saturation.
  | loop r least most greedy ih =>
    have hbody := ih hplain
    have hR : Advances subject.size (Spans subject r) := advances_spans r
    have hleast := collects_roundsFrom hbody hR least
    cases most with
    | some m =>
      refine (hleast.comp (hR.rounds least) (collects_roundsUpTo hbody hR (m - least))).congr
        fun i j => ?_
      rw [spans_loop]
      simp
    | none =>
      refine (hleast.comp (hR.rounds least) (collects_saturate hbody hR)).congr fun i j => ?_
      rw [spans_loop]
      simp
  | unreadable _ => simp [Collects, reach, Spans]
  -- None of these is plain: the sets of positions do not know what a cursor has captured.
  | ahead | behind | backref | captured | atomic | conditional => cases hplain

/-! ### Stretches of text -/

/-- Nothing stands between a position and itself. -/
theorem slice_self (subject : Subject) (i : Nat) : slice subject i i = [] := by
  rw [slice, Array.toList_extract]
  simp

/-- A stretch of text is its first character and the rest. -/
theorem slice_cons (hij : i < j) (hj : j ≤ subject.size) :
    slice subject i j = subject[i] :: slice subject (i + 1) j := by
  have hi : i < subject.toList.length := by simpa using hij.trans_le hj
  rw [slice, slice, Array.toList_extract, Array.toList_extract, List.extract_eq_take_drop,
    List.extract_eq_take_drop, List.drop_eq_getElem_cons hi, Array.getElem_toList,
    show j - i = j - (i + 1) + 1 by omega, List.take_succ_cons]

/-- All characters from `i` up to `j` satisfy the test. -/
def Stretch (subject : Subject) (test : Char → Bool) (i j : Nat) : Prop :=
  i ≤ j ∧ j ≤ subject.size ∧ ∀ c ∈ slice subject i j, test c = true

/-- The characters from `i` up to `j` are those of the word, up to case. -/
def Spells (subject : Subject) (word : List Char) (i j : Nat) : Prop :=
  i ≤ j ∧ j ≤ subject.size ∧
    List.Forall₂ (fun c d => Text.sameFold c d = true) word (slice subject i j)

/-- The relations lead to the same positions from within the subject. -/
def Agree (size : Nat) (R Q : Nat → Nat → Prop) : Prop :=
  ∀ i ≤ size, ∀ j, R i j ↔ Q i j

/-- A relation agrees with itself. -/
theorem Agree.refl (size : Nat) (R : Nat → Nat → Prop) : Agree size R R :=
  fun _ _ _ => Iff.rfl

/-- Agreement is transitive. -/
theorem Agree.trans {size : Nat} {P : Nat → Nat → Prop} (h : Agree size R Q) (h' : Agree size Q P) :
    Agree size R P :=
  fun i hi j => (h i hi j).trans (h' i hi j)

/-- A stretch of text has a character for each position. -/
theorem length_slice (hj : j ≤ subject.size) : (slice subject i j).length = j - i := by
  rw [slice, Array.length_toList, Array.size_extract, Nat.min_eq_left hj]

/-- The empty stretch passes any test. -/
theorem stretch_self (test : Char → Bool) (hi : i ≤ subject.size) :
    Stretch subject test i i :=
  ⟨le_rfl, hi, by simp [slice_self]⟩

/-- A stretch passes if its first character and the rest do. -/
theorem stretch_succ {test : Char → Bool} (hij : i < j) (hj : j ≤ subject.size) :
    Stretch subject test i j ↔ test subject[i] = true ∧ Stretch subject test (i + 1) j := by
  rw [Stretch, Stretch, slice_cons hij hj, List.forall_mem_cons]
  constructor
  · rintro ⟨_, _, htest, hrest⟩
    exact ⟨htest, hij, hj, hrest⟩
  · rintro ⟨htest, _, _, hrest⟩
    exact ⟨hij.le, hj, htest, hrest⟩

/-- Any number of characters that satisfy the test. -/
theorem agree_stretch (subject : Subject) (test : Char → Bool) :
    Agree subject.size (fun i j => ∃ n, Rounds (fun i j => stepOver subject test i = some j) n i j)
      (Stretch subject test) := by
  intro i hi j
  constructor
  · rintro ⟨n, h⟩
    induction n generalizing i with
    | zero =>
      obtain rfl : i = j := h
      exact stretch_self test hi
    | succ n ih =>
      obtain ⟨k, hik, hkj⟩ := h
      obtain ⟨hlt, htest, rfl⟩ := stepOver_eq_some.mp hik
      have hrest := ih (i + 1) hlt hkj
      exact (stretch_succ hrest.1 hrest.2.1).mpr ⟨htest, hrest⟩
  · rintro h
    -- A stretch of `n` characters is `n` rounds of one step.
    obtain ⟨n, rfl⟩ := Nat.exists_eq_add_of_le h.1
    refine ⟨n, ?_⟩
    induction n generalizing i with
    | zero => rfl
    | succ n ih =>
      have hlt : i < i + (n + 1) := Nat.lt_add_of_pos_right n.succ_pos
      obtain ⟨htest, hrest⟩ := (stretch_succ hlt h.2.1).mp h
      rw [← Nat.succ_add_eq_add_succ i n] at hrest ⊢
      exact ⟨i + 1, stepOver_eq_some.mpr ⟨hlt.trans_le h.2.1, htest, rfl⟩,
        ih (i + 1) (hlt.trans_le h.2.1) hrest⟩

/-- Characters one after the other. -/
theorem agree_chars (word : List Char) :
    Agree subject.size (Spans subject (chars word)) (Spells subject word) := by
  intro i hi j
  induction word generalizing i with
  | nil =>
    constructor
    · rintro rfl
      exact ⟨le_rfl, hi, by rw [slice_self]; exact .nil⟩
    · rintro ⟨hij, hj, hnil⟩
      have hlength := hnil.length_eq
      rw [length_slice hj, List.length_nil] at hlength
      show i = j
      omega
  | cons c word ih =>
    show Relation.Comp (Spans subject (char c)) (Spans subject (chars word)) i j ↔ _
    constructor
    · rintro ⟨k, hik, hkj⟩
      -- The first character is stepped over, and the rest of the word is spelled behind it.
      obtain ⟨hlt, htest, rfl⟩ := stepOver_eq_some.mp hik
      obtain ⟨hle, hj, hword⟩ := (ih (i + 1) hlt).mp hkj
      refine ⟨(Nat.le_succ i).trans hle, hj, ?_⟩
      rw [slice_cons hle hj]
      exact .cons htest hword
    · rintro ⟨hij, hj, hword⟩
      rcases Nat.eq_or_lt_of_le hij with rfl | hlt
      · rw [slice_self] at hword
        cases hword
      · rw [slice_cons hlt hj] at hword
        cases hword with
        | cons htest hword =>
          exact ⟨i + 1, stepOver_eq_some.mpr ⟨hlt.trans_le hj, htest, rfl⟩,
            (ih (i + 1) (hlt.trans_le hj)).mpr ⟨hlt, hj, hword⟩⟩

end Colloquy.Regex
