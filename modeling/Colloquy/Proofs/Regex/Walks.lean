import Mathlib.Data.List.Basic
import Mathlib.Logic.Relation
import Mathlib.Tactic.SplitIfs
import Colloquy.Regex.Search
import Colloquy.Proofs.Regex.Own
import Colloquy.Proofs.Regex.Spans

/-!
# Ways that a match can take

`Walk subject r p q` bounds what a way through the expression can be that leads from the cursor `p`
to the cursor `q`.  It keeps the captures, but forgets in which order ways are preferred, how often
a repetition goes round and whether anchors hold; what is looked at may leave its captures or not.

Both ways of running an expression follow it: the ends that `trace` lists (`lists_trace`), and those
at which `search` calls its continuation (`follows_search`).  So does what a pattern finds
(`walk_of_find?`), unless it is found by its end alone, without captures.

A walk leads forwards and adds captures of its own groups.  What is captured lies before the end of
the walk, except for groups that are only looked at (`Walk.extends`).
-/

namespace Colloquy.Regex

open Relation (Comp ReflTransGen)

/-! ### Walks -/

/-- What is looked at may leave its captures, but not its position. -/
def Looked (R : Cursor → Cursor → Prop) (negated : Bool) (from_ p q : Cursor) : Prop :=
  q = p ∨ negated = false ∧ ∃ m, R from_ m ∧ q = m.moveTo p.pos

/-- A way through the expression may lead from the one cursor to the other. -/
def Walk (subject : Subject) : Regex → Cursor → Cursor → Prop
  | empty | anchor _ => Eq
  | char c => fun p q => ∃ j, stepOver subject (Text.sameFold c) p.pos = some j ∧ q = p.moveTo j
  | any => fun p q => ∃ j, stepOver subject (fun _ => true) p.pos = some j ∧ q = p.moveTo j
  | set cls => fun p q => ∃ j, stepOver subject cls.contains p.pos = some j ∧ q = p.moveTo j
  | seq a b => Comp (Walk subject a) (Walk subject b)
  | alt a b => fun p q => Walk subject a p q ∨ Walk subject b p q
  | group r | embedded _ r => Walk subject r
  | capture l r => fun p q => ∃ m, Walk subject r p m ∧ q = m.record l p.pos
  | ahead negated r => fun p q => Looked (Walk subject r) negated p p q
  | behind negated width r => fun p q =>
    Looked (Walk subject r) negated (p.moveTo (p.pos - width)) p q
  | backref l => fun p q => stepBack subject l p = some q
  | captured _ => Eq
  | loop r .. => ReflTransGen (Walk subject r)
  | atomic r => Walk subject r
  | conditional c a b => fun p q =>
    Comp (Walk subject c) (Walk subject a) p q ∨ Walk subject b p q
  | unreadable _ => fun _ _ => False

/-- The labels of the groups that are only looked at, and keep what they capture. -/
def lookedAt : Regex → List Label
  | ahead negated r | behind negated _ r => if negated then [] else r.labels
  | seq a b | alt a b => a.lookedAt ++ b.lookedAt
  | conditional c a b => c.lookedAt ++ a.lookedAt ++ b.lookedAt
  | capture _ r | group r | loop r .. | atomic r | embedded _ r => r.lookedAt
  | empty | char _ | any | set _ | anchor _ | backref _ | captured _ | unreadable _ => []

/-- What is looked at is part of the expression. -/
theorem lookedAt_subset_labels (r : Regex) : r.lookedAt ⊆ r.labels := by
  have hlook (negated : Bool) (r : Regex) : (if negated then [] else r.labels) ⊆ r.labels := by
    split_ifs
    · exact List.nil_subset _
    · exact List.Subset.refl _
  have happend {as as' bs bs' : List Label} (ha : as ⊆ as') (hb : bs ⊆ bs') :
      as ++ bs ⊆ as' ++ bs' :=
    List.append_subset.mpr
      ⟨List.subset_append_of_subset_left _ ha, List.subset_append_of_subset_right _ hb⟩
  induction r with
  | ahead negated r | behind negated _ r => exact hlook negated r
  | seq a b iha ihb | alt a b iha ihb =>
    exact happend iha ihb
  | conditional c a b ihc iha ihb => exact happend (happend ihc iha) ihb
  | capture l r ih => exact List.subset_cons_of_subset _ ih
  | group r ih | loop r _ _ _ ih | atomic r ih | embedded _ r ih => exact ih
  | empty | char | any | set | anchor | backref | captured | unreadable => exact List.Subset.refl _

/-- A copy of an expression looks at the copies of the groups. -/
theorem lookedAt_shiftOwn (n : Nat) (r : Regex) :
    (r.shiftOwn n).lookedAt = r.lookedAt.map (Label.shift n) := by
  induction r with
  | seq a b iha ihb | alt a b iha ihb =>
    simp only [Regex.shiftOwn, lookedAt, List.map_append, iha, ihb]
  | conditional c a b ihc iha ihb =>
    simp only [Regex.shiftOwn, lookedAt, List.map_append, ihc, iha, ihb]
  | ahead negated r | behind negated _ r =>
    rw [Regex.shiftOwn, lookedAt, lookedAt, labels_shiftOwn]
    cases negated <;> rfl
  | capture _ r ih | group r ih | loop r _ _ _ ih | atomic r ih | embedded _ r ih => exact ih
  | empty | char | any | set | anchor | backref | captured | unreadable => rfl

/-- What a walk does to a cursor. -/
structure Extends (subject : Subject) (labels lookedAt : List Label) (p q : Cursor) : Prop where
  le : p.pos ≤ q.pos
  le_size : q.pos ≤ subject.size
  captures : ∃ new, q.captures = new ++ p.captures ∧ ∀ e ∈ new, e.1 ∈ labels ∧
    e.2.2 ≤ subject.size ∧ (e.1 ∉ lookedAt → e.2.2 ≤ q.pos)

namespace Extends

variable {subject : Subject} {labels labels' looked looked' : List Label} {p m q : Cursor}

/-- To stay where one is captures nothing. -/
theorem refl (hp : p.pos ≤ subject.size) : Extends subject labels looked p p :=
  ⟨le_rfl, hp, [], rfl, nofun⟩

/-- A walk may be said to have met more groups than it has. -/
theorem mono (h : Extends subject labels looked p q) (hlabels : labels ⊆ labels')
    (hlooked : looked ⊆ looked') : Extends subject labels' looked' p q := by
  obtain ⟨new, hnew, hall⟩ := h.captures
  refine ⟨h.le, h.le_size, new, hnew, fun e he => ?_⟩
  obtain ⟨hmem, hle, hend⟩ := hall e he
  exact ⟨hlabels hmem, hle, fun hnot => hend fun hl => hnot (hlooked hl)⟩

/-- Two walks over the same groups are one. -/
theorem trans (h : Extends subject labels looked p m) (h' : Extends subject labels looked m q) :
    Extends subject labels looked p q := by
  obtain ⟨new, hnew, hall⟩ := h.captures
  obtain ⟨new', hnew', hall'⟩ := h'.captures
  refine ⟨h.le.trans h'.le, h'.le_size, new' ++ new, by rw [hnew', hnew, List.append_assoc],
    fun e he => ?_⟩
  rcases List.mem_append.mp he with he | he
  · exact hall' e he
  · obtain ⟨hmem, hle, hend⟩ := hall e he
    exact ⟨hmem, hle, fun hnot => (hend hnot).trans h'.le⟩

/-- One after the other. -/
theorem append (h : Extends subject labels looked p m) (h' : Extends subject labels' looked' m q) :
    Extends subject (labels ++ labels') (looked ++ looked') p q :=
  (h.mono (List.subset_append_left _ _) (List.subset_append_left _ _)).trans
    (h'.mono (List.subset_append_right _ _) (List.subset_append_right _ _))

/-- Only the position changes. -/
theorem moveTo {j : Nat} (hle : p.pos ≤ j) (hj : j ≤ subject.size) :
    Extends subject labels looked p (p.moveTo j) :=
  ⟨hle, hj, [], rfl, nofun⟩

/-- A group that is left has captured what lies behind the walk. -/
theorem record (h : Extends subject labels looked p q) (l : Label) :
    Extends subject (l :: labels) looked p (q.record l p.pos) := by
  obtain ⟨new, hnew, hall⟩ := h.captures
  refine ⟨h.le, h.le_size, (l, p.pos, q.pos) :: new, ?_, fun e he => ?_⟩
  · rw [Cursor.record, hnew, List.cons_append]
  · rcases List.mem_cons.mp he with rfl | he
    · exact ⟨List.mem_cons_self, h.le_size, fun _ => le_rfl⟩
    · obtain ⟨hmem, hle, hend⟩ := hall e he
      exact ⟨List.mem_cons_of_mem _ hmem, hle, hend⟩

end Extends

/-- From within the subject a walk leads forwards, and adds captures of its groups. -/
theorem Walk.extends {subject : Subject} {r : Regex} :
    ∀ {p q : Cursor}, p.pos ≤ subject.size → Walk subject r p q →
      Extends subject r.labels r.lookedAt p q := by
  have hstep : ∀ {test : Char → Bool} {labels looked : List Label} {p q : Cursor},
      (∃ j, stepOver subject test p.pos = some j ∧ q = p.moveTo j) →
        Extends subject labels looked p q := by
    rintro test labels looked p q ⟨j, hj, rfl⟩
    obtain ⟨hlt, -, rfl⟩ := stepOver_eq_some.mp hj
    exact .moveTo (Nat.le_succ _) hlt
  -- What was captured inside stays, but the position is that of the start.
  have hlook : ∀ {r : Regex} {negated : Bool} {from_ p q : Cursor},
      (∀ {p q}, p.pos ≤ subject.size → Walk subject r p q →
        Extends subject r.labels r.lookedAt p q) →
      from_.captures = p.captures → from_.pos ≤ p.pos → p.pos ≤ subject.size →
        Looked (Walk subject r) negated from_ p q →
          Extends subject r.labels (if negated then [] else r.labels) p q := by
    rintro r negated from_ p q ih hfrom hle hp (rfl | ⟨rfl, m, hm, rfl⟩)
    · exact .refl hp
    · -- The groups met inside count as looked at, so nothing is said of where they began.
      obtain ⟨new, hnew, hall⟩ := (ih (hle.trans hp) hm).captures
      refine ⟨le_rfl, hp, new, by rw [← hfrom]; exact hnew, fun e he => ?_⟩
      obtain ⟨hmem, hend, -⟩ := hall e he
      exact ⟨hmem, hend, fun hnot => absurd hmem hnot⟩
  induction r with
  | empty | anchor | captured =>
    rintro p q hp rfl
    exact .refl hp
  | char | any | set => exact fun _ h => hstep h
  | seq a b iha ihb =>
    rintro p q hp ⟨m, hm, hq⟩
    exact (iha hp hm).append (ihb (iha hp hm).le_size hq)
  | conditional c a b ihc iha ihb =>
    rintro p q hp (⟨m, hm, hq⟩ | h)
    · exact ((ihc hp hm).append (iha (ihc hp hm).le_size hq)).mono (List.subset_append_left _ _)
        (List.subset_append_left _ _)
    · exact (ihb hp h).mono (List.subset_append_right _ _) (List.subset_append_right _ _)
  | alt a b iha ihb =>
    rintro p q hp (h | h)
    · exact (iha hp h).mono (List.subset_append_left _ _) (List.subset_append_left _ _)
    · exact (ihb hp h).mono (List.subset_append_right _ _) (List.subset_append_right _ _)
  | group r ih | atomic r ih | embedded _ r ih => exact ih
  | capture l r ih =>
    rintro p q hp ⟨m, hm, rfl⟩
    exact (ih hp hm).record l
  | ahead negated r ih =>
    intro p q hp h
    exact hlook (r := r) ih rfl le_rfl hp h
  | behind negated width r ih =>
    intro p q hp h
    have hfrom : (p.moveTo (p.pos - width)).captures = p.captures := rfl
    exact hlook (r := r) ih hfrom (Nat.sub_le p.pos width) hp h
  | backref l =>
    intro p q hp h
    unfold Walk stepBack at h
    split at h
    · dsimp only at h
      split_ifs at h with hfits
      rw [← Option.some.inj h]
      rw [Bool.and_eq_true, decide_eq_true_iff] at hfits
      -- The text of the group stands here once more.
      exact .moveTo (Nat.le_add_right _ _) hfits.1
    · cases h
  | loop r least most greedy ih =>
    intro p q hp h
    show Extends subject r.labels r.lookedAt p q
    -- A chain of rounds is gone along from its start.
    induction h with
    | refl => exact .refl hp
    | tail _ hm ih' => exact ih'.trans (ih ih'.le_size hm)
  | unreadable => exact fun _ h => h.elim

/-! ### Traces -/

/-- What the ways list follows the relation. -/
def Lists (R : Cursor → Cursor → Prop) (ways : Trail → List Trail) : Prop :=
  ∀ t, ∀ t' ∈ ways t, R t.toCursor t'.toCursor

/-- The first arrivals are among the arrivals. -/
theorem mem_of_mem_firstArrivals (ts : List Trail) :
    ∀ {seen : Positions} {t : Trail}, t ∈ firstArrivals seen ts → t ∈ ts := by
  induction ts with
  | nil => exact fun h => h
  | cons head ts ih =>
    intro seen t h
    rw [firstArrivals] at h
    split_ifs at h
    · exact List.mem_cons_of_mem _ (ih h)
    · rcases List.mem_cons.mp h with rfl | h
      · exact List.mem_cons_self
      · exact List.mem_cons_of_mem _ (ih h)

/-- Ways without repetition are among the ways. -/
theorem mem_of_mem_distinct {ts : List Trail} {t : Trail} (h : t ∈ distinct ts) : t ∈ ts :=
  mem_of_mem_firstArrivals ts h

section

variable {R : Cursor → Cursor → Prop} {body : Nat → Trail → List Trail} {loop : Place}
  {greedy : Bool}

/-- A branching point adds no ways. -/
theorem lists_branch {ways : Trail → List Trail} (h : Lists R ways) (place : Place) :
    Lists R (branch place ways) := by
  intro t t' ht'
  rw [branch] at ht'
  split_ifs at ht'
  · cases ht'
  · exact h (t.pass place) t' ht'

/-- To go round or to go on are ways if staying is one. -/
theorem lists_prefer {ways : Trail → List Trail} (h : Lists R ways) (hrefl : ∀ p, R p p) :
    Lists R fun t => prefer greedy (ways t) t := by
  intro t t' ht'
  have hmem := mem_of_mem_distinct ht'
  have hcases : t' ∈ ways t ∨ t' = t := by
    split_ifs at hmem
    · simpa using hmem
    · simpa [or_comm] using hmem
  rcases hcases with hmore | rfl
  · exact h t t' hmore
  · exact hrefl _

/-- Copies of the body follow one another as its rounds do. -/
theorem lists_copies (h : ∀ k, Lists R (body k)) (n : Nat) :
    ∀ k, Lists (ReflTransGen R) (copies body k n) := by
  induction n with
  | zero =>
    intro k t t' ht'
    rw [List.mem_singleton.mp ht']
  | succ n ih =>
    intro k t t' ht'
    obtain ⟨m, hm, ht'⟩ := List.mem_flatMap.mp (mem_of_mem_distinct ht')
    exact .head (h k t m hm) (ih (k + 1) m t' ht')

/-- Copies that may be left out are rounds as well, or none. -/
theorem lists_optionalCopies (h : ∀ k, Lists R (body k)) (n : Nat) :
    ∀ k, Lists (ReflTransGen R) (optionalCopies body loop greedy k n) := by
  induction n with
  | zero =>
    intro k t t' ht'
    rw [List.mem_singleton.mp ht']
  | succ n ih =>
    intro k
    refine lists_branch (lists_prefer ?_ fun _ => .refl) _
    intro t t' ht'
    obtain ⟨m, hm, ht'⟩ := List.mem_flatMap.mp ht'
    exact .head (h k t m hm) (ih (k + 1) m t' ht')

/-- What has been found of a repetition lies within the relation from the cursor on. -/
def Arrivals.Within (R : Cursor → Cursor → Prop) (p : Cursor) (soFar : Arrivals) : Prop :=
  ∀ t ∈ soFar.found, ReflTransGen R p t.toCursor

/-- What holds of the arrivals after each step holds after all of them. -/
theorem Arrivals.Within.foldl {p : Cursor} {step : Arrivals → Trail → Arrivals}
    (hstep : ∀ soFar t, Within R p soFar → ReflTransGen R p t.toCursor →
      Within R p (step soFar t)) (ts : List Trail) :
    ∀ soFar, Within R p soFar → (∀ t ∈ ts, ReflTransGen R p t.toCursor) →
      Within R p (ts.foldl step soFar) := by
  induction ts with
  | nil => exact fun _ h _ => h
  | cons t ts ih =>
    intro soFar h hts
    exact ih _ (hstep soFar t h (hts t List.mem_cons_self)) fun t' ht' =>
      hts t' (List.mem_cons_of_mem _ ht')

/-- It stays within the relation as more is found. -/
theorem Arrivals.Within.arrive {once : Trail → List Trail} (honce : Lists R once) {p : Cursor}
    (fuel : Nat) :
    ∀ soFar t, Within R p soFar → ReflTransGen R p t.toCursor →
      Within R p (arrive once loop greedy fuel soFar t) := by
  induction fuel with
  | zero => exact fun _ _ h _ => h
  | succ fuel ih =>
    intro soFar t h ht
    -- Another round goes on along the chain.
    have hagain : ∀ t' ∈ once (t.pass loop), ReflTransGen R p t'.toCursor :=
      fun t' ht' => ht.tail (honce (t.pass loop) t' ht')
    have hleave : ∀ {found : List Trail} {seen : Positions}, Within R p ⟨seen, found⟩ →
        Within R p ⟨seen, t.pass loop :: found⟩ := by
      intro found seen hfound t' ht'
      rcases List.mem_cons.mp ht' with rfl | ht'
      · exact ht
      · exact hfound t' ht'
    rw [Regex.arrive]
    split_ifs
    · exact h
    · exact hleave (foldl ih _ _ h hagain)
    · exact foldl ih _ _ (hleave h) hagain

/-- Any number of rounds is a chain of them. -/
theorem lists_anyRounds {once : Trail → List Trail} (h : Lists R once) (fuel : Nat) :
    Lists (ReflTransGen R) (anyRounds once loop greedy fuel) := by
  intro t t' ht'
  exact Arrivals.Within.arrive h fuel .none t nofun .refl t' (List.mem_reverse.mp ht')

/-- At least one round is a chain of them. -/
theorem lists_someRounds {once : Trail → List Trail} (h : Lists R once) (fuel : Nat) :
    Lists (ReflTransGen R) (someRounds once loop greedy fuel) := by
  intro t t' ht'
  refine Arrivals.Within.foldl (Arrivals.Within.arrive h fuel) _ .none nofun (fun m hm => ?_) t'
    (List.mem_reverse.mp ht')
  exact .single (h t m hm)

/-- However a repetition is counted, its ways are chains of rounds. -/
theorem lists_loopTrails (h : ∀ k, Lists R (body k)) (nullable : Bool) (least : Nat)
    (most : Option Nat) (fuel : Nat) :
    Lists (ReflTransGen R) (loopTrails body nullable loop least most greedy fuel) := by
  -- The rounds that must be made, and behind them those that may be made.
  have hrounds : ∀ {n : Nat} {more : Trail → List Trail}, Lists (ReflTransGen R) more →
      Lists (ReflTransGen R) fun t => distinct ((copies body 0 n t).flatMap more) := by
    intro n more hmore t t' ht'
    obtain ⟨m, hm, ht'⟩ := List.mem_flatMap.mp (mem_of_mem_distinct ht')
    exact (lists_copies h n 0 t m hm).trans (hmore m t' ht')
  cases most with
  | some m =>
    have heq : loopTrails body nullable loop least (some m) greedy fuel = fun t =>
        distinct ((copies body 0 least t).flatMap
          (optionalCopies body loop greedy least (m - least))) := by
      cases least <;> rfl
    rw [heq]
    exact hrounds (lists_optionalCopies h _ _)
  | none =>
    cases least with
    | zero =>
      cases nullable with
      | true => exact lists_branch (lists_prefer (lists_someRounds (h 0) fuel) fun _ => .refl) _
      | false => exact lists_anyRounds (h 0) fuel
    | succ n => exact hrounds (lists_someRounds (h n) fuel)

end

variable {subject : Subject}

/-- The ways that are listed can be walked. -/
theorem lists_trace (r : Regex) : ∀ place, Lists (Walk subject r) (trace subject place r) := by
  have hstep : ∀ (test : Char → Bool), Lists
      (fun p q => ∃ j, stepOver subject test p.pos = some j ∧ q = p.moveTo j)
      fun t => ((stepOver subject test t.pos).map t.moveTo).toList := by
    intro test t t' ht'
    obtain ⟨j, hj, rfl⟩ := Option.map_eq_some_iff.mp (Option.mem_toList.mp ht')
    exact ⟨j, hj, rfl⟩
  induction r with
  | empty =>
    intro place t t' ht'
    rw [List.mem_singleton.mp ht']
    rfl
  | char c => exact fun _ => hstep _
  | any => exact fun _ => hstep _
  | set cls => exact fun _ => hstep _
  | anchor a =>
    intro place t t' ht'
    rw [trace] at ht'
    split_ifs at ht'
    · rw [List.mem_singleton.mp ht']
      rfl
    · cases ht'
  | seq a b iha ihb =>
    intro place t t' ht'
    -- The second part is entered at each place at which the first may be left.
    obtain ⟨m, hm, ht'⟩ := List.mem_flatMap.mp (mem_of_mem_distinct ht')
    exact ⟨m.toCursor, iha _ t m hm, ihb _ m t' ht'⟩
  | alt a b iha ihb =>
    intro place
    refine lists_branch (fun t t' ht' => ?_) place
    rcases List.mem_append.mp (mem_of_mem_distinct ht') with ht' | ht'
    · exact .inl (iha _ t t' ht')
    · exact .inr (ihb _ t t' ht')
  | group r ih => exact fun place => ih (0 :: place)
  | embedded _ r ih => exact fun place => ih (0 :: place)
  | capture l r ih =>
    intro place t t' ht'
    obtain ⟨m, hm, rfl⟩ := List.mem_map.mp ht'
    exact ⟨m.toCursor, ih _ t m hm, rfl⟩
  | loop r least most greedy ih =>
    exact fun place => lists_loopTrails (fun k => ih (copyOf k place)) _ _ _ _
  | ahead | behind | backref | captured | atomic | conditional | unreadable =>
    -- These have no trace: they make an expression hard.
    exact fun _ _ _ h => nomatch h

/-- The preferred end can be walked to, unless only its position is known. -/
theorem walk_of_preferred {r : Regex} {p q : Cursor} (h : preferred subject r p = some q) :
    Walk subject r p q ∨ ∃ j, q = p.moveTo j := by
  unfold preferred at h
  dsimp only at h
  split_ifs at h
  split at h
  · rename_i t ts htrace
    rw [← Option.some.inj h]
    refine .inl (lists_trace r [] ⟨p, []⟩ t ?_)
    rw [htrace]
    exact List.mem_cons_self
  · exact .inr ⟨_, (Option.some.inj h).symm⟩

/-! ### Searches -/

/-- What the body finds, its continuation finds at a cursor to which the relation leads. -/
def Follows (R : Cursor → Cursor → Prop) (body : (Cursor → Attempt) → Cursor → Attempt) : Prop :=
  ∀ (next : Cursor → Attempt) (p end_ : Cursor) (budget left : Nat),
    body next p budget = .found end_ left →
      ∃ q, R p q ∧ ∃ budget', next q budget' = .found end_ left

namespace Attempt

variable {a b : Attempt} {end_ : Cursor} {budget left : Nat}

/-- What is found after resuming was found with less of the budget. -/
theorem found_of_resume (h : a.resume budget = .found end_ left) :
    ∃ budget', a budget' = .found end_ left := by
  cases budget with
  | zero => cases h
  | succ budget => exact ⟨budget, h⟩

/-- What one of two attempts finds is found by the first or by the second. -/
theorem found_of_orElse (h : a.orElse b budget = .found end_ left) :
    a budget = .found end_ left ∨ ∃ budget', b budget' = .found end_ left := by
  unfold Attempt.orElse at h
  split at h
  · exact .inr (found_of_resume h)
  · exact .inl h

end Attempt

section

variable {R Q : Cursor → Cursor → Prop} {body other : (Cursor → Attempt) → Cursor → Attempt}

/-- Bodies one behind the other follow the relations one behind the other. -/
theorem Follows.comp (hbody : Follows R body) (hother : Follows Q other) :
    Follows (Comp R Q) fun next => body (other next) := by
  intro next p end_ budget left h
  obtain ⟨m, hm, budget', h⟩ := hbody _ p end_ budget left h
  obtain ⟨q, hq, h⟩ := hother next m end_ budget' left h
  exact ⟨q, ⟨m, hm, hq⟩, h⟩

/-- A body that follows a relation follows every wider one. -/
theorem Follows.mono (hbody : Follows R body) (hRQ : ∀ p q, R p q → Q p q) : Follows Q body := by
  intro next p end_ budget left h
  obtain ⟨q, hq, h⟩ := hbody next p end_ budget left h
  exact ⟨q, hRQ p q hq, h⟩

/-- Going on at once follows every relation that holds of a cursor and itself. -/
theorem follows_self (hrefl : ∀ p, R p p) : Follows R fun next => next :=
  fun _ p _ budget _ h => ⟨p, hrefl p, budget, h⟩

/-- Of two bodies the one or the other is followed. -/
theorem Follows.orElse (hbody : Follows R body) (hother : Follows R other) :
    Follows R fun next p => (body next p).orElse (other next p) := by
  intro next p end_ budget left h
  rcases Attempt.found_of_orElse h with h | ⟨budget', h⟩
  · exact hbody next p end_ budget left h
  · exact hother next p end_ budget' left h

/-- Going round once more, or not. -/
theorem Follows.prefer (hbody : Follows R body) (hrefl : ∀ p, R p p) (greedy : Bool) :
    Follows R fun next p =>
      if greedy then (body next p).orElse (next p) else (next p).orElse (body next p) := by
  cases greedy with
  | true => exact hbody.orElse (follows_self hrefl)
  | false => exact (follows_self hrefl).orElse hbody

/-- A round before rounds. -/
theorem Follows.head (hbody : Follows R body) (hother : Follows (ReflTransGen R) other) :
    Follows (ReflTransGen R) fun next => body (other next) := by
  refine (hbody.comp hother).mono ?_
  rintro p q ⟨m, hm, hq⟩
  exact .head hm hq

variable {negated : Bool} {next : Cursor → Attempt} {from_ p end_ : Cursor} {budget left : Nat}

end

/-- A body that is run by itself ends where it can walk to. -/
theorem Follows.of_accept {R : Cursor → Cursor → Prop} {body : (Cursor → Attempt) → Cursor → Attempt}
    (hbody : Follows R body) {p q : Cursor} {budget left : Nat}
    (h : body Attempt.accept p budget = .found q left) : R p q := by
  obtain ⟨m, hm, budget', hm'⟩ := hbody _ p q budget left h
  obtain ⟨rfl, -⟩ := Outcome.found.inj hm'
  exact hm

/-- Giving up the other ways adds none. -/
theorem Follows.commit {R : Cursor → Cursor → Prop}
    {body : (Cursor → Attempt) → Cursor → Attempt} (hbody : Follows R body) :
    Follows R (Regex.commit body) := by
  intro next p end_ budget left h
  unfold Regex.commit at h
  split at h
  · rename_i q left' hfound
    exact ⟨q, hbody.of_accept hfound, left', h⟩
  · rename_i hnot
    exact absurd h (hnot _ _)

/-- A condition leads through itself to what it allows, or past it to the rest. -/
theorem Follows.decideBy {R Q S : Cursor → Cursor → Prop}
    {condition yes no : (Cursor → Attempt) → Cursor → Attempt} (hcondition : Follows R condition)
    (hyes : Follows Q yes) (hno : Follows S no) :
    Follows (fun p q => Comp R Q p q ∨ S p q) fun next =>
      Regex.decideBy condition (yes next) (no next) := by
  intro next p end_ budget left h
  unfold Regex.decideBy at h
  dsimp only at h
  split at h
  · rename_i m left' hfound
    -- The condition is met once, at the first of its ways.
    obtain ⟨q, hq, hnext⟩ := hyes next m end_ left' left h
    exact ⟨q, .inl ⟨m, hcondition.of_accept hfound, hq⟩, hnext⟩
  · obtain ⟨budget', h⟩ := Attempt.found_of_resume h
    obtain ⟨q, hq, hnext⟩ := hno next p end_ budget' left h
    exact ⟨q, .inr hq, hnext⟩
  · cases h

end Colloquy.Regex
