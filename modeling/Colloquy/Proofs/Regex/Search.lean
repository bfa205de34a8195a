import Mathlib
import Colloquy.Regex.Engine
import Colloquy.Regex.Search
import Colloquy.Proofs.Regex.Ways

/-!
# What a search finds

A search with a budget has a cost: with less it is given up, and from there on it finds a match or
misses it and leaves what it did not spend (`Attempt.Decides`).  Costs add up along the ways that
are tried, so each way of running a part of an expression is described by the ways that the part has
(`Tries`), and the descriptions follow the definition of `search`.

`exists_cost_of_ways` says it of a whole pattern: there is a budget from which it is not given up,
and a search that is not given up finds a match exactly if there is a way from the start, provided
that no part of the pattern commits to one of its ways.  For a pattern without back-references that
is a span from the start (`exists_cost`).
-/

namespace Colloquy.Regex

open Relation (Comp)

/-! ### Costs -/

/-- The attempt costs a certain number of resumptions.  With fewer it is given up; otherwise it
finds a match if `P` holds, misses if it does not, and leaves the rest of the budget. -/
def Attempt.Decides (a : Attempt) (P : Prop) : Prop :=
  ∃ cost, (∀ budget < cost, a budget = .exhausted) ∧
    ((P ∧ ∃ q, ∀ left, a (cost + left) = .found q left) ∨
      (¬P ∧ ∀ left, a (cost + left) = .missed left))

namespace Attempt

variable {a b : Attempt} {P Q : Prop}

/-- What is decided only matters up to equivalence. -/
theorem Decides.congr (h : a.Decides P) (hPQ : P ↔ Q) : a.Decides Q := by
  rwa [propext hPQ] at h

/-- A miss decides what is false, at no cost. -/
theorem decides_miss (h : ¬P) : miss.Decides P :=
  ⟨0, fun _ hlt => absurd hlt (Nat.not_lt_zero _), .inr ⟨h, fun left => by
    rw [Nat.zero_add]
    rfl⟩⟩

/-- A match decides what is true, at no cost. -/
theorem decides_accept (p : Cursor) (h : P) : (accept p).Decides P :=
  ⟨0, fun _ hlt => absurd hlt (Nat.not_lt_zero _), .inl ⟨h, p, fun left => by
    rw [Nat.zero_add]
    rfl⟩⟩

/-- A saved alternative costs one more. -/
theorem Decides.resume (h : a.Decides P) : a.resume.Decides P := by
  obtain ⟨cost, hless, henough⟩ := h
  refine ⟨cost + 1, fun budget hlt => ?_, ?_⟩
  · cases budget with
    | zero => rfl
    | succ budget => exact hless budget (Nat.lt_of_succ_lt_succ hlt)
  · have hcost : ∀ left, a.resume (cost + 1 + left) = a (cost + left) := fun left => by
      rw [Nat.add_right_comm]
      rfl
    simpa only [hcost] using henough

/-- After a miss, an attempt goes on as another one would with the budget that is left. -/
theorem decides_after_miss {c : Attempt} (hb : b.Decides Q) (h : ¬P) {cost : Nat}
    (hless : ∀ budget < cost, c budget = .exhausted) (hmiss : ∀ left, c (cost + left) = b left) :
    c.Decides (P ∨ Q) := by
  obtain ⟨more, hless', henough⟩ := hb
  refine ⟨cost + more, fun budget hlt => ?_, ?_⟩
  · -- The budget ends within the first attempt, or within the second.
    rcases Nat.lt_or_ge budget cost with hbudget | hbudget
    · exact hless budget hbudget
    · obtain ⟨left, rfl⟩ := Nat.exists_eq_add_of_le hbudget
      rw [hmiss]
      exact hless' left (by omega)
  · simp only [Nat.add_assoc, hmiss]
    refine henough.imp (fun ⟨hQ, hfound⟩ => ⟨.inr hQ, hfound⟩) fun ⟨hQ, hmissed⟩ => ⟨?_, hmissed⟩
    exact not_or.mpr ⟨h, hQ⟩

/-- Alternatives decide the disjunction; the second costs a resumption more, if the first misses. -/
theorem Decides.orElse (ha : a.Decides P) (hb : b.Decides Q) : (a.orElse b).Decides (P ∨ Q) := by
  obtain ⟨cost, hless, henough⟩ := ha
  have hless' : ∀ budget < cost, a.orElse b budget = .exhausted := fun budget hlt => by
    rw [Attempt.orElse, hless budget hlt]
  rcases henough with ⟨hP, q, hfound⟩ | ⟨hP, hmissed⟩
  · exact ⟨cost, hless', .inl ⟨.inl hP, q, fun left => by rw [Attempt.orElse, hfound]⟩⟩
  · exact decides_after_miss hb.resume hP hless' fun left => by rw [Attempt.orElse, hmissed]

/-- The second attempt, if the first one misses. -/
def ifMissed (a b : Attempt) : Attempt := fun budget =>
  match a budget with
  | .found _ left => .missed left
  | .missed left => b.resume left
  | .exhausted => .exhausted

/-- The second attempt counts only where the first has missed. -/
theorem Decides.ifMissed (ha : a.Decides P) (hb : ¬P → b.Decides Q) :
    (a.ifMissed b).Decides (¬P ∧ Q) := by
  obtain ⟨cost, hless, henough⟩ := ha
  have hless' : ∀ budget < cost, a.ifMissed b budget = .exhausted := fun budget hlt => by
    rw [Attempt.ifMissed, hless budget hlt]
  rcases henough with ⟨hP, q, hfound⟩ | ⟨hP, hmissed⟩
  · exact ⟨cost, hless', .inr ⟨fun h => h.1 hP, fun left => by rw [Attempt.ifMissed, hfound]⟩⟩
  · refine (decides_after_miss (hb hP).resume hP hless' fun left => ?_).congr (by simp [hP])
    rw [Attempt.ifMissed, hmissed]

end Attempt

/-! ### Ways to run a part -/

section Running

variable (size : Nat) (referenced : List Label)

/-- `body` tries all that the relation leads to.  If the continuation decides at each of these
cursors whether the rest matches, then `body` decides whether it does at one of them. -/
def Tries (R : View → View → Prop) (body : (Cursor → Attempt) → Cursor → Attempt) : Prop :=
  ∀ (next : Cursor → Attempt) (N : View → Prop) (p : Cursor), p.pos ≤ size →
    (∀ q : Cursor, R (p.view referenced) (q.view referenced) →
      (next q).Decides (N (q.view referenced))) →
      (body next p).Decides (∃ w, R (p.view referenced) w ∧ N w)

variable {size referenced} {R Q : View → View → Prop}
  {body other : (Cursor → Attempt) → Cursor → Attempt}

/-- The relation only matters up to equivalence. -/
theorem Tries.congr (h : Tries size referenced R body) (hRQ : ∀ v w, R v w ↔ Q v w) :
    Tries size referenced Q body := by
  obtain rfl : R = Q := by
    funext v w
    exact propext (hRQ v w)
  exact h

/-- Going straight on tries the cursor that is there. -/
theorem tries_self : Tries size referenced Eq fun next => next :=
  fun _ _ p _ hnext => (hnext p rfl).congr (by simp)

/-- Going on from a cursor, if there is one. -/
theorem tries_goOn {step : Cursor → Option Cursor}
    (h : ∀ p w, R (p.view referenced) w ↔ ∃ q ∈ step p, w = q.view referenced) :
    Tries size referenced R fun next p => Attempt.goOn next (step p) := by
  intro next N p hp hnext
  dsimp only
  cases hstep : step p with
  | none => exact Attempt.decides_miss (by simp [h, hstep])
  | some q =>
    refine (hnext q ((h p _).mpr ⟨q, hstep, rfl⟩)).congr ?_
    simp [h, hstep]

/-- Bodies in turn try what their relations lead to one after the other. -/
theorem Tries.comp (hbody : Tries size referenced R body) (hR : Leads size R)
    (hother : Tries size referenced Q other) :
    Tries size referenced (Comp R Q) fun next => body (other next) := by
  intro next N p hp hnext
  refine (hbody (other next) (fun m => ∃ w, Q m w ∧ N w) p hp fun q hq => ?_).congr ?_
  · exact hother next N q (hR _ _ hp hq).2 fun q' hq' => hnext q' ⟨_, hq, hq'⟩
  · constructor
    · rintro ⟨m, hm, w, hw, hN⟩
      exact ⟨w, ⟨m, hm, hw⟩, hN⟩
    · rintro ⟨w, ⟨m, hm, hw⟩, hN⟩
      exact ⟨m, hm, w, hw, hN⟩

/-- Alternatives try what either relation leads to. -/
theorem Tries.orElse (hbody : Tries size referenced R body)
    (hother : Tries size referenced Q other) :
    Tries size referenced (fun v w => R v w ∨ Q v w)
      fun next p => (body next p).orElse (other next p) := by
  intro next N p hp hnext
  refine ((hbody next N p hp fun q hq => hnext q (.inl hq)).orElse
    (hother next N p hp fun q hq => hnext q (.inr hq))).congr ?_
  simp only [or_and_right, exists_or]

/-- More rounds before stopping or after it. -/
theorem Tries.prefer (hbody : Tries size referenced R body) (greedy : Bool) :
    Tries size referenced (fun v w => v = w ∨ R v w) fun next p =>
      if greedy then (body next p).orElse (next p) else (next p).orElse (body next p) := by
  cases greedy with
  | true => exact (hbody.orElse tries_self).congr fun _ _ => or_comm
  | false => exact tries_self.orElse hbody

/-- A required number of turns tries what that many steps of the relation lead to. -/
theorem tries_rounds (hbody : Tries size referenced R body) (hR : Leads size R) (n : Nat) :
    Tries size referenced (Turns R n) fun next => searchRounds body next n := by
  induction n with
  | zero => exact tries_self
  | succ n ih => exact hbody.comp hR ih

/-- A capped number of turns tries what any smaller number leads to.  Whether more or fewer are
tried first makes no difference to what is decided. -/
theorem tries_upTo (hbody : Tries size referenced R body) (hR : Leads size R) (greedy : Bool)
    (n : Nat) : Tries size referenced (fun v w => ∃ m ≤ n, Turns R m v w) fun next =>
      searchUpTo body greedy next n := by
  induction n with
  | zero =>
    refine tries_self.congr fun v w => ?_
    simp [Turns]
  | succ n ih =>
    refine ((hbody.comp hR ih).prefer greedy).congr fun v w => ?_
    constructor
    · rintro (hvw | ⟨k, hk, m, hm, hw⟩)
      · exact ⟨0, Nat.zero_le _, hvw⟩
      · exact ⟨m + 1, Nat.succ_le_succ hm, k, hk, hw⟩
    · rintro ⟨m, hm, hvw⟩
      cases m with
      | zero => exact .inl hvw
      | succ m =>
        obtain ⟨k, hk, hw⟩ := hvw
        exact .inr ⟨k, hk, m, Nat.le_of_succ_le_succ hm, hw⟩

/-- A round that does not move is refused; as each round moves on, no more of them follow each other
than there are characters left. -/
theorem decides_many (hbody : Tries size referenced R body) (hR : Leads size R) (greedy : Bool)
    {next : Cursor → Attempt} {N : View → Prop} (fuel : Nat) :
    ∀ p : Cursor, p.pos ≤ size → size - p.pos ≤ fuel →
      (∀ q : Cursor, Further R 0 none (p.view referenced) (q.view referenced) →
        (next q).Decides (N (q.view referenced))) →
        (searchMany body greedy next fuel p).Decides
          (∃ w, Further R 0 none (p.view referenced) w ∧ N w) := by
  -- The fuel bounds the characters that are left, and a turn that moves takes one.
  induction fuel with
  | zero =>
    intro p hp hfuel hnext
    refine (hnext p .refl).congr ⟨fun h => ⟨_, .refl, h⟩, ?_⟩
    rintro ⟨w, hw, hN⟩
    rcases hw.cases_head with rfl | ⟨m, ⟨hm, hne⟩, -⟩
    · exact hN
    · obtain ⟨hle, hle'⟩ := hR _ m hp hm
      change p.pos ≤ m.pos at hle
      change m.pos ≠ p.pos at hne
      omega
  | succ fuel ih =>
    intro p hp hfuel hnext
    -- Another turn is tried first or last, as the repetition is greedy or not.
    have hmore : (body (fun q => if q.pos = p.pos then Attempt.miss
        else searchMany body greedy next fuel q) p).Decides
          (∃ m, R (p.view referenced) m ∧ m.pos ≠ p.pos ∧ ∃ w, Further R 0 none m w ∧ N w) := by
      refine hbody _ (fun m => m.pos ≠ p.pos ∧ ∃ w, Further R 0 none m w ∧ N w) p hp
        fun q hq => ?_
      split_ifs with heq
      · exact Attempt.decides_miss fun h => h.1 heq
      · obtain ⟨hle, hle'⟩ := hR _ _ hp hq
        change p.pos ≤ q.pos at hle
        change q.pos ≤ size at hle'
        refine (ih q hle' (by omega) fun q' hq' => hnext q' (.head ⟨hq, heq⟩ hq')).congr ?_
        exact (and_iff_right heq).symm
    have hstop : (next p).Decides (N (p.view referenced)) := hnext p .refl
    have hiff : (∃ w, Further R 0 none (p.view referenced) w ∧ N w) ↔
        (∃ m, R (p.view referenced) m ∧ m.pos ≠ p.pos ∧ ∃ w, Further R 0 none m w ∧ N w) ∨
          N (p.view referenced) := by
      constructor
      · rintro ⟨w, hw, hN⟩
        rcases hw.cases_head with rfl | ⟨m, ⟨hm, hne⟩, hw⟩
        · exact .inr hN
        · exact .inl ⟨m, hm, hne, w, hw, hN⟩
      · rintro (⟨m, hm, hne, w, hw, hN⟩ | hN)
        · exact ⟨w, .head ⟨hm, hne⟩ hw, hN⟩
        · exact ⟨_, .refl, hN⟩
    rw [searchMany]
    cases greedy with
    | true => exact (hmore.orElse hstop).congr hiff.symm
    | false => exact (hstop.orElse hmore).congr (hiff.trans or_comm).symm

/-- An uncapped number of turns tries what the turns that move lead to. -/
theorem tries_many (hbody : Tries size referenced R body) (hR : Leads size R) (greedy : Bool) :
    Tries size referenced (Further R 0 none) fun next => searchMany body greedy next size :=
  fun _ _ p hp hnext => decides_many hbody hR greedy size p hp (Nat.sub_le _ _) hnext

/-! ### Look-arounds -/

section

variable {negated : Bool} {next : Cursor → Attempt} {N : View → Prop} {p : Cursor}

/-- A look-around whose body is decided.  Where the body ends nothing counts but that it does. -/
theorem decides_lookAt {end_ : Option Cursor} {P : Prop} (hend : end_.isSome = true ↔ P)
    (hview : ∀ q ∈ end_, (q.moveTo p.pos).view referenced = p.view referenced)
    (hnext : (P ↔ negated = false) → ∀ q : Cursor, q.view referenced = p.view referenced →
      (next q).Decides (N (p.view referenced))) :
    (lookAt end_ negated next p).Decides ((P ↔ negated = false) ∧ N (p.view referenced)) := by
  cases end_ with
  | some q =>
    have hP : P := hend.mp rfl
    cases negated with
    | true => exact Attempt.decides_miss (by simp [hP])
    | false => exact (hnext (by simp [hP]) (q.moveTo p.pos) (hview q rfl)).congr (by simp [hP])
  | none =>
    have hP : ¬P := fun h => nomatch hend.mpr h
    cases negated with
    | true => exact (hnext (by simp [hP]) p rfl).resume.congr (by simp [hP])
    | false => exact Attempt.decides_miss (by simp [hP])

/-- Looking from a position decides the look-around, and goes on with its captures if it is
affirmative. -/
theorem decides_lookInto (hbody : Tries size referenced R body) {i : Nat} (hi : i ≤ size)
    (hnext : ∀ q : Cursor,
      Looks R negated ((p.view referenced).moveTo i) (p.view referenced) (q.view referenced) →
        (next q).Decides (N (q.view referenced))) :
    (lookInto body negated next (p.moveTo i) p).Decides
      (∃ w, Looks R negated ((p.view referenced).moveTo i) (p.view referenced) w ∧ N w) := by
  cases negated with
  -- A negated look-around only asks whether the body misses: its captures are dropped.
  | true =>
    have hinside : (body Attempt.accept (p.moveTo i)).Decides
        (∃ m, R ((p.view referenced).moveTo i) m ∧ True) :=
      hbody Attempt.accept (fun _ => True) (p.moveTo i) hi fun q _ =>
        Attempt.decides_accept q trivial
    refine (hinside.ifMissed fun h => hnext p ⟨?_, rfl⟩).congr ?_
    · simpa only [and_true] using h
    · simp [Looks]
  | false =>
    refine (hbody (fun q => next (q.moveTo p.pos)) (fun m => N (m.moveTo p.pos)) (p.moveTo i) hi
      fun q hq => hnext (q.moveTo p.pos) ⟨_, hq, rfl⟩).congr ?_
    constructor
    · rintro ⟨m, hm, hN⟩
      exact ⟨_, ⟨m, hm, rfl⟩, hN⟩
    · rintro ⟨_, ⟨m, hm, rfl⟩, hN⟩
      exact ⟨m, hm, hN⟩

end

end Running

variable {subject : Subject}

/-- A body that is decided at once spans something from where it can start. -/
theorem canStart_iff {referenced : List Label} {r : Regex} (hplain : r.isPlain referenced = true)
    {i : Nat} (hi : i ≤ subject.size) : canStart subject r i = true ↔ ∃ j, Spans subject r i j := by
  have hcollects : Collects subject.size (Spans subject r) (reach subject r) :=
    collects_reach r hplain
  have hends := hcollects (.single i) fun k hk => by
    rw [Positions.contains_single, decide_eq_true_iff] at hk
    exact hk ▸ hi
  rw [canStart, Bool.not_eq_true', Bool.eq_false_iff, ne_eq, Positions.isEmpty_iff, not_forall]
  simp [hends]

/-- Something is preferred where there is a match at all. -/
theorem preferred_isSome_iff {referenced : List Label} {r : Regex}
    (hplain : r.isPlain referenced = true) {p : Cursor} (hp : p.pos ≤ subject.size) :
    (preferred subject r p).isSome = true ↔ ∃ j, Spans subject r p.pos j := by
  rw [← canStart_iff hplain hp, canStart, preferred]
  split
  · rename_i hempty
    simp [hempty]
  · rename_i hempty
    simp only [hempty]
    split <;> simp

/-- A plain expression refers to nothing, and holds no group that is referred to. -/
theorem plain_of_isPlain {referenced : List Label} {r : Regex} (h : r.isPlain referenced = true) :
    r.references = [] ∧ ∀ l ∈ r.labels, l ∉ referenced := by
  induction r with
  | seq a b iha ihb | alt a b iha ihb =>
    rw [isPlain, Bool.and_eq_true] at h
    obtain ⟨ha, hla⟩ := iha h.1
    obtain ⟨hb, hlb⟩ := ihb h.2
    exact ⟨List.append_eq_nil_iff.mpr ⟨ha, hb⟩, List.forall_mem_append.mpr ⟨hla, hlb⟩⟩
  | capture l r ih =>
    rw [isPlain, Bool.and_eq_true, Bool.not_eq_true', ← Bool.not_eq_true,
      List.contains_iff_mem] at h
    obtain ⟨hr, hlr⟩ := ih h.2
    exact ⟨hr, List.forall_mem_cons.mpr ⟨h.1, hlr⟩⟩
  | group r ih | loop r _ _ _ ih | embedded _ r ih => exact ih h
  | ahead | behind | backref | captured | atomic | conditional => cases h
  | empty | char | any | set | anchor | unreadable =>
    exact ⟨rfl, fun _ hl => absurd hl List.not_mem_nil⟩

/-- A plain expression only moves a cursor. -/
theorem lifts_of_isPlain {referenced : List Label} {r : Regex} (h : r.isPlain referenced = true) :
    Lifts (Spans subject r) (Ways subject referenced r) :=
  lifts_ways (plain_of_isPlain h).1 (plain_of_isPlain h).2

/-- What a plain body captures on its preferred way does not count. -/
theorem view_of_preferred {referenced : List Label} {r : Regex} (h : r.isPlain referenced = true)
    {p q : Cursor} {i : Nat} (hi : i ≤ subject.size)
    (hq : preferred subject r (p.moveTo i) = some q) :
    (q.moveTo p.pos).view referenced = p.view referenced := by
  -- What is preferred is where a walk ends, or a bare position where its captures are not wanted.
  rcases walk_of_preferred hq with hwalk | ⟨j, rfl⟩
  · have hview := (hwalk.extends hi).view_eq (plain_of_isPlain h).2
    show (q.view referenced).moveTo p.pos = p.view referenced
    rw [hview]
    rfl
  · rfl

/-- Each table belongs to a plain body and says from where it matches. -/
def Truthful (subject : Subject) (referenced : List Label) (settled : Settled) : Prop :=
  ∀ r holds, settled.lookup r = some holds → r.isPlain referenced = true ∧ ∀ i ≤ subject.size,
    (holds[i]?).any Thunk.get = true ↔ ∃ j, Spans subject r i j

/-- Only plain bodies have their matches tabulated. -/
theorem isPlain_of_mem_settledBodies {referenced : List Label} {r body : Regex}
    (h : body ∈ r.settledBodies referenced) : body.isPlain referenced = true := by
  have hlook {negated : Bool} {r : Regex}
      (ih : body ∈ r.settledBodies referenced → body.isPlain referenced = true)
      (h : body ∈ if r.isPlain referenced then if negated || r.labels.isEmpty then [r] else []
        else r.settledBodies referenced) : body.isPlain referenced = true := by
    split_ifs at h with hplain hkept
    · rw [List.mem_singleton.mp h]
      exact hplain
    · cases h
    · exact ih h
  induction r with
  | ahead negated r ih => exact hlook ih h
  | behind negated width r ih => exact hlook ih h
  | seq a b iha ihb => exact (List.mem_append.mp h).elim iha ihb
  | alt a b iha ihb => exact (List.mem_append.mp h).elim iha ihb
  | conditional c a b ihc iha ihb =>
    exact (List.mem_append.mp h).elim (fun h => (List.mem_append.mp h).elim ihc iha) ihb
  | capture l r ih => exact ih h
  | group r ih => exact ih h
  | loop r least most greedy ih => exact ih h
  | atomic r ih => exact ih h
  | embedded s r ih => exact ih h
  | empty | char | any | set | anchor | backref | captured | unreadable => cases h

/-- The tables that are set up say the truth. -/
theorem truthful_settle {referenced : List Label} {bodies : List Regex}
    (hplain : ∀ r ∈ bodies, r.isPlain referenced = true) :
    Truthful subject referenced (settle subject bodies) := by
  intro r holds hlookup
  -- A table that is looked up is one that has been set up.
  have hmem : (r, holds) ∈ settle subject bodies := by
    obtain ⟨before, after, heq, _⟩ := List.lookup_eq_some_iff.mp hlookup
    rw [heq]
    exact List.mem_append_right _ List.mem_cons_self
  obtain ⟨body, hbody, heq⟩ := List.mem_map.mp hmem
  obtain ⟨rfl, rfl⟩ := Prod.mk.inj heq
  have hbody := hplain body (List.mem_eraseDups.mp hbody)
  refine ⟨hbody, fun i hi => ?_⟩
  rw [← canStart_iff hbody hi, Array.getElem?_map, Array.getElem?_range,
    if_pos (Nat.lt_succ_of_le hi)]
  rfl

/-- A look-around is decided in each of the ways in which it may be searched: by its table, by what
is preferred, or by trying. -/
theorem decides_look {referenced : List Label} {settled : Settled}
    (hsettled : Truthful subject referenced settled) {r : Regex}
    {body : (Cursor → Attempt) → Cursor → Attempt}
    (hbody : Tries subject.size referenced (Ways subject referenced r) body) {negated : Bool}
    {next : Cursor → Attempt} {N : View → Prop} {p : Cursor} {i : Nat} (hi : i ≤ subject.size)
    (hnext : ∀ q : Cursor, Looks (Ways subject referenced r) negated
      ((p.view referenced).moveTo i) (p.view referenced) (q.view referenced) →
        (next q).Decides (N (q.view referenced))) :
    (look subject referenced settled r body negated next (p.moveTo i) p).Decides
      (∃ w, Looks (Ways subject referenced r) negated ((p.view referenced).moveTo i)
        (p.view referenced) w ∧ N w) := by
  -- A plain body that is decided at once.
  have hdecided (hplain : r.isPlain referenced = true) {end_ : Option Cursor}
      (hend : end_.isSome = true ↔ ∃ k, Spans subject r i k)
      (hview : ∀ q ∈ end_, (q.moveTo p.pos).view referenced = p.view referenced) :
      (lookAt end_ negated next p).Decides
        (∃ w, Looks (Ways subject referenced r) negated ((p.view referenced).moveTo i)
          (p.view referenced) w ∧ N w) := by
    simp only [(lifts_of_isPlain hplain).looks_iff] at hnext ⊢
    refine (decides_lookAt (N := N) hend hview fun h q hq => ?_).congr ?_
    · rw [← hq]
      exact hnext q ⟨h, hq.symm⟩
    · simp only [and_assoc, exists_and_left, exists_eq_left']
  rw [look]
  split
  · rename_i holds hlookup
    obtain ⟨hplain, hholds⟩ := hsettled r holds hlookup
    refine hdecided hplain ?_ ?_
    · rw [← hholds i hi]
      split <;> simp_all [Cursor.moveTo]
    · intro q hq
      split at hq
      · obtain rfl := Option.some.inj hq
        rfl
      · cases hq
  · split
    · rename_i hplain
      exact hdecided hplain (preferred_isSome_iff hplain hi) fun q hq =>
        view_of_preferred hplain hi hq
    · exact decides_lookInto hbody hi hnext

/-! ### Searching -/

/-- Stepping over a character tries the only place that it can lead to. -/
theorem tries_step (referenced : List Label) (test : Char → Bool) :
    Tries subject.size referenced
      (fun v w => ∃ j, stepOver subject test v.pos = some j ∧ w = v.moveTo j) fun next p =>
        Attempt.goOn next ((stepOver subject test p.pos).map p.moveTo) := by
  refine tries_goOn fun p w => ?_
  simp only [Option.mem_def, Option.map_eq_some_iff, exists_exists_and_eq_and]
  rfl

/-- A back-reference repeats, character by character, what its group has captured. -/
theorem stepBack_eq_some {l : Label} {p q : Cursor} : stepBack subject l p = some q ↔
    ∃ a b, p.capture? l = some (a, b) ∧ p.pos + (b - a) ≤ subject.size ∧
      slice subject p.pos (p.pos + (b - a)) = slice subject a b ∧ p.moveTo (p.pos + (b - a)) = q := by
  rw [stepBack]
  cases p.capture? l with
  | none => simp
  | some span =>
    obtain ⟨a, b⟩ := span
    simp [and_assoc]

/-- A back-reference tries the only place that it can lead to. -/
theorem tries_stepBack {referenced : List Label} {l : Label} (hl : l ∈ referenced) :
    Tries subject.size referenced (Ways subject referenced (.backref l)) fun next p =>
      Attempt.goOn next (stepBack subject l p) := by
  refine tries_goOn fun p w => ?_
  have hcaught : (p.view referenced).caught l = p.capture? l := if_pos hl
  simp only [Option.mem_def, stepBack_eq_some, Ways, hcaught]
  constructor
  · rintro ⟨a, b, hab, hle, hslice, rfl⟩
    exact ⟨_, ⟨a, b, hab, hle, hslice, rfl⟩, rfl⟩
  · rintro ⟨_, ⟨a, b, hab, hle, hslice, rfl⟩, rfl⟩
    exact ⟨a, b, hab, hle, hslice, rfl⟩

/-- A test for a capture goes on where the group has one. -/
theorem tries_captured {referenced : List Label} {l : Label} (hl : l ∈ referenced) :
    Tries subject.size referenced (Ways subject referenced (.captured l)) fun next p =>
      if (p.capture? l).isSome then next p else Attempt.miss := by
  intro next N p hp hnext
  have hcaught : (p.view referenced).caught l = p.capture? l := if_pos hl
  simp only [Ways, hcaught] at hnext ⊢
  split_ifs with htaken
  · refine (hnext p ⟨htaken, rfl⟩).congr ?_
    simp [htaken]
  · exact Attempt.decides_miss (by simp [htaken])

/-- A search tries all ways through the expression, if no part of it commits to one. -/
theorem tries_search {referenced : List Label} {settled : Settled}
    (hsettled : Truthful subject referenced settled) (r : Regex)
    (hreferences : r.references ⊆ referenced) (hcommits : r.commits = false) :
    Tries subject.size referenced (Ways subject referenced r)
      (search subject referenced settled r) := by
  induction r with
  | empty => exact tries_self
  | char c => exact tries_step referenced _
  | any => exact tries_step referenced _
  | set cls => exact tries_step referenced _
  | anchor a =>
    intro next N p hp hnext
    rw [search]
    split_ifs with hholds
    · refine (hnext p ⟨hholds, rfl⟩).congr ?_
      simp [Ways, Cursor.view, hholds]
    · exact Attempt.decides_miss (by simp [Ways, Cursor.view, hholds])
  | seq a b iha ihb =>
    rw [references, List.append_subset] at hreferences
    rw [commits, Bool.or_eq_false_iff] at hcommits
    exact (iha hreferences.1 hcommits.1).comp (leads_ways referenced a)
      (ihb hreferences.2 hcommits.2)
  | alt a b iha ihb =>
    rw [references, List.append_subset] at hreferences
    rw [commits, Bool.or_eq_false_iff] at hcommits
    exact (iha hreferences.1 hcommits.1).orElse (ihb hreferences.2 hcommits.2)
  | group r ih => exact ih hreferences hcommits
  | embedded _ r ih => exact ih hreferences hcommits
  -- The span is recorded when the body is through, so the rest is decided from the view with it.
  | capture l r ih =>
    intro next N p hp hnext
    refine (ih hreferences hcommits (fun q => next (q.record l p.pos))
      (fun m => N (m.record referenced l p.pos)) p hp fun q hq => ?_).congr ?_
    · rw [← view_record]
      exact hnext _ ⟨_, hq, view_record q l p.pos⟩
    · constructor
      · rintro ⟨m, hm, hN⟩
        exact ⟨_, ⟨m, hm, rfl⟩, hN⟩
      · rintro ⟨_, ⟨m, hm, rfl⟩, hN⟩
        exact ⟨m, hm, hN⟩
  | ahead negated r ih =>
    intro next N p hp hnext
    exact decides_look hsettled (ih hreferences hcommits) hp hnext
  | behind negated width r ih =>
    intro next N p hp hnext
    have hview : (p.view referenced).pos = p.pos := rfl
    simp only [Ways, hview] at hnext ⊢
    rw [search]
    -- Without room to look back, only a negated look-behind goes on.
    split_ifs at hnext ⊢ with hwidth hnegated
    · exact decides_look hsettled (ih hreferences hcommits) ((Nat.sub_le _ _).trans hp) hnext
    · refine (hnext p ⟨hnegated, rfl⟩).resume.congr ?_
      simp [hnegated]
    · exact Attempt.decides_miss (by simp [hnegated])
  | loop r least most greedy ih =>
    have hbody := ih hreferences hcommits
    have hR : Leads subject.size (Ways subject referenced r) := leads_ways referenced r
    have hleast := tries_rounds hbody hR least
    cases most with
    | some m => exact hleast.comp (hR.turns least) (tries_upTo hbody hR greedy (m - least))
    | none => exact hleast.comp (hR.turns least) (tries_many hbody hR greedy)
  | backref l => exact tries_stepBack (hreferences List.mem_cons_self)
  | captured l => exact tries_captured (hreferences List.mem_cons_self)
  -- These give ways up, so that what is found depends on the order.
  | atomic | conditional => cases hcommits
  | unreadable _ => exact fun _ _ _ _ _ => Attempt.decides_miss (by simp [Ways])

/-! ### Whole patterns -/

/-- The budget runs out before the search ends. -/
def Exhausts (r : Regex) (subject : Subject) (budget : Nat) : Prop :=
  r.isPlain [] = false ∧
    search subject r.references (settle subject (r.settledBodies r.references)) r Attempt.accept
      Cursor.start budget = .exhausted

/-- The engine gives the search up where its limit is this. -/
def GivesUp [Engine] (r : Regex) (subject : Subject) (limit : Nat) : Prop :=
  Exhausts r subject (Engine.allowance r subject limit)

/-- A pattern that commits to nothing has a cost on each subject: it is given up with a smaller
budget only, and otherwise finds a match if there is a way from the start. -/
theorem exists_cost_of_ways {r : Regex} (hcommits : r.commits = false) (subject : Subject) :
    ∃ cost, ∀ budget, (Exhausts r subject budget ↔ budget < cost) ∧
      ((find? r subject budget).isSome = true ↔
        cost ≤ budget ∧ ∃ w, Ways subject r.references r .start w) := by
  cases hplain : r.isPlain [] with
  -- A plain expression is searched without resumptions.
  | true =>
    have hlifts : Lifts (Spans subject r) (Ways subject r.references r) := by
      rw [(plain_of_isPlain hplain).1]
      exact lifts_of_isPlain hplain
    refine ⟨0, fun budget => ⟨?_, ?_⟩⟩
    · simp [Exhausts, hplain]
    · rw [find?, if_pos hplain, preferred_isSome_iff hplain (Nat.zero_le _), hlifts.exists_iff]
      simp [Cursor.start, View.start]
  | false =>
    have hsettled : Truthful subject r.references (settle subject (r.settledBodies r.references)) :=
      truthful_settle fun _ => isPlain_of_mem_settledBodies
    have htries := tries_search hsettled r (List.Subset.refl _) hcommits
    obtain ⟨cost, hless, henough⟩ := htries Attempt.accept (fun _ => True) Cursor.start
      (Nat.zero_le _) fun q _ => Attempt.decides_accept q trivial
    simp only [view_start, and_true] at henough
    refine ⟨cost, fun budget => ?_⟩
    rw [Exhausts, find?, if_neg (by simp [hplain])]
    rcases Nat.lt_or_ge budget cost with hlt | hge
    · simp [hplain, hless budget hlt, hlt, Nat.not_le.mpr hlt]
    · obtain ⟨left, rfl⟩ := Nat.exists_eq_add_of_le hge
      rcases henough with ⟨hways, q, hfound⟩ | ⟨hways, hmissed⟩
      · simp [hfound, hways]
      · simp [hmissed, hways]

/-- A pattern that commits to nothing and has no back-references has a cost on each subject: it is
given up with a smaller budget only, and otherwise finds a match if there is one at the start. -/
theorem exists_cost {r : Regex} (hcommits : r.commits = false) (hreferences : r.references = [])
    (subject : Subject) :
    ∃ cost, ∀ budget, (Exhausts r subject budget ↔ budget < cost) ∧
      ((find? r subject budget).isSome = true ↔ cost ≤ budget ∧ ∃ j, Spans subject r 0 j) := by
  have hlifts : Lifts (Spans subject r) (Ways subject r.references r) := by
    rw [hreferences]
    exact lifts_ways hreferences fun _ _ => List.not_mem_nil
  obtain ⟨cost, hcost⟩ := exists_cost_of_ways hcommits subject
  refine ⟨cost, fun budget => ?_⟩
  have hways : (∃ w, Ways subject r.references r .start w) ↔ ∃ j, Spans subject r 0 j :=
    hlifts.exists_iff .start
  rw [← hways]
  exact hcost budget

end Colloquy.Regex
