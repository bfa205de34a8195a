import Mathlib
import Colloquy.Proofs.Regex.Spans
import Colloquy.Proofs.Regex.Walks

/-!
# What an expression with back-references matches

With back-references it matters where a match has captured what.  `Ways subject referenced r v w`
says that a match of `r` leads from `v` to `w`, where a `View` is a position together with the
latest spans of the groups that are referred to.  What the other groups capture is left out, so that
the relation holds exactly of what a search can do, whichever way it takes.  What is atomic and what
stands under a condition depends on which way is preferred; of an expression that holds such a part
nothing is said.

Where nothing is referred to, the ways are the spans (`lifts_ways`).
-/

namespace Colloquy.Regex

open Relation (Comp ReflTransGen)

/-! ### Views -/

/-- A position, and the latest spans of the groups that are referred to. -/
@[ext] structure View where
  pos : Nat
  caught : Label → Option (Nat × Nat)

namespace View

/-- The beginning of a subject. -/
def start : View := ⟨0, fun _ => none⟩

/-- The same spans, elsewhere. -/
def moveTo (v : View) (pos : Nat) : View := { v with pos }

/-- The group has captured from `first` up to here, which counts if it is referred to. -/
def record (referenced : List Label) (v : View) (label : Label) (first : Nat) : View :=
  if label ∈ referenced then
    { v with caught := Function.update v.caught label (some (first, v.pos)) }
  else v

variable {referenced : List Label} {v : View} {l : Label} {first : Nat}

/-- Recording a span moves nothing. -/
theorem record_pos : (v.record referenced l first).pos = v.pos := by
  rw [record]
  split_ifs <;> rfl

/-- A group that is not referred to leaves no trace in a view. -/
theorem record_of_notMem (h : l ∉ referenced) : v.record referenced l first = v := if_neg h

/-- A group that is referred to has its latest span recorded. -/
theorem record_caught_self (h : l ∈ referenced) :
    (v.record referenced l first).caught l = some (first, v.pos) := by
  rw [record, if_pos h]
  exact Function.update_self _ _ _

/-- The other groups keep theirs. -/
theorem record_caught_of_ne {l' : Label} (h : l' ≠ l) :
    (v.record referenced l first).caught l' = v.caught l' := by
  rw [record]
  split_ifs
  · exact Function.update_of_ne h _ _
  · rfl

end View

/-- What counts of a cursor. -/
def Cursor.view (referenced : List Label) (p : Cursor) : View :=
  ⟨p.pos, fun l => if l ∈ referenced then p.capture? l else none⟩

section

variable {referenced : List Label}

/-- A search starts with nothing captured. -/
theorem view_start : Cursor.start.view referenced = .start := by
  refine View.ext rfl (funext fun l => ?_)
  exact ite_self none

/-- Recording in a cursor is recording in its view. -/
theorem view_record (p : Cursor) (l : Label) (first : Nat) :
    (p.record l first).view referenced = (p.view referenced).record referenced l first := by
  have hself : (p.record l first).capture? l = some (first, p.pos) := by
    rw [Cursor.capture?, Cursor.record, List.lookup_cons_self]
  have hother {l' : Label} (hne : l' ≠ l) : (p.record l first).capture? l' = p.capture? l' := by
    rw [Cursor.capture?, Cursor.record, List.lookup_cons, beq_eq_false_iff_ne.mpr hne]
    rfl
  refine View.ext (View.record_pos (v := p.view referenced)).symm (funext fun l' => ?_)
  show (if l' ∈ referenced then (p.record l first).capture? l' else none) = _
  -- Only the entry of the label itself can differ, and only if it is referred to.
  rcases eq_or_ne l' l with rfl | hne
  · by_cases hl : l' ∈ referenced
    · rw [View.record_caught_self hl, if_pos hl, hself]
      rfl
    · rw [View.record_of_notMem hl, if_neg hl]
      exact (if_neg hl).symm
  · rw [View.record_caught_of_ne hne, hother hne]
    rfl

/-- The groups of a walk that are not referred to do not count. -/
theorem Extends.view_eq {subject : Subject} {labels looked : List Label} {p q : Cursor}
    (h : Extends subject labels looked p q) (hlabels : ∀ l ∈ labels, l ∉ referenced) :
    q.view referenced = (p.view referenced).moveTo q.pos := by
  obtain ⟨new, hnew, hall⟩ := h.captures
  refine View.ext rfl (funext fun l => ?_)
  show (if l ∈ referenced then q.capture? l else none) =
    if l ∈ referenced then p.capture? l else none
  split_ifs with hl
  · -- The new captures are all of labels that are not referred to, so a lookup falls through to the
    -- old ones.
    have hnone : new.lookup l = none := by
      rw [List.lookup_eq_none_iff]
      intro e he
      rw [bne_iff_ne]
      rintro rfl
      exact hlabels _ (hall e he).1 hl
    rw [Cursor.capture?, hnew, List.lookup_append, hnone]
    rfl
  · rfl

end

/-! ### Ways -/

/-- Exactly `n` turns of a relation. -/
def Turns (R : View → View → Prop) : Nat → View → View → Prop
  | 0 => Eq
  | n + 1 => Comp R (Turns R n)

/-- What may follow the turns that a repetition must make; an unbounded one goes on only by turns
that move. -/
def Further (R : View → View → Prop) (least : Nat) : Option Nat → View → View → Prop
  | some m => fun v w => ∃ n ≤ m - least, Turns R n v w
  | none => ReflTransGen fun v w => R v w ∧ w.pos ≠ v.pos

/-- A look-around whose body would start at `from_` leads from `v` to `w`. -/
def Looks (R : View → View → Prop) (negated : Bool) (from_ v w : View) : Prop :=
  if negated then (¬∃ m, R from_ m) ∧ v = w else ∃ m, R from_ m ∧ w = m.moveTo v.pos

/-- A match of the expression leads from the one view to the other. -/
def Ways (subject : Subject) (referenced : List Label) : Regex → View → View → Prop
  | empty => Eq
  | char c => fun v w => ∃ j, stepOver subject (Text.sameFold c) v.pos = some j ∧ w = v.moveTo j
  | any => fun v w => ∃ j, stepOver subject (fun _ => true) v.pos = some j ∧ w = v.moveTo j
  | set cls => fun v w => ∃ j, stepOver subject cls.contains v.pos = some j ∧ w = v.moveTo j
  | anchor a => fun v w => a.holds subject v.pos = true ∧ v = w
  | seq a b => Comp (Ways subject referenced a) (Ways subject referenced b)
  | alt a b => fun v w => Ways subject referenced a v w ∨ Ways subject referenced b v w
  | group r | embedded _ r => Ways subject referenced r
  | capture l r => fun v w => ∃ m, Ways subject referenced r v m ∧ w = m.record referenced l v.pos
  | ahead negated r => fun v w => Looks (Ways subject referenced r) negated v v w
  | behind negated width r => fun v w =>
    if width ≤ v.pos then
      Looks (Ways subject referenced r) negated (v.moveTo (v.pos - width)) v w
    else negated = true ∧ v = w
  | backref l => fun v w => ∃ a b, v.caught l = some (a, b) ∧ v.pos + (b - a) ≤ subject.size ∧
      slice subject v.pos (v.pos + (b - a)) = slice subject a b ∧ w = v.moveTo (v.pos + (b - a))
  | captured l => fun v w => (v.caught l).isSome = true ∧ v = w
  | loop r least most _ =>
    Comp (Turns (Ways subject referenced r) least) (Further (Ways subject referenced r) least most)
  | atomic _ | conditional .. | unreadable _ => fun _ _ => False

/-! ### Ways lead forwards -/

/-- The relation leads forwards, and not beyond `size`. -/
def Leads (size : Nat) (R : View → View → Prop) : Prop :=
  ∀ v w, v.pos ≤ size → R v w → v.pos ≤ w.pos ∧ w.pos ≤ size

section

variable {size : Nat} {R Q : View → View → Prop}

/-- Staying leads forwards. -/
theorem leads_eq : Leads size Eq := by
  rintro v w hv rfl
  exact ⟨le_rfl, hv⟩

/-- One after the other, two relations that lead forwards do. -/
theorem Leads.comp (hR : Leads size R) (hQ : Leads size Q) : Leads size (Comp R Q) := by
  rintro v w hv ⟨m, hm, hw⟩
  obtain ⟨hle, hm⟩ := hR v m hv hm
  obtain ⟨hle', hw⟩ := hQ m w hm hw
  exact ⟨hle.trans hle', hw⟩

/-- So do the turns of one. -/
theorem Leads.turns (h : Leads size R) (n : Nat) : Leads size (Turns R n) := by
  induction n with
  | zero => exact leads_eq
  | succ n ih => exact h.comp ih

/-- So do the turns that may follow. -/
theorem Leads.further (h : Leads size R) (least : Nat) (most : Option Nat) :
    Leads size (Further R least most) := by
  cases most with
  | some m =>
    rintro v w hv ⟨n, -, hturns⟩
    exact h.turns n v w hv hturns
  | none =>
    intro v w hv hw
    induction hw with
    | refl => exact ⟨le_rfl, hv⟩
    | tail _ hm ih =>
      obtain ⟨hle, hm⟩ := h _ _ ih.2 hm.1
      exact ⟨ih.1.trans hle, hm⟩

/-- A look-around stays where it is, wherever its body leads. -/
theorem Leads.looks {negated : Bool} {from_ v w : View} (hv : v.pos ≤ size)
    (h : Looks R negated from_ v w) : v.pos ≤ w.pos ∧ w.pos ≤ size := by
  unfold Looks at h
  split_ifs at h
  · rw [← h.2]
    exact ⟨le_rfl, hv⟩
  · obtain ⟨m, -, rfl⟩ := h
    exact ⟨le_rfl, hv⟩

end

/-- No match ends before it begins, or behind the subject. -/
theorem leads_ways {subject : Subject} (referenced : List Label) (r : Regex) :
    Leads subject.size (Ways subject referenced r) := by
  have hstep (test : Char → Bool) : Leads subject.size
      fun v w => ∃ j, stepOver subject test v.pos = some j ∧ w = v.moveTo j := by
    rintro v w hv ⟨j, hj, rfl⟩
    exact advances_stepOver test v.pos j hv hj
  induction r with
  | empty => exact leads_eq
  | char | any | set => exact hstep _
  | anchor | captured =>
    rintro v w hv ⟨-, rfl⟩
    exact ⟨le_rfl, hv⟩
  | seq a b iha ihb => exact iha.comp ihb
  | alt a b iha ihb =>
    rintro v w hv (h | h)
    · exact iha v w hv h
    · exact ihb v w hv h
  | group r ih | embedded _ r ih => exact ih
  | capture l r ih =>
    rintro v w hv ⟨m, hm, rfl⟩
    rw [View.record_pos]
    exact ih v m hv hm
  | ahead negated r => exact fun v w hv h => Leads.looks hv h
  -- Whether or not there is room to look back, the position stays.
  | behind negated width r =>
    intro v w hv h
    unfold Ways at h
    split_ifs at h
    · exact Leads.looks hv h
    · rw [← h.2]
      exact ⟨le_rfl, hv⟩
  | backref l =>
    rintro v w hv ⟨a, b, -, hle, -, rfl⟩
    exact ⟨Nat.le_add_right _ _, hle⟩
  | loop r least most greedy ih => exact (ih.turns least).comp (ih.further least most)
  | atomic | conditional | unreadable => exact fun _ _ _ h => h.elim

/-! ### Ways without references -/

/-- Only the position changes, as the relation on positions says. -/
def Lifts (R : Nat → Nat → Prop) (W : View → View → Prop) : Prop :=
  ∀ v w, W v w ↔ ∃ j, R v.pos j ∧ w = v.moveTo j

section

variable {R Q : Nat → Nat → Prop} {W X : View → View → Prop}

/-- Staying in place, as a relation on positions. -/
theorem stays_iff {P : Prop} {v w : View} :
    P ∧ v = w ↔ ∃ j, (P ∧ v.pos = j) ∧ w = v.moveTo j := by
  constructor
  · rintro ⟨h, rfl⟩
    exact ⟨v.pos, ⟨h, rfl⟩, rfl⟩
  · rintro ⟨_, ⟨h, rfl⟩, rfl⟩
    exact ⟨h, rfl⟩

/-- Staying lifts to staying. -/
theorem lifts_eq : Lifts Eq Eq := by
  intro v w
  constructor
  · rintro rfl
    exact ⟨v.pos, rfl, rfl⟩
  · rintro ⟨_, rfl, rfl⟩
    rfl

/-- A relation that lifts leads somewhere from a view as it does from its position. -/
theorem Lifts.exists_iff (h : Lifts R W) (v : View) : (∃ w, W v w) ↔ ∃ j, R v.pos j := by
  constructor
  · rintro ⟨w, hw⟩
    obtain ⟨j, hj, -⟩ := (h v w).mp hw
    exact ⟨j, hj⟩
  · rintro ⟨j, hj⟩
    exact ⟨v.moveTo j, (h v _).mpr ⟨j, hj, rfl⟩⟩

/-- Relations that lift do so one after the other. -/
theorem Lifts.comp (hR : Lifts R W) (hQ : Lifts Q X) : Lifts (Comp R Q) (Comp W X) := by
  intro v w
  constructor
  · rintro ⟨m, hm, hw⟩
    obtain ⟨i, hi, rfl⟩ := (hR v m).mp hm
    obtain ⟨j, hj, rfl⟩ := (hQ _ w).mp hw
    exact ⟨j, ⟨i, hi, hj⟩, rfl⟩
  · rintro ⟨j, ⟨i, hi, hj⟩, rfl⟩
    exact ⟨v.moveTo i, (hR v _).mpr ⟨i, hi, rfl⟩, (hQ _ _).mpr ⟨j, hj, rfl⟩⟩

/-- Relations that lift do so as alternatives. -/
theorem Lifts.or (hR : Lifts R W) (hQ : Lifts Q X) :
    Lifts (fun i j => R i j ∨ Q i j) fun v w => W v w ∨ X v w := by
  intro v w
  simp only [hR v w, hQ v w, or_and_right, exists_or]

/-- Relations that lift do so turn by turn. -/
theorem Lifts.turns (h : Lifts R W) (n : Nat) : Lifts (Rounds R n) (Turns W n) := by
  induction n with
  | zero => exact lifts_eq
  | succ n ih => exact h.comp ih

/-- Turns that do not move can be left out. -/
theorem Lifts.further (h : Lifts R W) (least : Nat) (most : Option Nat) :
    Lifts (fun i j => ∃ n, (∀ m ∈ most, n ≤ m - least) ∧ Rounds R n i j)
      (Further W least most) := by
  intro v w
  cases most with
  | some m =>
    simp only [Option.mem_def, Option.some.injEq, forall_eq']
    constructor
    · rintro ⟨n, hn, hturns⟩
      obtain ⟨j, hj, rfl⟩ := (h.turns n v w).mp hturns
      exact ⟨j, ⟨n, hn, hj⟩, rfl⟩
    · rintro ⟨j, ⟨n, hn, hj⟩, rfl⟩
      exact ⟨n, hn, (h.turns n v _).mpr ⟨j, hj, rfl⟩⟩
  | none =>
    simp only [Option.mem_def, reduceCtorEq, false_implies, implies_true, true_and,
      exists_rounds_iff]
    constructor
    · intro hw
      induction hw with
      | refl => exact ⟨v.pos, .refl, rfl⟩
      | tail _ hm ih =>
        obtain ⟨i, hi, rfl⟩ := ih
        obtain ⟨j, hj, rfl⟩ := (h _ _).mp hm.1
        exact ⟨j, hi.tail hj, rfl⟩
    · rintro ⟨j, hj, rfl⟩
      induction hj with
      | refl => exact .refl
      | @tail i j _ hij ih =>
        -- A turn that stays where it is adds nothing to the closure of those that move.
        rcases eq_or_ne j i with rfl | hne
        · exact ih
        · exact ih.tail ⟨(h (v.moveTo i) _).mpr ⟨j, hij, rfl⟩, hne⟩

/-- A look-around over a body that captures nothing of interest only asks whether the body
matches. -/
theorem Lifts.looks_iff (h : Lifts R W) {negated : Bool} {i : Nat} {v w : View} :
    Looks W negated (v.moveTo i) v w ↔ ((∃ k, R i k) ↔ negated = false) ∧ v = w := by
  have hbody : (∃ m, W (v.moveTo i) m) ↔ ∃ k, R i k := h.exists_iff _
  cases negated with
  | true => simp [Looks, hbody]
  | false =>
    have hlooks : Looks W false (v.moveTo i) v w ↔ (∃ m, W (v.moveTo i) m) ∧ v = w := by
      constructor
      · rintro ⟨m, hm, rfl⟩
        obtain ⟨j, -, rfl⟩ := (h _ m).mp hm
        exact ⟨⟨_, hm⟩, rfl⟩
      · rintro ⟨⟨m, hm⟩, rfl⟩
        obtain ⟨j, -, rfl⟩ := (h _ m).mp hm
        exact ⟨_, hm, rfl⟩
    simp [hlooks, hbody]

end

/-- Without references the ways are the spans. -/
theorem lifts_ways {subject : Subject} {referenced : List Label} {r : Regex}
    (hreferences : r.references = []) (hlabels : ∀ l ∈ r.labels, l ∉ referenced) :
    Lifts (Spans subject r) (Ways subject referenced r) := by
  have hlook {r : Regex} (ih : Lifts (Spans subject r) (Ways subject referenced r))
      (negated : Bool) (i : Nat) (v w : View) :
      Looks (Ways subject referenced r) negated (v.moveTo i) v w ↔
        ∃ j, (((∃ k, Spans subject r i k) ↔ negated = false) ∧ v.pos = j) ∧ w = v.moveTo j := by
    rw [ih.looks_iff]
    exact stays_iff
  induction r with
  | empty => exact lifts_eq
  | char | any | set => exact fun _ _ => Iff.rfl
  | anchor a => exact fun _ _ => stays_iff
  | seq a b iha ihb =>
    rw [references, List.append_eq_nil_iff] at hreferences
    rw [labels, List.forall_mem_append] at hlabels
    exact (iha hreferences.1 hlabels.1).comp (ihb hreferences.2 hlabels.2)
  | alt a b iha ihb =>
    rw [references, List.append_eq_nil_iff] at hreferences
    rw [labels, List.forall_mem_append] at hlabels
    exact (iha hreferences.1 hlabels.1).or (ihb hreferences.2 hlabels.2)
  | group r ih | embedded _ r ih => exact ih hreferences hlabels
  -- The label is not referred to, so recording it changes nothing.
  | capture l r ih =>
    rw [labels, List.forall_mem_cons] at hlabels
    intro v w
    rw [show Spans subject (capture l r) = Spans subject r from rfl,
      ← ih hreferences hlabels.2 v w]
    constructor
    · rintro ⟨m, hm, rfl⟩
      rwa [View.record_of_notMem hlabels.1]
    · exact fun hw => ⟨w, hw, (View.record_of_notMem hlabels.1).symm⟩
  | ahead negated r ih =>
    intro v w
    exact hlook (ih hreferences hlabels) negated v.pos v w
  | behind negated width r ih =>
    intro v w
    unfold Ways
    split_ifs with hwidth
    · rw [hlook (ih hreferences hlabels)]
      simp only [Spans, hwidth, true_and]
    · -- There is no room to look back.
      have hspans (j : Nat) : Spans subject (behind negated width r) v.pos j ↔
          negated = true ∧ v.pos = j := by
        simp only [Spans, hwidth, false_and, false_iff, Bool.not_eq_false]
      simp only [hspans]
      exact stays_iff
  | backref | captured => cases hreferences
  | loop r least most greedy ih =>
    have hbody := ih hreferences hlabels
    intro v w
    have hspans : Spans subject (loop r least most greedy) = Comp (Rounds (Spans subject r) least)
        fun i j => ∃ n, (∀ m ∈ most, n ≤ m - least) ∧ Rounds (Spans subject r) n i j := by
      funext i j
      exact propext spans_loop
    rw [hspans]
    exact (hbody.turns least).comp (hbody.further least most) v w
  | atomic | conditional | unreadable =>
    intro v w
    constructor
    · exact False.elim
    · rintro ⟨_, h, -⟩
      exact h.elim

end Colloquy.Regex
