import Mathlib
import Colloquy.Proofs.Matching.Compiled
import Colloquy.Proofs.Regex.Ways

/-!
# Fragments that match alike

A fragment that is compiled behind others refers to its own groups by numbers further on, and a
reference to a group of the others cannot match, as that group takes no part.  `Twin n r r'` says
that the fragments `r` and `r'` differ in just this way, where `n` groups stand in front of `r`.

Twins have the same ways, up to the numbers of the groups (`Twin.mirrors`).  Each way of the one is
followed step by step on the other, while the views stay `Matched`.
-/

namespace Colloquy.Regex

open Relation (Comp ReflTransGen)

/-! ### Relations that follow each other -/

/-- What the first relation can do from one of two related views, the second one can do from the
other, and the views stay related. -/
def Simulates (S R Q : View → View → Prop) : Prop :=
  ∀ v v' w, S v v' → R v w → ∃ w', Q v' w' ∧ S w w'

/-- The two relations do the same from related views. -/
structure Mirrors (S R Q : View → View → Prop) : Prop where
  there : Simulates S R Q
  back : Simulates (flip S) Q R

/-- Related views are at one position, and stay related when both are moved. -/
structure Positional (S : View → View → Prop) : Prop where
  pos_eq : ∀ v v', S v v' → v.pos = v'.pos
  moveTo : ∀ v v' j, S v v' → S (v.moveTo j) (v'.moveTo j)

/-- Being positional works both ways. -/
theorem Positional.flip {S : View → View → Prop} (hS : Positional S) : Positional (flip S) :=
  ⟨fun _ _ h => (hS.pos_eq _ _ h).symm, fun _ _ j h => hS.moveTo _ _ j h⟩

section

variable {S R R' Q Q' : View → View → Prop}

/-- Staying simulates staying. -/
theorem simulates_eq : Simulates S Eq Eq := by
  rintro v v' _ hv rfl
  exact ⟨v', rfl, hv⟩

/-- Simulations go on one after the other. -/
theorem Simulates.comp (hR : Simulates S R R') (hQ : Simulates S Q Q') :
    Simulates S (Comp R Q) (Comp R' Q') := by
  rintro v v' w hv ⟨m, hm, hw⟩
  obtain ⟨m', hm', hmm⟩ := hR v v' m hv hm
  obtain ⟨w', hw', hww⟩ := hQ m m' w hmm hw
  exact ⟨w', ⟨m', hm', hw'⟩, hww⟩

/-- Simulations go on as alternatives. -/
theorem Simulates.or (hR : Simulates S R R') (hQ : Simulates S Q Q') :
    Simulates S (fun v w => R v w ∨ Q v w) fun v w => R' v w ∨ Q' v w := by
  rintro v v' w hv (h | h)
  · obtain ⟨w', hw', hww⟩ := hR v v' w hv h
    exact ⟨w', .inl hw', hww⟩
  · obtain ⟨w', hw', hww⟩ := hQ v v' w hv h
    exact ⟨w', .inr hw', hww⟩

/-- Simulations go on turn by turn. -/
theorem Simulates.turns (h : Simulates S R R') (n : Nat) :
    Simulates S (Turns R n) (Turns R' n) := by
  induction n with
  | zero => exact simulates_eq
  | succ n ih => exact h.comp ih

/-- The turns that may follow are simulated: views at one position move or stay together. -/
theorem Simulates.further (hS : Positional S) (h : Simulates S R R') (least : Nat)
    (most : Option Nat) : Simulates S (Further R least most) (Further R' least most) := by
  intro v v' w hv hw
  cases most with
  | some m =>
    obtain ⟨n, hn, hturns⟩ := hw
    obtain ⟨w', hw', hww⟩ := h.turns n v v' w hv hturns
    exact ⟨w', ⟨n, hn, hw'⟩, hww⟩
  | none =>
    induction hw with
    | refl => exact ⟨v', .refl, hv⟩
    | @tail m w _ hmw ih =>
      obtain ⟨m', hm', hmm⟩ := ih
      obtain ⟨w', hw', hww⟩ := h m m' w hmm hmw.1
      -- The second side moves when the first one does, as the views stay at one position.
      refine ⟨w', hm'.tail ⟨hw', ?_⟩, hww⟩
      rw [← hS.pos_eq _ _ hww, ← hS.pos_eq _ _ hmm]
      exact hmw.2

/-- A look-ahead needs both directions if it is negated. -/
theorem Simulates.ahead (hS : Positional S) (h : Mirrors S R R') (negated : Bool) :
    Simulates S (fun v w => Looks R negated v v w) fun v w => Looks R' negated v v w := by
  intro v v' w hv hw
  cases negated with
  | true =>
    -- What the second side could find, the first one would have found: this takes both directions.
    obtain ⟨hnone, rfl⟩ := hw
    refine ⟨v', ⟨?_, rfl⟩, hv⟩
    rintro ⟨m', hm'⟩
    obtain ⟨m, hm, -⟩ := h.back v' v m' hv hm'
    exact hnone ⟨m, hm⟩
  | false =>
    obtain ⟨m, hm, rfl⟩ := hw
    obtain ⟨m', hm', hmm⟩ := h.there v v' m hv hm
    refine ⟨m'.moveTo v'.pos, ⟨m', hm', rfl⟩, ?_⟩
    rw [hS.pos_eq v v' hv]
    exact hS.moveTo m m' _ hmm

/-- What only moves, moves on both sides. -/
theorem simulates_of_lifts (hS : Positional S) {P : Nat → Nat → Prop} (hR : Lifts P R)
    (hQ : Lifts P Q) : Simulates S R Q := by
  intro v v' w hv hw
  obtain ⟨j, hj, rfl⟩ := (hR v w).mp hw
  rw [hS.pos_eq v v' hv] at hj
  exact ⟨v'.moveTo j, (hQ v' _).mpr ⟨j, hj, rfl⟩, hS.moveTo v v' j hv⟩

namespace Mirrors

theorem flip (h : Mirrors S R Q) : Mirrors (flip S) Q R := ⟨h.back, h.there⟩

theorem comp (hR : Mirrors S R R') (hQ : Mirrors S Q Q') : Mirrors S (Comp R Q) (Comp R' Q') :=
  ⟨hR.there.comp hQ.there, hR.back.comp hQ.back⟩

theorem or (hR : Mirrors S R R') (hQ : Mirrors S Q Q') :
    Mirrors S (fun v w => R v w ∨ Q v w) fun v w => R' v w ∨ Q' v w :=
  ⟨hR.there.or hQ.there, hR.back.or hQ.back⟩

theorem repeated (hS : Positional S) (h : Mirrors S R R') (least : Nat) (most : Option Nat) :
    Mirrors S (Comp (Turns R least) (Further R least most))
      (Comp (Turns R' least) (Further R' least most)) :=
  ⟨(h.there.turns least).comp (h.there.further hS least most),
    (h.back.turns least).comp (h.back.further hS.flip least most)⟩

theorem ahead (hS : Positional S) (h : Mirrors S R R') (negated : Bool) :
    Mirrors S (fun v w => Looks R negated v v w) fun v w => Looks R' negated v v w :=
  ⟨.ahead hS h negated, .ahead hS.flip h.flip negated⟩

/-- Relations that only move by position do the same from views at one position. -/
theorem of_lifts (hS : Positional S) {P : Nat → Nat → Prop} (hR : Lifts P R) (hQ : Lifts P Q) :
    Mirrors S R Q :=
  ⟨simulates_of_lifts hS hR hQ, simulates_of_lifts hS.flip hQ hR⟩

end Mirrors

end

end Colloquy.Regex

namespace Colloquy.Matching

open Regex

/-! ### Twins -/

/-- The fragments differ only in that `n` groups stand in front of the first one: its groups are
numbered from `n` on, and where it refers to one of those in front, the second fragment cannot
match. -/
inductive Twin (n : Nat) : Regex → Regex → Prop
  | same {r : Regex} (h : Written .branch r) : Twin n r r
  | seq {a a' b b' : Regex} (ha : Twin n a a') (hb : Twin n b b') : Twin n (.seq a b) (.seq a' b')
  | alt {a a' b b' : Regex} (ha : Twin n a a') (hb : Twin n b b') : Twin n (.alt a b) (.alt a' b')
  | group {r r' : Regex} (h : Twin n r r') : Twin n (.group r) (.group r')
  | capture {r r' : Regex} (i : Nat) (h : Twin n r r') :
    Twin n (.capture (.assigned (i + n)) r) (.capture (.assigned i) r')
  | ahead {r r' : Regex} (negated : Bool) (h : Twin n r r') :
    Twin n (.ahead negated r) (.ahead negated r')
  | loop {r r' : Regex} (least : Nat) (most : Option Nat) (greedy : Bool) (h : Twin n r r') :
    Twin n (.loop r least most greedy) (.loop r' least most greedy)
  | live (i : Nat) : Twin n (.backref (.assigned (i + n))) (.backref (.assigned i))
  | dead {j : Nat} (h : j < n) : Twin n (.backref (.assigned j)) unmatchable

variable {n : Nat} {r r' : Regex}

/-- Neither twin holds groups of raw patterns. -/
theorem Twin.shiftOwn_eq_self (h : Twin n r r') (k : Nat) :
    r.shiftOwn k = r ∧ r'.shiftOwn k = r' := by
  induction h with
  | same h => exact ⟨h.shiftOwn_eq_self k, h.shiftOwn_eq_self k⟩
  | seq _ _ iha ihb | alt _ _ iha ihb =>
    simp only [shiftOwn, iha.1, ihb.1, iha.2, ihb.2, and_self]
  | group _ ih | ahead _ _ ih | loop _ _ _ _ ih => simp only [shiftOwn, ih.1, ih.2, and_self]
  | capture i _ ih => simp only [shiftOwn, Label.shift, ih.1, ih.2, and_self]
  | live | dead => exact ⟨rfl, rfl⟩

/-- A twin refers to nothing but what the first fragment refers to, with the numbers moved on. -/
theorem Twin.mem_references (h : Twin n r r') {i : Nat} (hi : .assigned i ∈ r'.references) :
    .assigned (i + n) ∈ r.references := by
  induction h with
  | same h =>
    rw [h.references_eq_nil] at hi
    cases hi
  | seq _ _ iha ihb | alt _ _ iha ihb =>
    exact List.mem_append.mpr ((List.mem_append.mp hi).imp iha ihb)
  | group _ ih | ahead _ _ ih | loop _ _ _ _ ih | capture _ _ ih => exact ih hi
  | live k =>
    obtain rfl : i = k := Label.assigned.inj (List.mem_singleton.mp hi)
    exact List.mem_cons_self
  | dead => cases hi

/-! ### Matched views -/

/-- The views are at one position; the groups that the second twin refers to have caught the same,
and those in front of the first twin have caught nothing. -/
structure Matched (n : Nat) (referenced : List Label) (v v' : View) : Prop where
  pos_eq : v.pos = v'.pos
  live : ∀ i, .assigned i ∈ referenced → v.caught (.assigned (i + n)) = v'.caught (.assigned i)
  dead : ∀ j < n, v.caught (.assigned j) = none

/-- At the start, nothing has been caught on either side. -/
theorem matched_start (n : Nat) (referenced : List Label) : Matched n referenced .start .start :=
  ⟨rfl, fun _ _ => rfl, fun _ _ => rfl⟩

/-- Matched views are at one position, and stay matched when they are moved. -/
theorem positional_matched (n : Nat) (referenced : List Label) :
    Positional (Matched n referenced) :=
  ⟨fun _ _ h => h.pos_eq, fun _ _ _ h => ⟨rfl, h.live, h.dead⟩⟩

variable {referenced referenced' : List Label} {v v' : View}

/-- A capture is recorded on both sides, if it counts on the second one. -/
theorem Matched.record (h : Matched n referenced' v v')
    (hreferenced : ∀ i, .assigned i ∈ referenced' → .assigned (i + n) ∈ referenced)
    (i first : Nat) : Matched n referenced' (v.record referenced (.assigned (i + n)) first)
      (v'.record referenced' (.assigned i) first) := by
  refine ⟨by rw [View.record_pos, View.record_pos, h.pos_eq], fun k hk => ?_, fun j hj => ?_⟩
  · -- The group itself, and the others.
    rcases eq_or_ne k i with rfl | hne
    · rw [View.record_caught_self (hreferenced k hk), View.record_caught_self hk, h.pos_eq]
    · rw [View.record_caught_of_ne (by simpa using hne),
        View.record_caught_of_ne (by simpa using hne)]
      exact h.live k hk
  · rw [View.record_caught_of_ne (by simp; omega)]
    exact h.dead j hj

/-! ### Ways of twins -/

/-- A group and its twin do the same, if their bodies do. -/
theorem mirrors_capture {s : Subject} (hbody : Mirrors (Matched n referenced')
      (Ways s referenced r) (Ways s referenced' r'))
    (hreferenced : ∀ i, .assigned i ∈ referenced' → .assigned (i + n) ∈ referenced) (i : Nat) :
    Mirrors (Matched n referenced') (Ways s referenced (.capture (.assigned (i + n)) r))
      (Ways s referenced' (.capture (.assigned i) r')) := by
  constructor
  · rintro v v' _ hv ⟨m, hm, rfl⟩
    obtain ⟨m', hm', hmm⟩ := hbody.there v v' m hv hm
    refine ⟨_, ⟨m', hm', rfl⟩, ?_⟩
    rw [hv.pos_eq]
    exact hmm.record hreferenced i _
  · rintro v' v _ hv ⟨m', hm', rfl⟩
    obtain ⟨m, hm, hmm⟩ := hbody.back v' v m' hv hm'
    refine ⟨_, ⟨m, hm, rfl⟩, ?_⟩
    rw [← Matched.pos_eq hv]
    exact Matched.record hmm hreferenced i _

/-- A reference to a group and to its twin repeat the same text. -/
theorem mirrors_live {s : Subject} {i : Nat} (hi : .assigned i ∈ referenced') :
    Mirrors (Matched n referenced') (Ways s referenced (.backref (.assigned (i + n))))
      (Ways s referenced' (.backref (.assigned i))) := by
  constructor
  · rintro v v' _ hv ⟨a, b, hcaught, hle, hslice, rfl⟩
    rw [hv.pos_eq] at hle hslice ⊢
    rw [hv.live i hi] at hcaught
    exact ⟨_, ⟨a, b, hcaught, hle, hslice, rfl⟩, (positional_matched n _).moveTo _ _ _ hv⟩
  · rintro v' v _ hv ⟨a, b, hcaught, hle, hslice, rfl⟩
    rw [← Matched.pos_eq hv] at hle hslice ⊢
    rw [← Matched.live hv i hi] at hcaught
    exact ⟨_, ⟨a, b, hcaught, hle, hslice, rfl⟩, (positional_matched n _).moveTo _ _ _ hv⟩

/-- A reference to a group that stands in front and has caught nothing never matches. -/
theorem mirrors_dead {s : Subject} {j : Nat} (hj : j < n) :
    Mirrors (Matched n referenced') (Ways s referenced (.backref (.assigned j)))
      (Ways s referenced' unmatchable) := by
  constructor
  · rintro v v' _ hv ⟨a, b, hcaught, -⟩
    rw [hv.dead j hj] at hcaught
    cases hcaught
  · intro v' v w' _ hw'
    have hlifts : Lifts (Spans s unmatchable) (Ways s referenced' unmatchable) :=
      lifts_ways written_unmatchable.references_eq_nil fun _ hl => nomatch hl
    obtain ⟨_, hspans, -⟩ := (hlifts v' w').mp hw'
    exact absurd hspans not_spans_unmatchable

/-- Twins have the same ways. -/
theorem Twin.mirrors {s : Subject} (h : Twin n r r') (hsub : r'.references ⊆ referenced')
    (hreferenced : ∀ i, .assigned i ∈ referenced' → .assigned (i + n) ∈ referenced) :
    Mirrors (Matched n referenced') (Ways s referenced r) (Ways s referenced' r') := by
  have hpos := positional_matched n referenced'
  induction h with
  | @same r h =>
    -- What can be written out captures nothing, so only the position counts.
    have hlifts (referenced : List Label) : Lifts (Spans s r) (Ways s referenced r) := by
      refine lifts_ways h.references_eq_nil ?_
      rw [h.labels_eq_nil]
      exact nofun
    exact .of_lifts hpos (hlifts _) (hlifts _)
  | seq _ _ iha ihb =>
    rw [references, List.append_subset] at hsub
    exact (iha hsub.1).comp (ihb hsub.2)
  | alt _ _ iha ihb =>
    rw [references, List.append_subset] at hsub
    exact (iha hsub.1).or (ihb hsub.2)
  | group _ ih => exact ih hsub
  | capture i _ ih => exact mirrors_capture (ih hsub) hreferenced i
  | ahead negated _ ih => exact (ih hsub).ahead hpos negated
  | loop least most greedy _ ih => exact (ih hsub).repeated hpos least most
  | live i => exact mirrors_live (hsub List.mem_cons_self)
  | dead hj => exact mirrors_dead hj

end Colloquy.Matching
