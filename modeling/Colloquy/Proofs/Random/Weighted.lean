import Mathlib
import Colloquy.Proofs.Random.Sums

/-!
# Weighted choices

A weight is live if it is positive and finite.  The ladder that `climb` goes up has a rung for each
live weight and none for the others, so whatever it answers has a live weight, or is what it would
have answered without a rung (`climbBy_cases`).  Nothing is asked of the rungs: rounding may put
them anywhere, and the draw may fall anywhere.  It remains to see which sums of weights send a
choice to the ladder: a live weight makes the sum positive (`total_pos`), and otherwise the sum is
zero (`total_eq_zero`).
-/

namespace Colloquy.Selection

variable {α : Type}

/-! ### Live weights -/

/-- A weight that counts. -/
def Live (w : Float) : Prop :=
  w.isFinite = true ∧ 0.0 < w

instance (w : Float) : Decidable (Live w) :=
  inferInstanceAs (Decidable (_ ∧ _))

theorem effective_of_live {w : Float} (h : Live w) : effective w = w := by
  have hpos : w > 0.0 := h.2
  simp [effective, h.1, hpos]

theorem effective_of_not_live {w : Float} (h : ¬ Live w) : effective w = 0.0 := by
  have hcond : ¬ (w.isFinite && decide (w > 0.0)) = true := fun hc =>
    h ⟨(Bool.and_eq_true_iff.mp hc).1, of_decide_eq_true (Bool.and_eq_true_iff.mp hc).2⟩
  exact if_neg hcond

/-- The weights without a rung are those that are not live. -/
theorem effective_beq_zero_iff {w : Float} : (effective w == 0.0) = true ↔ ¬ Live w := by
  constructor
  · intro hzero hlive
    rw [effective_of_live hlive] at hzero
    have hnum := isNaN_eq_false_of_beq hzero
    have hgrade := (beq_iff_grade_eq hnum rfl).mp hzero
    exact ((lt_iff_grade_lt rfl hnum).mp hlive.2).ne' hgrade
  · intro hdead
    rw [effective_of_not_live hdead]
    rfl

theorem zeroOrAbove_effective (w : Float) : ZeroOrAbove (effective w) := by
  by_cases h : Live w
  · right
    rw [effective_of_live h]
    exact h.2
  · exact .inl (effective_of_not_live h)

/-! ### The sum of the weights -/

/-- The sum of the weights that count. -/
def total (options : List (α × Float)) : Float :=
  (options.map fun o => effective o.2).foldl (· + ·) 0.0

theorem total_pos {options : List (α × Float)} (h : ∃ o ∈ options, Live o.2) :
    0.0 < total options := by
  obtain ⟨o, ho, hlive⟩ := h
  refine foldl_add_pos ?_ (.inl rfl) (.inr ⟨effective o.2, List.mem_map_of_mem ho, ?_⟩)
  · intro w hw
    obtain ⟨o, -, rfl⟩ := List.mem_map.mp hw
    exact zeroOrAbove_effective o.2
  · rw [effective_of_live hlive]
    exact hlive.2

theorem total_eq_zero {options : List (α × Float)} (h : ∀ o ∈ options, ¬ Live o.2) :
    total options = 0.0 := by
  refine foldl_add_zero fun w hw => ?_
  obtain ⟨o, ho, rfl⟩ := List.mem_map.mp hw
  exact effective_of_not_live (h o ho)

/-! ### The ladder -/

section Ladder

variable {rung : Float → Float → Float} {draw : Float}

/-- The ladder of `climb` with its rungs anywhere: `rung` puts the next one above the last one for a
weight. -/
def climbBy (rung : Float → Float → Float) (draw : Float) :
    List (α × Float) → Float → Option α → Option α
  | [], _, last => last
  | (item, w) :: rest, cumulated, last =>
    let w := effective w
    if w == 0.0 then climbBy rung draw rest cumulated last
    else
      let cumulated := rung cumulated w
      if draw < cumulated then some item else climbBy rung draw rest cumulated (some item)

/-- The rungs of `climb` are sums of shares, as they are rounded. -/
theorem climb_eq_climbBy (total draw : Float) (options : List (α × Float)) :
    ∀ (cumulated : Float) (last : Option α), climb total draw options cumulated last =
      climbBy (fun cumulated w => cumulated + w / total) draw options cumulated last := by
  induction options with
  | nil => exact fun _ _ => rfl
  | cons o rest ih =>
    intro cumulated last
    rw [climb, climbBy]
    dsimp only
    rw [ih, ih]

/-- The ladder leads to an option with a live weight, unless it has no rung. -/
theorem climbBy_cases (options : List (α × Float)) :
    ∀ (cumulated : Float) (last : Option α),
      (∃ o ∈ options, Live o.2 ∧ climbBy rung draw options cumulated last = some o.1) ∨
      (∀ o ∈ options, ¬ Live o.2) ∧ climbBy rung draw options cumulated last = last := by
  induction options with
  | nil => exact fun _ _ => .inr ⟨fun _ ho => (List.not_mem_nil ho).elim, rfl⟩
  | cons o rest ih =>
    intro cumulated last
    rw [climbBy]
    dsimp only
    by_cases hlive : Live o.2
    · left
      rw [if_neg (mt effective_beq_zero_iff.mp (not_not_intro hlive))]
      split_ifs with hdraw
      · exact ⟨o, List.mem_cons_self, hlive, rfl⟩
      · -- The option is remembered, and is the answer if no later one has a rung.
        rcases ih (rung cumulated (effective o.2)) (some o.1) with ⟨p, hp, hplive, h⟩ | ⟨-, h⟩
        · exact ⟨p, List.mem_cons_of_mem _ hp, hplive, h⟩
        · exact ⟨o, List.mem_cons_self, hlive, h⟩
    · rw [if_pos (effective_beq_zero_iff.mpr hlive)]
      rcases ih cumulated last with ⟨p, hp, hplive, h⟩ | ⟨hdead, h⟩
      · exact .inl ⟨p, List.mem_cons_of_mem _ hp, hplive, h⟩
      · exact .inr ⟨List.forall_mem_cons.mpr ⟨hlive, hdead⟩, h⟩

theorem climbBy_live {options : List (α × Float)} (h : ∃ o ∈ options, Live o.2) (cumulated : Float)
    (last : Option α) :
    ∃ o ∈ options, Live o.2 ∧ climbBy rung draw options cumulated last = some o.1 := by
  refine (climbBy_cases options cumulated last).resolve_right fun hdead => ?_
  obtain ⟨o, ho, hlive⟩ := h
  exact hdead.1 o ho hlive

end Ladder

/-! ### The choice -/

theorem chooseWeighted_eq {options : List (α × Float)} (h : options ≠ []) :
    chooseWeighted options =
      if total options ≤ 0.0 || !(total options).isFinite then chooseUniform (options.map (·.1))
      else do
        let draw ← Source.unit
        return climb (total options) draw options 0.0 none := by
  rw [chooseWeighted, if_neg (mt List.isEmpty_iff.mp h)]
  rfl

theorem chooseWeighted_of_dead {options : List (α × Float)} (h : ∀ o ∈ options, ¬ Live o.2) :
    chooseWeighted options = chooseUniform (options.map (·.1)) := by
  by_cases hne : options = []
  · rw [hne]
    rfl
  · rw [chooseWeighted_eq hne, total_eq_zero h]
    rfl

/-- With a live weight and a finite sum, the ladder is climbed. -/
theorem chooseWeighted_of_live {options : List (α × Float)} (h : ∃ o ∈ options, Live o.2)
    (hfinite : (total options).isFinite = true) (src : Source) :
    ∃ o ∈ options, Live o.2 ∧ (chooseWeighted options src).1 = some o.1 := by
  have hne : options ≠ [] := by
    rintro rfl
    obtain ⟨o, ho, -⟩ := h
    exact List.not_mem_nil ho
  have hpos := total_pos h
  have hnum := isNaN_eq_false_of_lt hpos
  -- The total is above zero and finite, so the climb takes place.
  have hnle : ¬ total options ≤ 0.0 := by
    intro hle
    have hgrade := (le_iff_grade_le hnum rfl).mp hle
    exact not_lt.mpr hgrade ((lt_iff_grade_lt rfl hnum).mp hpos)
  have hclimb : (chooseWeighted options src).1 =
      climb (total options) (Source.unit src).1 options 0.0 none := by
    rw [chooseWeighted_eq hne, if_neg (by simp [hnle, hfinite])]
    rfl
  rw [hclimb, climb_eq_climbBy]
  exact climbBy_live h 0.0 none

theorem chooseWeighted_isSome {options : List (α × Float)} (h : options ≠ []) (src : Source) :
    ∃ x, (chooseWeighted options src).1 = some x := by
  have huniform : ∃ x, (chooseUniform (options.map (·.1)) src).1 = some x := by
    obtain ⟨x, -, hx⟩ := chooseUniform_mem (mt List.map_eq_nil_iff.mp h) src
    exact ⟨x, hx⟩
  by_cases hlive : ∃ o ∈ options, Live o.2
  · by_cases hfinite : (total options).isFinite = true
    · obtain ⟨o, -, -, ho⟩ := chooseWeighted_of_live hlive hfinite src
      exact ⟨o.1, ho⟩
    · rwa [chooseWeighted_eq h, if_pos (by simp [hfinite])]
  · rwa [chooseWeighted_of_dead fun o ho hl => hlive ⟨o, ho, hl⟩]

/-- A choice by weight never gives an option without a live weight while one has a live weight and
the sum is finite, and the ladder never does, wherever rounding puts its rungs and wherever the draw
falls.  Without live weights the choice is uniform over all options, and it gives nothing only if
there is nothing. -/
theorem chooseWeighted_spares_dead (options : List (α × Float)) :
    ((∃ o ∈ options, Live o.2) →
      ((total options).isFinite = true → ∀ src, ∃ o ∈ options,
        Live o.2 ∧ (chooseWeighted options src).1 = some o.1) ∧
      ∀ rung draw cumulated, ∃ o ∈ options,
        Live o.2 ∧ climbBy rung draw options cumulated none = some o.1) ∧
    ((∀ o ∈ options, ¬ Live o.2) →
      chooseWeighted options = chooseUniform (options.map (·.1))) ∧
    ∀ src, (chooseWeighted options src).1 = none ↔ options = [] := by
  refine ⟨fun hlive => ⟨chooseWeighted_of_live hlive, fun _ _ cumulated => ?_⟩,
    chooseWeighted_of_dead, fun src => ⟨fun hnone => ?_, ?_⟩⟩
  · exact climbBy_live hlive cumulated none
  · by_contra hne
    obtain ⟨x, hx⟩ := chooseWeighted_isSome hne src
    rw [hnone] at hx
    cases hx
  · rintro rfl
    rfl

/-- Five weights of which one is live, and two of which none is. -/
theorem chooseWeighted_spares_dead_mixture :
    let options := [("zero", 0.0), ("number", 0.0 / 0.0), ("live", 2.0), ("below", -1.0),
      ("endless", 1.0 / 0.0)]
    let dead := [("number", 0.0 / 0.0), ("below", -1.0)]
    ((∃ o ∈ options, Live o.2) ∧ (total options).isFinite = true ∧
      ∃ o ∈ options, Live o.2 ∧ (chooseWeighted options (Source.mixed 7)).1 = some o.1) ∧
    (∀ o ∈ dead, ¬ Live o.2) ∧ chooseWeighted dead = chooseUniform (dead.map (·.1)) := by
  intro options dead
  have hlive : ∃ o ∈ options, Live o.2 := by decide +kernel
  have hfinite : (total options).isFinite = true := by decide +kernel
  have hdead : ∀ o ∈ dead, ¬ Live o.2 := by decide +kernel
  exact ⟨⟨hlive, hfinite, ((chooseWeighted_spares_dead options).1 hlive).1 hfinite _⟩, hdead,
    (chooseWeighted_spares_dead dead).2.1 hdead⟩

end Colloquy.Selection
