import Colloquy.Random.Source

/-!
# Random choices

* `chooseUniform` picks one of several items, each with the same chance;
* `argmaxRandom` picks one of the greatest scores, ties broken uniformly; `NaN` is never greatest;
* `chooseWeighted` picks in proportion to weights.  A weight that is not positive and finite counts
  as none; if no weight counts, or their sum is not finite, the pick is uniform.

A pick from nothing draws nothing.
-/

namespace Colloquy.Selection

/-- One of the items, with equal chances. -/
def chooseUniform {α : Type} (items : List α) : Draw (Option α) :=
  if items.isEmpty then return none
  else do
    let i ← Source.index items.length
    return items[i]?

/-- The greater of two scores. -/
def greater (a b : Float) : Float :=
  if a < b then b else a

/-- The greatest score that is a number, minus infinity if there is none. -/
def best (scores : List Float) : Float :=
  (scores.filter fun s => !s.isNaN).foldl greater (-1.0 / 0.0)

/-- The positions of the scores that equal the greatest. -/
def tied (scores : List Float) : List Nat :=
  (scores.zipIdx.filter fun (s, _) => s == best scores).map (·.2)

/-- The position of one of the greatest scores. -/
def argmaxRandom (scores : List Float) : Draw (Option Nat) :=
  chooseUniform (tied scores)

/-- What a weight counts for. -/
def effective (w : Float) : Float :=
  if w.isFinite && w > 0.0 then w else 0.0

/-- The first item whose cumulated share of the total lies above `draw`; failing that, the last item
that has a share. -/
def climb {α : Type} (total draw : Float) : List (α × Float) → Float → Option α → Option α
  | [], _, last => last
  | (item, w) :: rest, cumulated, last =>
    let w := effective w
    if w == 0.0 then climb total draw rest cumulated last
    else
      let cumulated := cumulated + w / total
      if draw < cumulated then some item else climb total draw rest cumulated (some item)

/-- One of the items, with chances in proportion to their weights. -/
def chooseWeighted {α : Type} (options : List (α × Float)) : Draw (Option α) :=
  if options.isEmpty then return none
  else
    let total := (options.map fun (_, w) => effective w).foldl (· + ·) 0.0
    if total ≤ 0.0 || !total.isFinite then chooseUniform (options.map (·.1))
    else do
      let draw ← Source.unit
      return climb total draw options 0.0 none

end Colloquy.Selection
