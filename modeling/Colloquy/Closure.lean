/-!
# Closure under a relation

`explore next` collects what can be reached from a queue by following `next` again and again.
Nothing is collected twice, so the number of things that can be reached at all bounds how many are
taken from the queue.
-/

namespace Colloquy.Closure

variable {α : Type} [DecidableEq α]

/-- What follows on `x` and has not been found, without repetitions. -/
def fresh (next : α → List α) (found : List α) (x : α) : List α :=
  ((next x).filter fun y => y ∉ found).eraseDups

/-- Adds to `found` what can be reached from the queue; `fuel` bounds how many are taken from the
queue. -/
def explore (next : α → List α) : Nat → List α → List α → List α
  | 0, _, found => found
  | _, [], found => found
  | fuel + 1, x :: queue, found =>
    explore next fuel (queue ++ fresh next found x) (found ++ fresh next found x)

end Colloquy.Closure
