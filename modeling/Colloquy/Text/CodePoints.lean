/-!
# Sets of code points and case maps

Character classes are standards' data; every table of the library is that of Unicode 16.0.  A
`CodePoints` is such a class as an ascending list of inclusive ranges, and membership stops at the
first range past the character asked about.  A `CaseMap` sends characters to characters by runs of
equal shift; a character in no run is its own image.
-/

namespace Colloquy.Text

/-- A set of characters: ascending, disjoint, inclusive ranges of code points. -/
abbrev CodePoints := List (Nat × Nat)

namespace CodePoints

/-- The code point `n` lies in one of the ranges; ranges past `n` are not looked at. -/
def hasCode (n : Nat) : CodePoints → Bool
  | [] => false
  | (first, last) :: rest =>
    if n < first then false else if n ≤ last then true else hasCode n rest

/-- The character lies in one of the ranges. -/
def contains (set : CodePoints) (c : Char) : Bool :=
  set.hasCode c.toNat

end CodePoints

/-- The code points `first, first + stride, …, last`, each sent `shift` further on. -/
structure CaseRun where
  first : Nat
  last : Nat
  stride : Nat
  shift : Int

/-- A character map: ascending, disjoint runs. -/
abbrev CaseMap := List CaseRun

namespace CaseMap

/-- The image of the code point `n`; runs past `n` are not looked at. -/
def code (n : Nat) : CaseMap → Nat
  | [] => n
  | run :: rest =>
    if n < run.first then n
    else if n ≤ run.last then
      if (n - run.first) % run.stride = 0 then (n + run.shift).toNat else n
    else code n rest

/-- The image of a character. -/
def image (map : CaseMap) (c : Char) : Char :=
  Char.ofNat (map.code c.toNat)

end CaseMap

end Colloquy.Text
