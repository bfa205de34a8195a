/-!
# Numbers with a fixed number of places

A double is the exact value `significand * 2 ^ (exponent - 1075)`.  Its text with a given number of
places is that value rounded once, a tie going to the even neighbour, so the text is always one of
the two nearest.
-/

namespace Colloquy.Text

/-- The quotient rounded to a nearest integer, a tie to the even one. -/
def roundDiv (num den : Nat) : Nat :=
  let quotient := num / den
  let twice := 2 * (num % den)
  if twice < den then quotient
  else if den < twice then quotient + 1
  else quotient + quotient % 2

/-- The magnitude of a finite double, as significand and exponent. -/
def decompose (f : Float) : Nat × Nat :=
  let bits := f.toBits.toNat % (1 <<< 63)
  let exponent := bits >>> 52
  let fraction := bits % (1 <<< 52)
  if exponent = 0 then (fraction, 1) else (fraction + (1 <<< 52), exponent)

/-- The magnitude of a finite double in units of the last of the given number of places. -/
def unitsOf (places : Nat) (f : Float) : Nat :=
  let (significand, exponent) := decompose f
  roundDiv ((significand * Nat.pow 10 places) <<< (exponent - 1075)) (1 <<< (1075 - exponent))

/-- Fills up on the left. -/
def padLeft (width : Nat) (fill : Char) (cs : List Char) : List Char :=
  List.replicate (width - cs.length) fill ++ cs

/-- The magnitude of a finite double with at least one place. -/
def fixedMagnitude (places : Nat) (f : Float) : List Char :=
  let digits := padLeft (places + 1) '0' (Nat.toDigits 10 (unitsOf places f))
  let whole := digits.length - places
  digits.take whole ++ '.' :: digits.drop whole

/-- A double with at least one place.  Negative zero keeps its sign, and what is not finite is
named. -/
def fixed (places : Nat) (f : Float) : List Char :=
  if f.isNaN then "NaN".toList
  else
    (if 1 <<< 63 ≤ f.toBits.toNat then ['-'] else []) ++
      (if f.isInf then "inf".toList else fixedMagnitude places f)

end Colloquy.Text
