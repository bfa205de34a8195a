import Colloquy.Json.Basic

/-!
# The value of a numeral

An integer is a numeral without fraction and exponent; `-0` is none.

A floating-point value is read by scaling: the leading digits that fit 64 bits form an integer,
which is rounded to a double and then multiplied or divided by the double nearest to the power of
ten that is left.  A value beyond the largest double has no reading, one below the smallest is zero.
-/

namespace Colloquy.Numeral

/-- Appends digits to `acc` as long as the result stays below `UInt64.size`.  Gives the result and
the digits left over. -/
def absorb (acc : Nat) : List Nat → Nat × List Nat
  | [] => (acc, [])
  | d :: ds => if acc * 10 + d < UInt64.size then absorb (acc * 10 + d) ds else (acc, d :: ds)

/-- The number that the digits spell. -/
def ofDigits (digits : List Nat) : Nat :=
  digits.foldl (fun acc d => acc * 10 + d) 0

/-- The numeral as an unsigned integer. -/
def toNat? (n : Numeral) : Option Nat :=
  if n.negative || n.fraction.isSome || n.exponent.isSome then none else some (ofDigits n.whole)

/-- The double nearest to a power of ten. -/
def tenTo (k : Nat) : Float :=
  Float.ofScientific 1 false k

/-- Divides by `10 ^ 308` the given number of times, or until nothing is left. -/
def scaleDownBy308 (f : Float) : Nat → Float
  | 0 => f
  | n + 1 => if f == 0 then f else scaleDownBy308 (f / tenTo 308) n

/-- Divides by `10 ^ k`, at most `10 ^ 308` at a time. -/
def scaleDown (f : Float) (k : Nat) : Float :=
  let times := (k - 1) / 308
  scaleDownBy308 f times / tenTo (k - 308 * times)

/-- Multiplies by `10 ^ k`, if the result is finite. -/
def scaleUp? (f : Float) (k : Nat) : Option Float :=
  if k ≤ 308 then
    let g := f * tenTo k
    if g.isInf then none else some g
  else if f == 0 then some f
  else none

/-- The magnitude of the numeral. -/
def magnitude? (n : Numeral) : Option Float :=
  let (head, beyond) := absorb 0 n.whole
  let (significand, unread) := absorb head (n.fraction.getD [])
  let shift : Int := beyond.length - ((n.fraction.getD []).length - unread.length : Nat)
  let scale : Int :=
    match n.exponent with
    | none => shift
    | some (negative, digits) =>
      if negative then shift - ofDigits digits else shift + ofDigits digits
  let f := (UInt64.ofNat significand).toFloat
  if 0 ≤ scale then scaleUp? f scale.toNat else some (scaleDown f (-scale).toNat)

/-- The numeral as a double. -/
def toFloat? (n : Numeral) : Option Float :=
  n.magnitude?.map fun f => if n.negative then -f else f

/-- The numeral of an unsigned integer. -/
def ofNat (n : Nat) : Numeral :=
  ⟨false, (Nat.toDigits 10 n).map fun c => c.toNat - '0'.toNat, none, none⟩

end Colloquy.Numeral
