/-!
# Random sources

A `Source` is an endless sequence of 64-bit words together with the number of words taken so far.
Everything random is computed from it, so equal sources give equal choices.

`Source.index n` draws an index below `n` without bias: the high half of the product of a word with
`n` is the index, and words whose low half falls beyond `zone n` are rejected and drawn again.
`Source.unit` draws a double in `[0, 1)` from the high 52 bits of one word.

Drawing again has no end for a source whose words are all rejected.  Here it ends by force: after
`patience` rejections in a row the next word is taken as it is.  That is an idealization.  A word is
rejected with a chance below one half, and so many in a row are met by no generator worth the name;
up to there the draws are the same.
-/

namespace Colloquy

/-- A sequence of words, read up to a point. -/
structure Source where
  word : Nat → UInt64
  drawn : Nat

/-- A computation that draws from a source. -/
abbrev Draw := StateM Source

namespace Source

/-! ### Sequences -/

/-- An unread sequence. -/
def ofWords (word : Nat → UInt64) : Source := ⟨word, 0⟩

/-- An arithmetic progression. -/
def arithmetic (first increment : UInt64) : Source :=
  ofWords fun n => first + increment * UInt64.ofNat n

/-- The same words again and again; zeros if there are none. -/
def cyclic (words : Array UInt64) : Source :=
  ofWords fun n => words.getD (n % words.size) 0

/-- Mixes the bits of a word. -/
def mix (z : UInt64) : UInt64 :=
  let z := (z ^^^ (z >>> 30)) * 0xBF58476D1CE4E5B9
  let z := (z ^^^ (z >>> 27)) * 0x94D049BB133111EB
  z ^^^ (z >>> 31)

/-- Mixed multiples of an odd constant, counted from a seed. -/
def mixed (seed : UInt64) : Source :=
  ofWords fun n => mix (seed + 0x9E3779B97F4A7C15 * UInt64.ofNat (n + 1))

/-! ### Draws -/

/-- The next word. -/
def next : Draw UInt64 := fun s =>
  (s.word s.drawn, { s with drawn := s.drawn + 1 })

/-- The greatest low half that is accepted when an index below `n` is drawn. -/
def zone (n : Nat) : Nat :=
  (n <<< (63 - n.log2)) - 1

/-- The index below `n` that a word stands for, if the word is accepted. -/
def accept? (n : Nat) (v : UInt64) : Option Nat :=
  let product := v.toNat * n
  if product % UInt64.size ≤ zone n then some (product / UInt64.size) else none

/-- How many words in a row may be rejected before drawing ends by force. -/
def patience : Nat := 1 <<< 20

/-- An index below `n`, after at most the given number of rejections.  The word behind the last one
is taken as it is, so that there is always an index. -/
def indexWithin (n : Nat) : Nat → Draw Nat
  | 0 => do
    let v ← next
    return v.toNat * n / UInt64.size
  | rejections + 1 => do
    let v ← next
    match accept? n v with
    | some i => return i
    | none => indexWithin n rejections

/-- An index below `n`. -/
def index (n : Nat) : Draw Nat :=
  indexWithin n patience

/-- A double in `[0, 1)`. -/
def unit : Draw Float := do
  let v ← next
  return Float.ofBits ((v >>> 12) ||| 0x3FF0000000000000) - 1.0

end Source

end Colloquy
