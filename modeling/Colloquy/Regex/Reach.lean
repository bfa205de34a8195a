import Colloquy.Regex.Positions

/-!
# Where a match can end

`reach subject r s` is the set of positions at which a match of `r` can end that starts at one of
the positions in `s`.  It is meant for expressions without look-arounds and back-references
(`isPlain`), for which what follows depends on the position alone; the other expressions reach
nothing.

All ways to match are followed at once, so it does not matter how many there are.
-/

namespace Colloquy.Regex

/-- The expression holds no look-around, no back-reference, nothing atomic or conditional, and none
of the given captures. -/
def isPlain (referenced : List Label) : Regex → Bool
  | ahead .. | behind .. | backref _ | captured _ | atomic _ | conditional .. => false
  | capture l r => !referenced.contains l && r.isPlain referenced
  | seq a b | alt a b => a.isPlain referenced && b.isPlain referenced
  | group r | loop r .. | embedded _ r => r.isPlain referenced
  | empty | char _ | any | set _ | anchor _ | unreadable _ => true

/-- Where exactly `n` rounds can end. -/
def roundsFrom (body : Positions → Positions) : Nat → Positions → Positions
  | 0, starts => starts
  | n + 1, starts => roundsFrom body n (body starts)

/-- Where at most `n` rounds can end. -/
def roundsUpTo (body : Positions → Positions) : Nat → Positions → Positions
  | 0, starts => starts
  | n + 1, starts => starts.union (roundsUpTo body n (body starts))

/-- Adds to `found` where more rounds can end that start in `frontier`.  Rounds are added until they
lead to nothing new, at most `fuel` times; every round but the last finds a new position. -/
def saturate (body : Positions → Positions) : (fuel : Nat) → (frontier found : Positions) → Positions
  | 0, _, found => found
  | fuel + 1, frontier, found =>
    let fresh := (body frontier).diff found
    if fresh.isEmpty then found else saturate body fuel fresh (found.union fresh)

/-- Where a match that starts at one of the positions can end. -/
def reach (subject : Subject) : Regex → Positions → Positions
  | empty, s => s
  | char c, s => s.step subject (Text.sameFold c)
  | any, s => s.step subject fun _ => true
  | set cls, s => s.step subject cls.contains
  | anchor a, s => s.filter (a.holds subject)
  | seq a b, s => reach subject b (reach subject a s)
  | alt a b, s => (reach subject a s).union (reach subject b s)
  | group r, s => reach subject r s
  | capture _ r, s => reach subject r s
  | embedded _ r, s => reach subject r s
  | loop r least most _, s =>
    let starts := roundsFrom (reach subject r) least s
    match most with
    | some m => roundsUpTo (reach subject r) (m - least) starts
    | none => saturate (reach subject r) (subject.size + 1) starts starts
  | ahead .. , _ => .none
  | behind .., _ => .none
  | backref _, _ => .none
  | captured _, _ => .none
  | atomic _, _ => .none
  | conditional .., _ => .none
  | unreadable _, _ => .none

/-- The expression can be matched from the position on. -/
def canStart (subject : Subject) (r : Regex) (i : Nat) : Bool :=
  !(reach subject r (.single i)).isEmpty

end Colloquy.Regex
