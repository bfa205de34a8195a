import Colloquy.Regex.Basic

/-!
# Patterns that can be run

Not every pattern text that fragments add up to is a pattern.  A pattern is refused when

* more than `maxDepth` groups are open at once,
* a repetition stands behind nothing, or behind a single condition on the position (groups without
  a capture do not count as something), or
* a reference by number occurs beside a named group.

A refused pattern matches nothing.
-/

namespace Colloquy.Regex

/-- How many groups may be open at once. -/
def maxDepth : Nat := 63

/-- The number of groups open at the deepest point. -/
def depth : Regex → Nat
  | group r | capture _ r | ahead _ r | behind _ _ r | embedded _ r => r.depth + 1
  | seq a b | alt a b => max a.depth b.depth
  | conditional c a b => max c.depth (max a.depth b.depth)
  | loop r .. | atomic r => r.depth
  | empty | char _ | any | set _ | anchor _ | backref _ | captured _ => 0
  | unreadable _ => 1

/-- What an expression amounts to as the body of a repetition. -/
inductive Substance
  /-- Nothing at all. -/
  | nothing
  /-- A single condition on the position. -/
  | condition
  /-- Something that can be repeated. -/
  | repeatable
  deriving DecidableEq, Repr

/-- The substance of two expressions in a row. -/
def Substance.beside : Substance → Substance → Substance
  | nothing, s => s
  | s, nothing => s
  | _, _ => repeatable

/-- The substance of an expression; groups without a capture are looked through. -/
def substance : Regex → Substance
  | empty => .nothing
  | anchor _ | ahead .. | behind .. | captured _ => .condition
  | seq a b => a.substance.beside b.substance
  | group r | embedded _ r => r.substance
  | char _ | any | set _ | alt .. | capture .. | backref _ | loop .. | atomic _ | conditional ..
  | unreadable _ => .repeatable

/-- Every repetition stands behind something that can be repeated. -/
def loopsSound : Regex → Bool
  | loop r .. => r.substance == .repeatable && r.loopsSound
  | seq a b | alt a b => a.loopsSound && b.loopsSound
  | conditional c a b => c.loopsSound && a.loopsSound && b.loopsSound
  | group r | capture _ r | ahead _ r | behind _ _ r | atomic r | embedded _ r => r.loopsSound
  | empty | char _ | any | set _ | anchor _ | backref _ | captured _ | unreadable _ => true

/-- Every embedded pattern has a meaning. -/
def readable : Regex → Bool
  | unreadable _ => false
  | seq a b | alt a b => a.readable && b.readable
  | conditional c a b => c.readable && a.readable && b.readable
  | loop r .. | group r | capture _ r | ahead _ r | behind _ _ r | atomic r | embedded _ r =>
    r.readable
  | empty | char _ | any | set _ | anchor _ | backref _ | captured _ => true

/-- A group with a name. -/
def Label.isNamed : Label → Bool
  | plain _ => false
  | assigned _ | named .. => true

/-- The references by number stand beside no named group. -/
def referencesSound (r : Regex) : Bool :=
  r.references.all Label.isNamed || !r.labels.any Label.isNamed

/-- The pattern can be run. -/
def buildable (r : Regex) : Bool :=
  r.depth ≤ maxDepth && r.loopsSound && r.referencesSound && r.readable

end Colloquy.Regex
