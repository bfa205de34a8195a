import Colloquy.Regex.CharClass

/-!
# Regular expressions

The patterns that expressions compile to.  Matching is without regard to case throughout, and `.`
stands for any character.  Capturing groups carry a `Label`: assignments are numbered in the order
in which they complete; the groups written inside a raw pattern are numbered in the order in which
they open.

A raw pattern keeps its own spelling beside what it means (`embedded`), because it is written into
the pattern text as it stands.
-/

namespace Colloquy

namespace Regex

/-- What a capturing group is known by. -/
inductive Label
  /-- The `i`-th assignment to complete. -/
  | assigned (i : Nat)
  /-- The `k`-th group opened in raw patterns, without a name. -/
  | plain (k : Nat)
  /-- The `k`-th group opened in raw patterns, which has a name there. -/
  | named (name : String) (k : Nat)
  deriving DecidableEq, Repr

/-- Conditions on a position that consume nothing. -/
inductive Anchor
  | start
  | stop
  | wordEdge
  | noWordEdge
  deriving DecidableEq, Repr

end Regex

/-- A regular expression. -/
inductive Regex
  | empty
  | char (c : Char)
  | any
  | set (cls : Regex.CharClass)
  | anchor (a : Regex.Anchor)
  | seq (first second : Regex)
  | alt (first second : Regex)
  | group (body : Regex)
  | capture (label : Regex.Label) (body : Regex)
  /-- The body matches from here on, or does not if `negated`. -/
  | ahead (negated : Bool) (body : Regex)
  /-- The body matches the `width` characters before, or does not if `negated`. -/
  | behind (negated : Bool) (width : Nat) (body : Regex)
  | backref (label : Regex.Label)
  /-- The group has captured something. -/
  | captured (label : Regex.Label)
  /-- At least `least` and at most `most` repetitions, as many as possible first if `greedy`. -/
  | loop (body : Regex) (least : Nat) (most : Option Nat) (greedy : Bool)
  /-- The body, of which the preferred match alone counts. -/
  | atomic (body : Regex)
  /-- `yes` behind the preferred match of the condition, or `no` if the condition does not match. -/
  | conditional (condition yes no : Regex)
  | embedded (source : String) (body : Regex)
  /-- A raw pattern that has no meaning. -/
  | unreadable (source : String)
  deriving DecidableEq, Repr

namespace Regex

instance : Inhabited Regex := ⟨.empty⟩

/-- One expression after the other. -/
def concat (rs : List Regex) : Regex :=
  rs.foldr .seq .empty

/-- The characters of a text, one after the other. -/
def chars (cs : List Char) : Regex :=
  concat (cs.map .char)

/-- One of the expressions; the first one that leads to a match counts. -/
def oneOf : List Regex → Regex
  | [] => .empty
  | [r] => r
  | r :: rs => .alt r (oneOf rs)

/-- The labels of the capturing groups, in the order in which the groups open. -/
def labels : Regex → List Label
  | capture l r => l :: r.labels
  | seq a b | alt a b => a.labels ++ b.labels
  | conditional c a b => c.labels ++ a.labels ++ b.labels
  | group r | ahead _ r | behind _ _ r | loop r .. | atomic r | embedded _ r => r.labels
  | empty | char _ | any | set _ | anchor _ | backref _ | captured _ | unreadable _ => []

/-- The labels of the groups that are referred to. -/
def references : Regex → List Label
  | backref l | captured l => [l]
  | seq a b | alt a b => a.references ++ b.references
  | conditional c a b => c.references ++ a.references ++ b.references
  | capture _ r | group r | ahead _ r | behind _ _ r | loop r .. | atomic r | embedded _ r =>
    r.references
  | empty | char _ | any | set _ | anchor _ | unreadable _ => []

/-- The label is that of a group written in a raw pattern. -/
def Label.isOwn : Label → Bool
  | assigned _ => false
  | plain _ | named .. => true

/-- Moves the number of a raw pattern's group `n` further on. -/
def Label.shift (n : Nat) : Label → Label
  | assigned i => assigned i
  | plain k => plain (k + n)
  | named name k => named name (k + n)

/-- What a reference to the group is when it moves `n` further on: a reference by name follows its
group; one by number counts from the front of the whole pattern and stays. -/
def Label.shiftReference (n : Nat) : Label → Label
  | named name k => named name (k + n)
  | l => l

/-- The number of groups written in raw patterns. -/
def ownGroups (r : Regex) : Nat :=
  (r.labels.filter Label.isOwn).length

/-- Renumbers the groups written in raw patterns as if `n` of them stood in front. -/
def shiftOwn (n : Nat) : Regex → Regex
  | capture l r => capture (l.shift n) (r.shiftOwn n)
  | backref l => backref (l.shiftReference n)
  | captured l => captured (l.shiftReference n)
  | conditional c a b => conditional (c.shiftOwn n) (a.shiftOwn n) (b.shiftOwn n)
  | atomic r => atomic (r.shiftOwn n)
  | seq a b => seq (a.shiftOwn n) (b.shiftOwn n)
  | alt a b => alt (a.shiftOwn n) (b.shiftOwn n)
  | group r => group (r.shiftOwn n)
  | ahead neg r => ahead neg (r.shiftOwn n)
  | behind neg w r => behind neg w (r.shiftOwn n)
  | loop r least most greedy => loop (r.shiftOwn n) least most greedy
  | embedded s r => embedded s (r.shiftOwn n)
  | empty => empty
  | char c => char c
  | any => any
  | set cls => set cls
  | anchor a => anchor a
  | unreadable s => unreadable s

end Regex

end Colloquy
