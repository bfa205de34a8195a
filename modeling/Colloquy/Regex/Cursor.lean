import Colloquy.Regex.Basic

/-!
# Positions and steps

A `Cursor` is a position in the subject together with what the groups have captured on the way.
The steps of the simple expressions are defined here; they are the same in every way of running a
pattern.
-/

namespace Colloquy.Regex

/-- The text a pattern is run on. -/
abbrev Subject := Array Char

/-- A position, and the captured spans: the latest capture of a group stands first. -/
structure Cursor where
  pos : Nat
  captures : List (Label × Nat × Nat)
  deriving DecidableEq, Repr

namespace Cursor

/-- The beginning of a subject. -/
def start : Cursor := ⟨0, []⟩

/-- The same captures, elsewhere. -/
def moveTo (p : Cursor) (pos : Nat) : Cursor := { p with pos }

/-- The group has captured from `first` up to here. -/
def record (p : Cursor) (label : Label) (first : Nat) : Cursor :=
  { p with captures := (label, first, p.pos) :: p.captures }

/-- The latest span of a group. -/
def capture? (p : Cursor) (label : Label) : Option (Nat × Nat) :=
  p.captures.lookup label

end Cursor

variable (subject : Subject)

/-- The characters from `first` up to `last`. -/
def slice (first last : Nat) : List Char :=
  (subject.extract first last).toList

/-- The character at a position belongs to a word. -/
def wordAt (pos : Nat) : Bool :=
  match subject[pos]? with
  | some c => Text.isWordChar c
  | none => false

/-- A word begins or ends at the position. -/
def isWordEdge (pos : Nat) : Bool :=
  (pos != 0 && wordAt subject (pos - 1)) != wordAt subject pos

/-- The condition holds at the position. -/
def Anchor.holds : Anchor → Nat → Bool
  | start, pos => pos == 0
  | stop, pos => pos == subject.size
  | wordEdge, pos => isWordEdge subject pos
  | noWordEdge, pos => !isWordEdge subject pos

/-- The position after one character, if there is one that satisfies the test. -/
def stepOver (test : Char → Bool) (pos : Nat) : Option Nat :=
  match subject[pos]? with
  | some c => if test c then some (pos + 1) else none
  | none => none

/-- Over a repetition of what the group captured, letter by letter; a group that has captured
nothing cannot be repeated. -/
def stepBack (label : Label) (p : Cursor) : Option Cursor :=
  match p.capture? label with
  | some (first, last) =>
    let width := last - first
    if p.pos + width ≤ subject.size &&
        slice subject p.pos (p.pos + width) == slice subject first last then
      some (p.moveTo (p.pos + width))
    else none
  | none => none

end Colloquy.Regex
