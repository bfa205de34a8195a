import Colloquy.Regex.Reach

/-!
# The preferred way to match

Of the ways to match an expression one is preferred: alternatives count from left to right, and a
repetition prefers one more round to stopping, or the other way round.  `trace` lists where a match
can end, the preferred way first and no position twice; along each way it keeps what the groups
capture.

A way never comes back to a branching point of the expression at the same position: it would only go
round in a circle.  So a round of a repetition that consumes nothing is of no use unless it is the
first one.  Branching points are told apart by their `Place` in the expression; the copies of a body
that is repeated a given number of times are different places.

Like `reach`, this is meant for expressions without look-arounds and back-references.
-/

namespace Colloquy.Regex

/-- A place in an expression: the way down to it, the last turn first. -/
abbrev Place := List Nat

/-- A way through an expression: where it has got to, and for each branching point where it was
passed last. -/
structure Trail extends Cursor where
  passed : List (Place × Nat)

namespace Trail

/-- The trail goes on elsewhere. -/
def moveTo (t : Trail) (pos : Nat) : Trail := { t with pos }

/-- The group has captured from `first` up to here. -/
def record (t : Trail) (label : Label) (first : Nat) : Trail :=
  { t with toCursor := t.toCursor.record label first }

/-- The branching point has been passed at this position. -/
def hasPassed (t : Trail) (place : Place) : Bool :=
  t.passed.lookup place == some t.pos

/-- Passes the branching point. -/
def pass (t : Trail) (place : Place) : Trail :=
  { t with passed := (place, t.pos) :: t.passed.filter (·.1 != place) }

end Trail

/-! ### Preference -/

/-- Keeps the first trail at each position that is not among `seen`. -/
def firstArrivals (seen : Positions) : List Trail → List Trail
  | [] => []
  | t :: ts =>
    if seen.contains t.pos then firstArrivals seen ts
    else t :: firstArrivals (seen.add t.pos) ts

/-- Keeps the first trail at each position. -/
def distinct (ts : List Trail) : List Trail :=
  firstArrivals .none ts

/-- Passes a branching point, unless that closes a circle. -/
def branch (place : Place) (ways : Trail → List Trail) (t : Trail) : List Trail :=
  if t.hasPassed place then [] else ways (t.pass place)

/-- Going on before stopping if `greedy`, after it otherwise. -/
def prefer (greedy : Bool) (more : List Trail) (stop : Trail) : List Trail :=
  distinct (if greedy then more ++ [stop] else stop :: more)

/-! ### Repetitions -/

/-- The `k`-th copy of the body of a repetition. -/
def copyOf (k : Nat) (loop : Place) : Place := (2 * k) :: loop

/-- The branching point in front of the `k`-th copy. -/
def choiceAt (k : Nat) (loop : Place) : Place := (2 * k + 1) :: loop

/-- The copies from the `k`-th one on, `n` of them one after the other. -/
def copies (body : Nat → Trail → List Trail) : (k n : Nat) → Trail → List Trail
  | _, 0, t => [t]
  | k, n + 1, t => distinct ((body k t).flatMap (copies body (k + 1) n))

/-- The copies from the `k`-th one on, up to `n` of them. -/
def optionalCopies (body : Nat → Trail → List Trail) (loop : Place) (greedy : Bool) :
    (k n : Nat) → Trail → List Trail
  | _, 0, t => [t]
  | k, n + 1, t =>
    branch (choiceAt k loop)
      (fun t => prefer greedy ((body k t).flatMap (optionalCopies body loop greedy (k + 1) n)) t) t

/-- What has been found of an unbounded repetition: the positions at which its branching point has
been reached, and the ends, the latest first. -/
structure Arrivals where
  seen : Positions
  found : List Trail

/-- Nothing has been found. -/
def Arrivals.none : Arrivals := ⟨.none, []⟩

/-- Arrives at the branching point of an unbounded repetition, from where another round or the way
out can be taken; `fuel` bounds how many rounds follow each other. -/
def arrive (body : Trail → List Trail) (loop : Place) (greedy : Bool) :
    Nat → Arrivals → Trail → Arrivals
  | 0, soFar, _ => soFar
  | fuel + 1, soFar, t =>
    if soFar.seen.contains t.pos || t.hasPassed loop then soFar
    else
      let t := t.pass loop
      let soFar := { soFar with seen := soFar.seen.add t.pos }
      let again (soFar : Arrivals) : Arrivals :=
        (body t).foldl (arrive body loop greedy fuel) soFar
      let leave (soFar : Arrivals) : Arrivals := { soFar with found := t :: soFar.found }
      if greedy then leave (again soFar) else again (leave soFar)

/-- Any number of rounds. -/
def anyRounds (body : Trail → List Trail) (loop : Place) (greedy : Bool) (fuel : Nat) (t : Trail) :
    List Trail :=
  (arrive body loop greedy fuel .none t).found.reverse

/-- One round or more. -/
def someRounds (body : Trail → List Trail) (loop : Place) (greedy : Bool) (fuel : Nat) (t : Trail) :
    List Trail :=
  ((body t).foldl (arrive body loop greedy fuel) .none).found.reverse

/-- The expression can match nothing at all. -/
def nullable : Regex → Bool
  | empty | anchor _ | ahead .. | behind .. | backref _ | captured _ => true
  | char _ | any | set _ | unreadable _ => false
  | seq a b => a.nullable && b.nullable
  | alt a b => a.nullable || b.nullable
  | conditional c a b => c.nullable && a.nullable || b.nullable
  | group r | capture _ r | atomic r | embedded _ r => r.nullable
  | loop r least .. => least == 0 || r.nullable

/-- The ways through a repetition whose body is nullable or not.  Where a nullable body may be left
out, leaving it out is a choice of its own in front of the first round. -/
def loopTrails (body : Nat → Trail → List Trail) (nullable : Bool) (loop : Place) (least : Nat)
    (most : Option Nat) (greedy : Bool) (fuel : Nat) (t : Trail) : List Trail :=
  match least, most with
  | least, some m =>
    distinct ((copies body 0 least t).flatMap
      (optionalCopies body loop greedy least (m - least)))
  | 0, none =>
    if nullable then
      branch (choiceAt 0 loop) (fun t => prefer greedy (someRounds (body 0) loop greedy fuel t) t) t
    else anyRounds (body 0) loop greedy fuel t
  | n + 1, none => distinct ((copies body 0 n t).flatMap (someRounds (body n) loop greedy fuel))

/-! ### Expressions -/

/-- The ways to match the expression at a place, the preferred one first. -/
def trace (subject : Subject) : Place → Regex → Trail → List Trail
  | _, empty, t => [t]
  | _, char c, t => ((stepOver subject (Text.sameFold c) t.pos).map t.moveTo).toList
  | _, any, t => ((stepOver subject (fun _ => true) t.pos).map t.moveTo).toList
  | _, set cls, t => ((stepOver subject cls.contains t.pos).map t.moveTo).toList
  | _, anchor a, t => if a.holds subject t.pos then [t] else []
  | place, seq a b, t =>
    distinct ((trace subject (0 :: place) a t).flatMap (trace subject (1 :: place) b))
  | place, alt a b, t =>
    branch place
      (fun t => distinct (trace subject (0 :: place) a t ++ trace subject (1 :: place) b t)) t
  | place, group r, t => trace subject (0 :: place) r t
  | place, capture l r, t => (trace subject (0 :: place) r t).map (·.record l t.pos)
  | place, embedded _ r, t => trace subject (0 :: place) r t
  | place, loop r least most greedy, t =>
    loopTrails (fun k => trace subject (copyOf k place) r) r.nullable place least most greedy
      (subject.size + 2) t
  | _, ahead .., _ => []
  | _, behind .., _ => []
  | _, backref _, _ => []
  | _, captured _, _ => []
  | _, atomic _, _ => []
  | _, conditional .., _ => []
  | _, unreadable _, _ => []

/-- The preferred end of a match that starts at the cursor.  Whether there is one is decided by
`reach`; the captures are those of the preferred way. -/
def preferred (subject : Subject) (r : Regex) (p : Cursor) : Option Cursor :=
  let reached := reach subject r (.single p.pos)
  if reached.isEmpty then none
  else
    match trace subject [] r ⟨p, []⟩ with
    | t :: _ => some t.toCursor
    | [] => some (p.moveTo reached.last)

end Colloquy.Regex
