import Colloquy.Regex.Trace

/-!
# Searching with a budget

Patterns with look-arounds or back-references are run by trying alternatives one after the other:
`search` goes on with the preferred alternative, and resumes a saved one when that fails.  The
number of resumptions is bounded; a search that would need more is given up, which is not the same
as finding nothing.

A look-around whose body holds neither look-arounds nor captures that are referred to is decided at
once and costs nothing: by a table made beforehand if nothing that the body captures is kept
(`settle`), and by its preferred end otherwise.

Beyond the rounds that a repetition must make, a round that consumes nothing is refused.

`find?` runs a pattern from the start of a subject in whichever way it needs.
-/

namespace Colloquy.Regex

/-- How a search ends.  What is left of the budget is kept where the search can go on. -/
inductive Outcome
  | found (end_ : Cursor) (left : Nat)
  | missed (left : Nat)
  | exhausted
  deriving DecidableEq, Repr

/-- A search that is yet to be given its budget. -/
abbrev Attempt := Nat → Outcome

namespace Attempt

/-- There is no match this way. -/
def miss : Attempt := .missed

/-- A match has been found. -/
def accept (p : Cursor) : Attempt := .found p

/-- Resumes a saved alternative, at the cost of one. -/
def resume (alternative : Attempt) : Attempt
  | 0 => .exhausted
  | left + 1 => alternative left

/-- The first search, and if it misses, the second. -/
def orElse (first second : Attempt) : Attempt := fun budget =>
  match first budget with
  | .missed left => second.resume left
  | outcome => outcome

/-- Goes on from a cursor, if there is one. -/
def goOn (next : Cursor → Attempt) : Option Cursor → Attempt
  | some p => next p
  | none => miss

end Attempt

/-- Runs exactly `n` rounds of a repetition. -/
def searchRounds (body : (Cursor → Attempt) → Cursor → Attempt) (next : Cursor → Attempt) :
    Nat → Cursor → Attempt
  | 0, p => next p
  | n + 1, p => body (searchRounds body next n) p

/-- Runs at most `n` rounds of a repetition. -/
def searchUpTo (body : (Cursor → Attempt) → Cursor → Attempt) (greedy : Bool)
    (next : Cursor → Attempt) : Nat → Cursor → Attempt
  | 0, p => next p
  | n + 1, p =>
    let more := body (searchUpTo body greedy next n) p
    if greedy then more.orElse (next p) else (next p).orElse more

/-- Runs any number of rounds, each of which has to consume something; `fuel` bounds their number,
and the length of what is left of the subject is enough. -/
def searchMany (body : (Cursor → Attempt) → Cursor → Attempt) (greedy : Bool)
    (next : Cursor → Attempt) : Nat → Cursor → Attempt
  | 0, p => next p
  | fuel + 1, p =>
    let more := body
      (fun q => if q.pos = p.pos then Attempt.miss else searchMany body greedy next fuel q) p
    if greedy then more.orElse (next p) else (next p).orElse more

/-! ### Look-arounds -/

/-- The bodies of look-arounds that can be decided beforehand: plain ones, from which no capture is
kept. -/
def settledBodies (referenced : List Label) : Regex → List Regex
  | ahead negated r | behind negated _ r =>
    if r.isPlain referenced then if negated || r.labels.isEmpty then [r] else []
    else r.settledBodies referenced
  | seq a b | alt a b => a.settledBodies referenced ++ b.settledBodies referenced
  | conditional c a b =>
    c.settledBodies referenced ++ a.settledBodies referenced ++ b.settledBodies referenced
  | capture _ r | group r | loop r .. | atomic r | embedded _ r => r.settledBodies referenced
  | empty | char _ | any | set _ | anchor _ | backref _ | captured _ | unreadable _ => []

/-- Bodies of look-arounds, each with the positions from which it matches. -/
abbrev Settled := List (Regex × Array (Thunk Bool))

/-- Decides bodies at every position, each when it is first asked for. -/
def settle (subject : Subject) (bodies : List Regex) : Settled :=
  bodies.eraseDups.map fun r =>
    (r, (Array.range (subject.size + 1)).map fun i => Thunk.mk fun _ => canStart subject r i)

/-- Goes on at `p` with a look-around whose body is decided: it ends at `end_`, if it matches. -/
def lookAt (end_ : Option Cursor) (negated : Bool) (next : Cursor → Attempt) (p : Cursor) :
    Attempt :=
  match end_ with
  | some q => if negated then Attempt.miss else next (q.moveTo p.pos)
  | none => if negated then (next p).resume else Attempt.miss

/-- Decides a look-around by searching its body from `from_`, and goes on at `p`. -/
def lookInto (body : (Cursor → Attempt) → Cursor → Attempt) (negated : Bool)
    (next : Cursor → Attempt) (from_ p : Cursor) : Attempt :=
  if negated then fun budget =>
    match body Attempt.accept from_ budget with
    | .found _ left => .missed left
    | .missed left => (next p).resume left
    | .exhausted => .exhausted
  else body (fun q => next (q.moveTo p.pos)) from_

/-- Decides a look-around in the way that its body needs, from `from_`, and goes on at `p`. -/
def look (subject : Subject) (referenced : List Label) (settled : Settled) (r : Regex)
    (body : (Cursor → Attempt) → Cursor → Attempt) (negated : Bool) (next : Cursor → Attempt)
    (from_ p : Cursor) : Attempt :=
  match settled.lookup r with
  | some holds =>
    lookAt (if (holds[from_.pos]?).any Thunk.get then some from_ else none) negated next p
  | none =>
    if r.isPlain referenced then lookAt (preferred subject r from_) negated next p
    else lookInto body negated next from_ p

/-! ### Atomic groups and conditions -/

/-- Goes on behind the first match of the body, with all others given up. -/
def commit (body : (Cursor → Attempt) → Cursor → Attempt) (next : Cursor → Attempt) (p : Cursor) :
    Attempt := fun budget =>
  match body Attempt.accept p budget with
  | .found q left => next q left
  | outcome => outcome

/-- Goes on with `yes` behind the first match of the condition, and with `no` if there is none. -/
def decideBy (condition : (Cursor → Attempt) → Cursor → Attempt) (yes no : Cursor → Attempt)
    (p : Cursor) : Attempt := fun budget =>
  match condition Attempt.accept p budget with
  | .found q left => yes q left
  | .missed left => (no p).resume left
  | .exhausted => .exhausted

/-! ### Searching -/

/-- Searches for a match of the expression from the cursor on, such that `next` succeeds at its
end. -/
def search (subject : Subject) (referenced : List Label) (settled : Settled) :
    Regex → (Cursor → Attempt) → Cursor → Attempt
  | empty, next, p => next p
  | char c, next, p => Attempt.goOn next ((stepOver subject (Text.sameFold c) p.pos).map p.moveTo)
  | any, next, p => Attempt.goOn next ((stepOver subject (fun _ => true) p.pos).map p.moveTo)
  | set cls, next, p => Attempt.goOn next ((stepOver subject cls.contains p.pos).map p.moveTo)
  | anchor a, next, p => if a.holds subject p.pos then next p else Attempt.miss
  | seq a b, next, p =>
    search subject referenced settled a (search subject referenced settled b next) p
  | alt a b, next, p =>
    (search subject referenced settled a next p).orElse
      (search subject referenced settled b next p)
  | group r, next, p => search subject referenced settled r next p
  | embedded _ r, next, p => search subject referenced settled r next p
  | capture l r, next, p =>
    search subject referenced settled r (fun q => next (q.record l p.pos)) p
  | ahead negated r, next, p =>
    look subject referenced settled r (search subject referenced settled r) negated next p p
  | behind negated width r, next, p =>
    if width ≤ p.pos then
      look subject referenced settled r (search subject referenced settled r) negated next
        (p.moveTo (p.pos - width)) p
    else if negated then (next p).resume
    else Attempt.miss
  | backref l, next, p => Attempt.goOn next (stepBack subject l p)
  | captured l, next, p => if (p.capture? l).isSome then next p else Attempt.miss
  | atomic r, next, p => commit (search subject referenced settled r) next p
  | conditional c a b, next, p =>
    decideBy (search subject referenced settled c) (search subject referenced settled a next)
      (search subject referenced settled b next) p
  | loop r least most greedy, next, p =>
    match most with
    | none =>
      searchRounds (search subject referenced settled r)
        (searchMany (search subject referenced settled r) greedy next subject.size) least p
    | some m =>
      searchRounds (search subject referenced settled r)
        (searchUpTo (search subject referenced settled r) greedy next (m - least)) least p
  | unreadable _, _, _ => Attempt.miss

/-- Where a match from the start of the subject ends, if there is one and it can be found within
the budget.  Patterns without look-arounds and back-references need no budget. -/
def find? (r : Regex) (subject : Subject) (budget : Nat) : Option Cursor :=
  if r.isPlain [] then preferred subject r Cursor.start
  else
    let settled := settle subject (r.settledBodies r.references)
    match search subject r.references settled r Attempt.accept Cursor.start budget with
    | .found p _ => some p
    | _ => none

end Colloquy.Regex
