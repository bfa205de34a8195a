import Colloquy.Macro.Call
import Colloquy.Matching.Fragments
import Colloquy.Regex.Engine
import Colloquy.Regex.Names
import Colloquy.Regex.Search

/-!
# Matching

A matching expression is compiled to a `Pattern` against the present bindings, and a pattern is run
against one utterance.

Compiling reads the bindings and runs the macros, so one tree gives different patterns as the
conversation goes on.  An assignment becomes a capturing group; assignments are numbered in the
order in which they complete.  A reference to a variable assigned further left becomes a reference
to its latest group, one to a bound variable becomes its value, and any other matches nothing.

A pattern is run against the text of the utterance followed by a space and an end mark (just the
mark if the text is empty).  A match sets every variable whose group took part to what the group
captured, blanks at both ends removed, on top of the bindings that compiling left.  Groups are found
by their names, in references as after a match, so a raw pattern that gives the name of an
assignment's group to a group of its own takes it over.
-/

namespace Colloquy.Matching

/-- The state of compiling. -/
structure Compiling where
  /-- The bindings, as changed by the macros so far. -/
  vars : Bindings
  /-- The latest group of each variable, the latest variable first. -/
  latest : List (String × Nat)
  /-- The variables of the groups completed so far. -/
  groups : List String
  /-- The number of groups written in raw patterns so far. -/
  own : Nat

/-- A step of compiling. -/
abbrev Compile := StateM Compiling

/-- Counts the groups of a raw pattern's fragment and numbers them on from those before. -/
def place (r : Regex) : Compile Regex := do
  let st ← get
  set { st with own := st.own + r.ownGroups }
  return r.shiftOwn st.own

/-- A second copy of the fragment placed last. -/
def again (r : Regex) : Compile Regex := do
  let n := r.ownGroups
  modify fun st => { st with own := st.own + n }
  return r.shiftOwn n

/-- The fragment that a macro's output stands for. -/
def ofOutput : Except Macro.Fault Macro.Output → Regex
  | .ok (.text s) => literal s
  | .ok (.choices options) => disjunction ((SortedSet.toList options).map literal)
  | .ok (.flag true) => filler
  | .ok (.flag false) | .ok .hostValue | .error _ => unmatchable

/-- The fragment of a reference. -/
def ofReference (name : String) (st : Compiling) : Regex :=
  match st.latest.lookup name with
  | some i => .backref (.assigned i)
  | none =>
    match st.vars.get? name with
    | some value => literal value
    | none => unmatchable

/-- Completes the group of an assignment. -/
def ofAssignment (name : String) (body : Regex) : Compile Regex := do
  let st ← get
  let i := st.groups.length
  set { st with latest := (name, i) :: st.latest, groups := st.groups ++ [name] }
  return .capture (.assigned i) body

/-- One or more occurrences of a fragment; `before` assignments were complete when it began.  The
fragment is written twice unless it holds assignments. -/
def ofRepeated (before : Nat) (body : Regex) : Compile Regex := do
  if (← get).groups.length = before then return repeated body (← again body)
  else return repeatedCapturing body

variable [Engine] (macros : Macro.Registry) (u : Utterance)

mutual

/-- The fragment of an expression. -/
def fragment : Expr → Compile Regex
  | .literal text => return literal text
  | .flexible items => return flexible (← fragments items)
  | .rigid items => return rigid (← fragments items)
  | .conjunction items => return conjunction (← fragments items)
  | .disjunction items => return disjunction (← fragments items)
  | .optional body => return optional (← fragment body)
  | .star body => do
    let before := (← get).groups.length
    return optional (← ofRepeated before (← fragment body))
  | .plus body => do
    let before := (← get).groups.length
    return .group (← ofRepeated before (← fragment body))
  | .negation body => return negation (← fragment body)
  | .raw pattern =>
    match Engine.read? pattern with
    | some r => return .embedded pattern (← place r)
    | none => return .unreadable pattern
  | .reference name => return ofReference name (← get)
  | .assignment name value => do ofAssignment name (← fragment value)
  | .call name args => do
    let st ← get
    let (output, vars) := Macro.evalCall macros u name args st.vars
    set { st with vars }
    return ofOutput output

/-- The fragments of several expressions. -/
def fragments : List Expr → Compile (List Regex)
  | [] => return []
  | e :: es => do
    let first ← fragment e
    let others ← fragments es
    return first :: others

end

/-- The mark at the end of every subject. -/
def endMark : List Char := "_END_".toList

/-- A compiled matching expression. -/
structure Pattern where
  regex : Regex
  /-- The variable of each assignment, in the order of their groups. -/
  groups : List String
  /-- The bindings that compiling left. -/
  vars : Bindings

/-- The whole pattern around the fragment of an expression. -/
def anchored (root : Regex) : Regex :=
  .concat [.anchor .start, connective, .group root, connective, .chars endMark, .anchor .stop]

/-- Compiles an expression for an utterance against the bindings. -/
def compile (e : Expr) (vars : Bindings) : Pattern :=
  let (root, st) := fragment macros u e ⟨vars, [], [], 0⟩
  { regex := anchored root, groups := st.groups, vars := st.vars }

/-- The text an utterance is matched as. -/
def subject (u : Utterance) : Regex.Subject :=
  (if u.text.isEmpty then endMark else u.text.toList ++ ' ' :: endMark).toArray

namespace Pattern

/-- The pattern as a text. -/
def render (p : Pattern) : String :=
  "(?is)" ++ String.ofList p.regex.print

/-- What the group under the name of the `i`-th assignment has captured in a match. -/
def captured? (p : Pattern) (last : Regex.Cursor) (i : Nat) : Option (Nat × Nat) :=
  (Regex.called p.regex.labels i).bind last.capture?

/-- Sets the variables whose groups took part in a match, in the order of the groups. -/
def bind (p : Pattern) (s : Regex.Subject) (last : Regex.Cursor) : Bindings :=
  p.groups.zipIdx.foldl (fun vars (name, i) =>
    match p.captured? last i with
    | some (a, b) => vars.insert name (String.ofList (Text.trim (Regex.slice s a b)))
    | none => vars) p.vars

/-- The bindings after a match, if the utterance matches; `limit` bounds the engine's search. -/
def run (p : Pattern) (u : Utterance) (limit : Nat) : Option Bindings :=
  if p.regex.builds then
    ((p.regex.resolve []).find? (subject u)
      (Engine.allowance p.regex (subject u) limit)).map (p.bind (subject u))
  else none

end Pattern

/-- Matches an utterance against an expression. -/
def run (e : Expr) (vars : Bindings) (limit : Nat) : Option Bindings :=
  (compile macros u e vars).run u limit

end Colloquy.Matching
