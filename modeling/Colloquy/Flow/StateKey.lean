/-!
# Names of states

A state is called `name` or `namespace:name`.  A text names the namespaced key when it has something
on both sides of its first colon, and a plain key otherwise.  Plain keys come before namespaced
ones.
-/

namespace Colloquy

/-- The name of a state. -/
inductive StateKey
  | plain (name : String)
  | namespaced («namespace» name : String)
  deriving DecidableEq, Repr, Inhabited

namespace StateKey

/-- The key that a text names. -/
def ofString (s : String) : StateKey :=
  let cs := s.toList
  match cs.takeWhile (· != ':'), cs.dropWhile (· != ':') with
  | space@(_ :: _), ':' :: name@(_ :: _) => namespaced (String.ofList space) (String.ofList name)
  | _, _ => plain s

/-- The key as a text. -/
def render : StateKey → String
  | plain name => name
  | namespaced space name => space ++ ":" ++ name

/-- The name without its namespace. -/
def name : StateKey → String
  | plain name | namespaced _ name => name

/-- The namespace, if there is one. -/
def namespace? : StateKey → Option String
  | plain _ => none
  | namespaced space _ => some space

/-- The order of keys. -/
def compare : StateKey → StateKey → Ordering
  | plain a, plain b => Ord.compare a b
  | plain _, namespaced .. => .lt
  | namespaced .., plain _ => .gt
  | namespaced s a, namespaced t b => (Ord.compare s t).then (Ord.compare a b)

end StateKey

end Colloquy
