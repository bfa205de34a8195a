import Colloquy.Expr.Parser

/-!
# Phrases and the parse cache

A `Phrase` is an expression together with the source it was read from.

A `ParseCache` keeps the trees of the sources read so far, per grammar, in the order in which they
were first read.  A source that is malformed is not kept.
-/

namespace Colloquy

/-- An expression and its source. -/
structure Phrase where
  source : String
  tree : Expr
  deriving Inhabited

/-- The trees read so far. -/
structure ParseCache where
  entries : List ((Grammar × String) × Expr)
  deriving Inhabited

namespace ParseCache

/-- Nothing has been read. -/
def empty : ParseCache := ⟨[]⟩

/-- The number of trees kept. -/
def size (cache : ParseCache) : Nat :=
  cache.entries.length

/-- The place of the tree kept for a source. -/
def slot? (cache : ParseCache) (grammar : Grammar) (source : String) : Option Nat :=
  cache.entries.findIdx? fun entry => entry.1 == (grammar, source)

/-- A computation that reads through the cache. -/
abbrev Read := ExceptT SyntaxError (StateM ParseCache)

/-- The tree of a source, kept from now on. -/
def parse (grammar : Grammar) (source : String) : Read Expr := do
  let cache ← get
  match cache.entries.lookup (grammar, source) with
  | some tree => return tree
  | none =>
    match Expr.parse grammar source with
    | .ok tree => do
      set (⟨cache.entries ++ [((grammar, source), tree)]⟩ : ParseCache)
      return tree
    | .error e => throw e

/-- The phrase of a source. -/
def phrase (grammar : Grammar) (source : String) : Read Phrase := do
  return ⟨source, ← parse grammar source⟩

/-- Reads several sources, up to the first that is malformed; gives their number. -/
def precache (grammar : Grammar) : List String → Read Nat
  | [] => return 0
  | source :: more => do
    let _ ← parse grammar source
    return (← precache grammar more) + 1

end ParseCache

end Colloquy
