import Colloquy.Expr.Basic

/-!
# Speakers

A conversation has two sides.  What the user may say is written in the matching grammar, what the
system says in the generation grammar.
-/

namespace Colloquy

/-- A side of the conversation. -/
inductive Speaker
  | system
  | user
  deriving DecidableEq, Repr

namespace Speaker

/-- The other side. -/
def other : Speaker → Speaker
  | system => user
  | user => system

/-- The grammar of what the speaker says. -/
def grammar : Speaker → Grammar
  | system => .generation
  | user => .matching

/-- What the speaker is called. -/
def describe : Speaker → String
  | system => "system"
  | user => "user"

end Speaker

end Colloquy
