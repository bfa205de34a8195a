import Colloquy.Regex.Cursor
import Colloquy.Regex.Reader

/-!
# The engine that runs patterns

A pattern is run by an engine that is given its text.  What the engine does with the constructs that
expressions are compiled to is described by this library; three things about it are left open, and
the theory holds whatever they are:

* what a raw pattern means, since an engine may know more syntax than `Regex.read?` does,
* how large a pattern may become before it is refused, and
* how often a search has resumed an alternative by the time the engine counts its limit as reached.

The engine at hand reads raw patterns with `Regex.read?`, has no limit on the size of patterns, and
counts each resumption as one.
-/

namespace Colloquy

/-- What is left to the engine. -/
class Engine where
  /-- The meaning of a raw pattern, if it is well-formed. -/
  read? : String → Option Regex
  /-- The pattern does not become too large. -/
  fits : Regex → Bool
  /-- How many alternatives a search for a pattern in a subject can resume, where the engine's limit
  is the number given. -/
  allowance : Regex → Regex.Subject → Nat → Nat

instance : Engine where
  read? := Regex.read?
  fits _ := true
  allowance _ _ limit := limit

namespace Regex

/-- The pattern can be built: it is well-formed, and not too large for the engine. -/
def builds [Engine] (r : Regex) : Bool :=
  r.buildable && Engine.fits r

end Regex

end Colloquy
