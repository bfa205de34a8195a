/-!
# Options

The limits and settings of a conversation, with their defaults.
-/

namespace Colloquy

/-- Settings that affect matching and turn-taking. -/
structure Options where
  /-- How many rule applications a user turn may make. -/
  maxRuleIterations : Nat := 256
  /-- How many saved alternatives one match may resume. -/
  backtrackLimit : Nat := 1000000
  /-- The longest phrase kept for look-up. -/
  ngramMax : Nat := 4
  /-- What joins the outputs of a system turn. -/
  outputSeparator : String := " "
  /-- The seed of the random source, if it is fixed. -/
  seed : Option Nat := none
  deriving DecidableEq, Repr, Inhabited

end Colloquy
