import Colloquy.Bindings
import Colloquy.Flow.Basic

/-!
# Gates

A gated transition is taken once for each configuration of its variables.  A `GateKey` identifies
what was offered: the target and the values that the gated variables had.  Names count once and
their order does not matter.  A `GateTable` counts, for each key, how often it was taken.
-/

namespace Colloquy

/-- A variable and its value when an offer was made. -/
structure GateSetting where
  name : String
  value : Option String
  deriving DecidableEq, Repr, Inhabited

/-- Settings are ordered by name, then by value; an unbound variable comes first. -/
instance : Ord GateSetting where
  compare := compareLex (compareOn (·.name)) (compareOn (·.value))

instance : Std.TransOrd GateSetting :=
  inferInstanceAs
    (Std.TransCmp (compareLex (compareOn GateSetting.name) (compareOn GateSetting.value)))

instance : Std.LawfulEqOrd GateSetting where
  eq_of_compare {a b} h := by
    have h' : compareLex (compareOn GateSetting.name) (compareOn GateSetting.value) a b = .eq := h
    simp only [compareLex, compareOn, Ordering.then_eq_eq, Std.LawfulEqOrd.compare_eq_iff_eq] at h'
    cases a; cases b; simp_all

/-- What was offered: a target and a configuration of variables. -/
structure GateKey where
  target : StateId
  config : List GateSetting
  deriving DecidableEq, Repr, Inhabited

/-- Keys are ordered by target, then by configuration. -/
instance : Ord GateKey where
  compare := compareLex (compareOn (·.target)) (compareOn (·.config))

instance : Std.TransOrd GateKey :=
  inferInstanceAs (Std.TransCmp (compareLex (compareOn GateKey.target) (compareOn GateKey.config)))

instance : Std.LawfulEqOrd GateKey where
  eq_of_compare {a b} h := by
    have h' : compareLex (compareOn GateKey.target) (compareOn GateKey.config) a b = .eq := h
    simp only [compareLex, compareOn, Ordering.then_eq_eq, Std.LawfulEqOrd.compare_eq_iff_eq] at h'
    cases a; cases b; simp_all

namespace GateKey

/-- The key of offering a target with the named variables as they are bound. -/
def ofNames (target : StateId) (names : List String) (vars : Bindings) : GateKey :=
  let settings := names.map fun name => GateSetting.mk name (vars.get? name)
  ⟨target, (settings.mergeSort fun a b => compare a b != .gt).eraseReps⟩

end GateKey

/-- How often each key was taken. -/
abbrev GateTable := SortedMap GateKey Nat

namespace GateTable

/-- How often a key was taken. -/
def count (table : GateTable) (key : GateKey) : Nat :=
  (table.get? key).getD 0

/-- A key that was taken is closed. -/
def isClosed (table : GateTable) (key : GateKey) : Bool :=
  table.contains key

/-- Takes a key once more. -/
def record (table : GateTable) (key : GateKey) : GateTable :=
  table.insert key (table.count key + 1)

end GateTable

end Colloquy
