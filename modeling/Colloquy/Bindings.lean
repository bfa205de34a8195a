import Colloquy.SortedMap

/-!
# Variable bindings

The variables of a conversation and their texts, in the order of the names.
-/

namespace Colloquy

/-- The values of the bound variables, by name. -/
abbrev Bindings := SortedMap String String

end Colloquy
