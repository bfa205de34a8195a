/-!
# JSON values

A `Json` is a document as written: objects keep the order and the repetitions of their members, and
numbers keep their digits (`Numeral`), so that a reader of a document can tell `1` from `1.0`.

A string in a document may hold an unpaired surrogate.  Such a string is well formed and names no
text; it appears here as `none`.
-/

namespace Colloquy

/-- A number as written: sign, whole digits, fraction digits, exponent sign and digits. -/
structure Numeral where
  negative : Bool
  whole : List Nat
  fraction : Option (List Nat)
  exponent : Option (Bool × List Nat)
  deriving DecidableEq, Repr, Inhabited

/-- A JSON value as written. -/
inductive Json
  | null
  | bool (value : Bool)
  | number (numeral : Numeral)
  | string (text : Option String)
  | array (items : List Json)
  | object (members : List (Option String × Json))
  deriving Repr, Inhabited

namespace Json

/-- A string that names a text. -/
abbrev text (s : String) : Json := .string (some s)

end Json

end Colloquy
