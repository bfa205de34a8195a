import Colloquy.Json.Number

/-!
# Reading records

A record is written as an object of its fields, in any order, or as an array of its fields in the
order of their declaration, where fields at the end may be left out.  Members of an object that are
no fields of the record are passed over, but a field may not be given twice.

A field may be required, have a default when it is missing (`null` is not missing), or be optional,
where `null` counts as missing.

An *open* record shares its object with another one.  It is written as an object only, and the
members that are passed over have to hold proper values: numbers in range, strings that name texts,
and no more than `maxOpenDepth` levels.
-/

namespace Colloquy.Json

/-- The fields of a record that are given. -/
abbrev Record := List (String × Json)

/-! ### Plain values -/

/-- A text. -/
def text? : Json → Option String
  | .string s => s
  | _ => none

/-- A truth value. -/
def bool? : Json → Option Bool
  | .bool b => some b
  | _ => none

/-- An unsigned integer below the bound. -/
def nat? (bound : Nat) : Json → Option Nat
  | .number n => n.toNat?.filter (· < bound)
  | _ => none

/-- A double. -/
def float? : Json → Option Float
  | .number n => n.toFloat?
  | _ => none

/-- A list. -/
def list? {α : Type} (item? : Json → Option α) : Json → Option (List α)
  | .array items => items.mapM item?
  | _ => none

/-- The members of an object, by key. -/
def members {α : Type} (value? : Json → Option α) : Json → Option (List (String × α))
  | .object members => members.mapM fun (key, value) => do return (← key, ← value? value)
  | _ => none

/-- `null` counts as nothing. -/
def nullable? {α : Type} (value? : Json → Option α) : Json → Option (Option α)
  | .null => some none
  | json => (value? json).map some

/-- One of several names; a name may also be written as the only key of an object, with `null`. -/
def choice? {α : Type} (ofName? : String → Option α) : Json → Option α
  | .string s => s.bind ofName?
  | .object [(key, .null)] => key.bind ofName?
  | _ => none

/-! ### Records -/

/-- The given fields, if none is given twice. -/
def distinctFields (fields : Record) : Option Record :=
  if (fields.map (·.1)).Nodup then some fields else none

/-- The members of an object that are fields of a record. -/
def fieldsAmong (names : List String) (members : List (String × Json)) : Option Record :=
  distinctFields (members.filter fun (name, _) => names.contains name)

/-- A record with the declared fields. -/
def record? (names : List String) : Json → Option Record
  | .object ms => do
    let ms ← ms.mapM fun (key, value) => do return (← key, value)
    fieldsAmong names ms
  | .array items => if items.length ≤ names.length then some (names.zip items) else none
  | _ => none

/-- How many levels a member that is passed over may have in an open record. -/
def maxOpenDepth : Nat := 124

mutual

/-- The value is proper and has at most the given number of levels. -/
def isProper : Nat → Json → Bool
  | _, .null | _, .bool _ => true
  | _, .number n => n.toFloat?.isSome
  | _, .string s => s.isSome
  | 0, .array _ | 0, .object _ => false
  | depth + 1, .array items => areProper depth items
  | depth + 1, .object members => areProperMembers depth members

/-- All items are proper. -/
def areProper : Nat → List Json → Bool
  | _, [] => true
  | depth, item :: items => isProper depth item && areProper depth items

/-- All members are proper. -/
def areProperMembers : Nat → List (Option String × Json) → Bool
  | _, [] => true
  | depth, m :: ms => isProperMember depth m && areProperMembers depth ms

/-- The member's value is proper. -/
def isProperMember : Nat → Option String × Json → Bool
  | depth, (key, value) => key.isSome && isProper depth value

end

/-- An open record with the declared fields. -/
def openRecord? (names : List String) : Json → Option Record
  | .object ms => do
    let ms ← ms.mapM fun (key, value) => do return (← key, value)
    if ms.all fun (name, value) => names.contains name || isProper maxOpenDepth value then
      fieldsAmong names ms
    else none
  | _ => none

namespace Record

/-- A field that must be given. -/
def required {α : Type} (r : Record) (name : String) (value? : Json → Option α) : Option α :=
  (List.lookup name r).bind value?

/-- A field with a default. -/
def withDefault {α : Type} (r : Record) (name : String) (default : α) (value? : Json → Option α) :
    Option α :=
  match List.lookup name r with
  | some json => value? json
  | none => some default

/-- A field that may be missing. -/
def optional {α : Type} (r : Record) (name : String) (value? : Json → Option α) :
    Option (Option α) :=
  r.withDefault name none (nullable? value?)

end Record

end Colloquy.Json
