import Colloquy.Json.Basic

/-!
# Writing JSON

Documents are written compactly, members in their order.  In a string, quote, backslash and the
control characters are escaped, the latter by a letter where there is one and by `\u00xx`
otherwise; every other character stands for itself.
-/

namespace Colloquy.Json

/-- A hexadecimal digit in lower case. -/
def hexDigit (n : Nat) : Char :=
  if n < 10 then Char.ofNat ('0'.toNat + n) else Char.ofNat ('a'.toNat + (n - 10))

/-- A character inside a string. -/
def escape (c : Char) : List Char :=
  if c = '"' then ['\\', '"']
  else if c = '\\' then ['\\', '\\']
  else if c = '\x08' then ['\\', 'b']
  else if c = '\x0c' then ['\\', 'f']
  else if c = '\n' then ['\\', 'n']
  else if c = '\r' then ['\\', 'r']
  else if c = '\t' then ['\\', 't']
  else if c.toNat < 0x20 then
    ['\\', 'u', '0', '0', hexDigit (c.toNat / 16), hexDigit (c.toNat % 16)]
  else [c]

/-- A quoted string. -/
def quote (s : String) : List Char :=
  '"' :: s.toList.flatMap escape ++ ['"']

/-- The written form of a numeral. -/
def printNumeral (n : Numeral) : List Char :=
  let digits := fun (ds : List Nat) => ds.map fun d => Char.ofNat ('0'.toNat + d)
  (if n.negative then ['-'] else []) ++ digits n.whole ++
    (match n.fraction with
      | none => []
      | some ds => '.' :: digits ds) ++
    (match n.exponent with
      | none => []
      | some (negative, ds) => 'e' :: (if negative then ['-'] else []) ++ digits ds)

mutual

/-- The written form of a value. -/
def print : Json → List Char
  | .null => "null".toList
  | .bool true => "true".toList
  | .bool false => "false".toList
  | .number n => printNumeral n
  | .string s => quote (s.getD "")
  | .array items => '[' :: printItems items ++ [']']
  | .object members => '{' :: printMembers members ++ ['}']

/-- The items of an array, separated by commas. -/
def printItems : List Json → List Char
  | [] => []
  | [item] => print item
  | item :: rest => print item ++ ',' :: printItems rest

/-- The members of an object, separated by commas. -/
def printMembers : List (Option String × Json) → List Char
  | [] => []
  | [m] => printMember m
  | m :: rest => printMember m ++ ',' :: printMembers rest

/-- A member: its key, a colon and its value. -/
def printMember : Option String × Json → List Char
  | (key, value) => quote (key.getD "") ++ ':' :: print value

end

/-- The document as a text. -/
def render (json : Json) : String :=
  String.ofList json.print

end Colloquy.Json
