import Colloquy.Json.Basic

/-!
# Reading JSON

The reader is strict: no comments, no trailing commas, no leading zeros, no bare control
characters in strings, and nothing but white space around the document.  Nesting is bounded by the
length of the text, which serves as the measure of the recursion.
-/

namespace Colloquy.Json

/-- White space between tokens. -/
def isSpace (c : Char) : Bool :=
  c == ' ' || c == '\n' || c == '\t' || c == '\r'

/-- Drops leading white space. -/
def skipSpace (cs : List Char) : List Char :=
  cs.dropWhile isSpace

/-! ### Numbers -/

/-- The leading digits, by value, and what follows them. -/
def digits (cs : List Char) : List Nat × List Char :=
  ((cs.takeWhile Char.isDigit).map fun c => c.toNat - '0'.toNat, cs.dropWhile Char.isDigit)

/-- At least one digit. -/
def digits1 (cs : List Char) : Option (List Nat × List Char) :=
  match digits cs with
  | ([], _) => none
  | found => some found

/-- A whole part: `0`, or digits that do not start with `0`. -/
def whole (cs : List Char) : Option (List Nat × List Char) :=
  match digits cs with
  | ([], _) => none
  | ([0], rest) => some ([0], rest)
  | (0 :: _, _) => none
  | found => some found

/-- A fraction, if a point follows. -/
def fraction (cs : List Char) : Option (Option (List Nat) × List Char) :=
  match cs with
  | '.' :: rest => (digits1 rest).map fun (ds, rest) => (some ds, rest)
  | _ => some (none, cs)

/-- An exponent, if an `e` follows. -/
def exponent (cs : List Char) : Option (Option (Bool × List Nat) × List Char) :=
  match cs with
  | 'e' :: rest | 'E' :: rest =>
    match rest with
    | '-' :: rest => (digits1 rest).map fun (ds, rest) => (some (true, ds), rest)
    | '+' :: rest => (digits1 rest).map fun (ds, rest) => (some (false, ds), rest)
    | _ => (digits1 rest).map fun (ds, rest) => (some (false, ds), rest)
  | _ => some (none, cs)

/-- A number. -/
def numeral (cs : List Char) : Option (Numeral × List Char) := do
  let (negative, cs) := match cs with
    | '-' :: rest => (true, rest)
    | _ => (false, cs)
  let (whole, cs) ← whole cs
  let (fraction, cs) ← fraction cs
  let (exponent, cs) ← exponent cs
  return (⟨negative, whole, fraction, exponent⟩, cs)

/-! ### Strings -/

/-- The value of a hexadecimal digit. -/
def hexDigit? (c : Char) : Option Nat :=
  if c.isDigit then some (c.toNat - '0'.toNat)
  else if 'a' ≤ c ∧ c ≤ 'f' then some (c.toNat - 'a'.toNat + 10)
  else if 'A' ≤ c ∧ c ≤ 'F' then some (c.toNat - 'A'.toNat + 10)
  else none

/-- The code unit spelled by four hexadecimal digits. -/
def hexUnit? (a b c d : Char) : Option Nat := do
  return (((← hexDigit? a) * 16 + (← hexDigit? b)) * 16 + (← hexDigit? c)) * 16 + (← hexDigit? d)

/-- The character that a one-letter escape stands for. -/
def escaped? (c : Char) : Option Char :=
  match c with
  | '"' => some '"'
  | '\\' => some '\\'
  | '/' => some '/'
  | 'b' => some '\x08'
  | 'f' => some '\x0c'
  | 'n' => some '\n'
  | 'r' => some '\r'
  | 't' => some '\t'
  | _ => none

/-- The inside of a string up to its closing quote, as code points and, for `\u` escapes, code
units; and what follows the quote. -/
def units : List Char → Option (List Nat × List Char)
  | [] => none
  | '"' :: rest => some ([], rest)
  | '\\' :: 'u' :: a :: b :: c :: d :: rest => do
    let unit ← hexUnit? a b c d
    let (more, rest) ← units rest
    return (unit :: more, rest)
  | '\\' :: c :: rest => do
    let c ← escaped? c
    let (more, rest) ← units rest
    return (c.toNat :: more, rest)
  | c :: rest =>
    if c.toNat < 0x20 then none
    else do
      let (more, rest) ← units rest
      return (c.toNat :: more, rest)

/-- Joins surrogate pairs; `none` if a surrogate is left over. -/
def ofUnits : List Nat → Option (List Char)
  | [] => some []
  | high :: low :: rest =>
    if 0xD800 ≤ high ∧ high < 0xDC00 then
      if 0xDC00 ≤ low ∧ low < 0xE000 then
        (ofUnits rest).map
          (Char.ofNat (0x10000 + (high - 0xD800) * 0x400 + (low - 0xDC00)) :: ·)
      else none
    else if 0xDC00 ≤ high ∧ high < 0xE000 then none
    else (ofUnits (low :: rest)).map (Char.ofNat high :: ·)
  | [unit] => if 0xD800 ≤ unit ∧ unit < 0xE000 then none else some [Char.ofNat unit]

/-- A string, after its opening quote. -/
def string? (cs : List Char) : Option (Option String × List Char) :=
  (units cs).map fun (us, rest) => ((ofUnits us).map String.ofList, rest)

/-! ### Values -/

mutual

/-- A value, nested at most as deep as the measure. -/
def value? : Nat → List Char → Option (Json × List Char)
  | 0, _ => none
  | n + 1, cs =>
    match cs with
    | 'n' :: 'u' :: 'l' :: 'l' :: rest => some (.null, rest)
    | 't' :: 'r' :: 'u' :: 'e' :: rest => some (.bool true, rest)
    | 'f' :: 'a' :: 'l' :: 's' :: 'e' :: rest => some (.bool false, rest)
    | '"' :: rest => (string? rest).map fun (s, rest) => (.string s, rest)
    | '[' :: rest =>
      match skipSpace rest with
      | ']' :: rest => some (.array [], rest)
      | rest => (items? n rest).map fun (items, rest) => (.array items, rest)
    | '{' :: rest =>
      match skipSpace rest with
      | '}' :: rest => some (.object [], rest)
      | rest => (members? n rest).map fun (members, rest) => (.object members, rest)
    | _ => (numeral cs).map fun (n, rest) => (.number n, rest)

/-- The items of an array through its closing bracket. -/
def items? : Nat → List Char → Option (List Json × List Char)
  | 0, _ => none
  | n + 1, cs => do
    let (item, rest) ← value? n cs
    match skipSpace rest with
    | ',' :: rest =>
      let (more, rest) ← items? n (skipSpace rest)
      return (item :: more, rest)
    | ']' :: rest => return ([item], rest)
    | _ => none

/-- The members of an object through its closing brace. -/
def members? : Nat → List Char → Option (List (Option String × Json) × List Char)
  | 0, _ => none
  | n + 1, cs =>
    match cs with
    | '"' :: rest => do
      let (key, rest) ← string? rest
      match skipSpace rest with
      | ':' :: rest =>
        let (value, rest) ← value? n (skipSpace rest)
        match skipSpace rest with
        | ',' :: rest =>
          let (more, rest) ← members? n (skipSpace rest)
          return ((key, value) :: more, rest)
        | '}' :: rest => return ([(key, value)], rest)
        | _ => none
      | _ => none
    | _ => none

end

/-- The document spelled by a text, `none` if it is malformed. -/
def parse? (source : String) : Option Json :=
  let cs := source.toList
  match value? (cs.length + 1) (skipSpace cs) with
  | some (json, rest) => if (skipSpace rest).isEmpty then some json else none
  | none => none

end Colloquy.Json
