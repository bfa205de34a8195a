import Colloquy.Regex.Buildable

/-!
# Reading pattern text

`Regex.read?` gives the meaning of a raw pattern, or nothing if it is malformed.  It knows literals,
escapes, bracketed classes with ranges and named ASCII classes, the property `\p{L}`, groups of all
kinds, alternatives, anchors, greedy, lazy and possessive repetitions, look-arounds, conditions,
back-references by number and by name, and the flags `i` and `s`, which change nothing here.

A look-behind needs a body of one length, or alternatives of one length each.  A repetition mark
that is not a well-formed `{…}` stands for itself.

Groups are numbered in the order in which they open.  A name refers to the latest group opened
under it.
-/

namespace Colloquy.Regex

/-- What is left to read, the number of groups opened so far, and the names among them. -/
structure Reading where
  rest : List Char
  opened : Nat
  names : List (String × Nat)

namespace Reading

/-- The same with another rest. -/
def past (st : Reading) (rest : List Char) : Reading := { st with rest }

end Reading

/-! ### Characters and numbers -/

/-- Leading decimal digits as a number. -/
def readNat? (cs : List Char) : Option (Nat × List Char) :=
  match cs.takeWhile Char.isDigit with
  | [] => none
  | ds => some (ds.foldl (fun n d => n * 10 + (d.toNat - '0'.toNat)) 0, cs.dropWhile Char.isDigit)

/-- The value of a hexadecimal digit. -/
def hexValue? (c : Char) : Option Nat :=
  if c.isDigit then some (c.toNat - '0'.toNat)
  else if 'a' ≤ c ∧ c ≤ 'f' then some (c.toNat - 'a'.toNat + 10)
  else if 'A' ≤ c ∧ c ≤ 'F' then some (c.toNat - 'A'.toNat + 10)
  else none

/-- The character with a hexadecimal code point: `width` digits, or any number in braces. -/
def readHex? (width : Nat) (cs : List Char) : Option (Char × List Char) :=
  let (digits, rest) := match cs with
    | '{' :: more => (more.takeWhile (· != '}'), (more.dropWhile (· != '}')).drop 1)
    | _ => (cs.take width, cs.drop width)
  if digits.isEmpty || cs.length < width then none
  else do
    let code ← digits.foldlM (fun n d => return n * 16 + (← hexValue? d)) 0
    if h : code.isValidChar then some (Char.ofNatAux code h, rest) else none

/-- A repetition count after its opening brace. -/
def readCount? (cs : List Char) : Option ((Nat × Option Nat) × List Char) :=
  let afterLeast (least : Nat) (cs : List Char) : Option ((Nat × Option Nat) × List Char) :=
    match cs with
    | '}' :: rest => some ((least, some least), rest)
    | ',' :: rest =>
      match readNat? rest with
      | some (most, '}' :: rest) => some ((least, some most), rest)
      | some _ => none
      | none =>
        match rest with
        | '}' :: rest => some ((least, none), rest)
        | _ => none
    | _ => none
  match cs with
  | ',' :: _ => afterLeast 0 cs
  | _ => (readNat? cs).bind fun (least, rest) => afterLeast least rest

/-- A name up to its closing character. -/
def readName? (close : Char) (cs : List Char) : Option (String × List Char) :=
  let isNameChar := fun (c : Char) => c.isAlphanum || c == '_'
  match cs.takeWhile isNameChar, cs.dropWhile isNameChar with
  | name@(first :: _), c :: rest =>
    if c == close && !first.isDigit then some (String.ofList name, rest) else none
  | _, _ => none

/-! ### Classes -/

/-- A property named by `\p`. -/
def readProperty? (cs : List Char) : Option (CharProperty × List Char) :=
  match cs with
  | '{' :: more =>
    let rest := (more.dropWhile (· != '}')).drop 1
    match String.ofList (more.takeWhile (· != '}')) with
    | "L" | "Letter" | "letter" => some (.letter, rest)
    | "Nd" | "Decimal_Number" => some (.digit, rest)
    | "White_Space" => some (.space, rest)
    | _ => none
  | 'L' :: rest => some (.letter, rest)
  | _ => none

/-- A class of one letter, after its backslash. -/
def readLetterClass? (cs : List Char) : Option ((CharProperty × Bool) × List Char) :=
  match cs with
  | 'd' :: rest => some ((.digit, false), rest)
  | 'D' :: rest => some ((.digit, true), rest)
  | 'w' :: rest => some ((.word, false), rest)
  | 'W' :: rest => some ((.word, true), rest)
  | 's' :: rest => some ((.space, false), rest)
  | 'S' :: rest => some ((.space, true), rest)
  | 'h' :: rest => some ((.hexDigit, false), rest)
  | 'H' :: rest => some ((.hexDigit, true), rest)
  | _ => none

/-- An escape that stands for one character, after its backslash. -/
def readCharEscape? (cs : List Char) : Option (Char × List Char) :=
  match cs with
  | 'a' :: rest => some ('\x07', rest)
  | 'e' :: rest => some ('\x1b', rest)
  | 'f' :: rest => some ('\x0c', rest)
  | 'n' :: rest => some ('\n', rest)
  | 'r' :: rest => some ('\r', rest)
  | 't' :: rest => some ('\t', rest)
  | 'v' :: rest => some ('\x0b', rest)
  | 'x' :: rest => readHex? 2 rest
  | 'u' :: rest => readHex? 4 rest
  | 'U' :: rest => readHex? 8 rest
  | c :: rest => if 0x20 ≤ c.toNat && c.toNat < 0x80 && !c.isAlphanum then some (c, rest) else none
  | [] => none

/-- The ranges of a named ASCII class. -/
def asciiClass? (name : String) : Option (List (Char × Char)) :=
  match name with
  | "alnum" => some [('0', '9'), ('A', 'Z'), ('a', 'z')]
  | "alpha" => some [('A', 'Z'), ('a', 'z')]
  | "ascii" => some [('\x00', '\x7f')]
  | "blank" => some [('\t', '\t'), (' ', ' ')]
  | "cntrl" => some [('\x00', '\x1f'), ('\x7f', '\x7f')]
  | "digit" => some [('0', '9')]
  | "graph" => some [('!', '~')]
  | "lower" => some [('a', 'z')]
  | "print" => some [(' ', '~')]
  | "punct" => some [('!', '/'), (':', '@'), ('[', '\x60'), ('{', '~')]
  | "space" => some [('\t', '\r'), (' ', ' ')]
  | "upper" => some [('A', 'Z')]
  | "word" => some [('0', '9'), ('A', 'Z'), ('_', '_'), ('a', 'z')]
  | "xdigit" => some [('0', '9'), ('A', 'F'), ('a', 'f')]
  | _ => none

/-- One item of a bracketed class that is not a range: its parts, and the character if it is one. -/
def readItem? (cs : List Char) : Option ((List ClassItem × Option Char) × List Char) :=
  match cs with
  | '\\' :: 'p' :: rest =>
    (readProperty? rest).map fun (p, rest) => (([.property p false], none), rest)
  | '\\' :: 'P' :: rest =>
    (readProperty? rest).map fun (p, rest) => (([.property p true], none), rest)
  | '\\' :: rest =>
    match readLetterClass? rest with
    | some ((p, negated), rest) => some (([.property p negated], none), rest)
    | none => (readCharEscape? rest).map fun (c, rest) => (([.range c c], some c), rest)
  | '[' :: ':' :: rest =>
    match rest.takeWhile Char.isAlpha, rest.dropWhile Char.isAlpha with
    | name, ':' :: ']' :: rest =>
      (asciiClass? (String.ofList name)).map fun ranges =>
        ((ranges.map fun (a, b) => .range a b, none), rest)
    | _, _ => none
  | '[' :: _ => none
  | c :: rest => some (([.range c c], some c), rest)
  | [] => none

/-- The items of a bracketed class through its closing bracket; `fuel` bounds their number. -/
def readItems? : Nat → List Char → Option (List ClassItem × List Char)
  | 0, _ => none
  | fuel + 1, cs =>
    match cs with
    | ']' :: rest => some ([], rest)
    | _ => do
      let ((items, single), rest) ← readItem? cs
      match single, rest with
      | some first, '-' :: next :: more =>
        if next == ']' || next == '-' then
          let (others, rest) ← readItems? fuel rest
          return (items ++ others, rest)
        else
          let ((_, last), rest) ← readItem? (next :: more)
          let last ← last
          if first ≤ last then
            let (others, rest) ← readItems? fuel rest
            return (.range first last :: others, rest)
          else none
      | _, _ =>
        let (others, rest) ← readItems? fuel rest
        return (items ++ others, rest)

/-- A bracketed class after its opening bracket.  A closing bracket that comes first is an item. -/
def readClass? (cs : List Char) : Option (CharClass × List Char) := do
  let (negated, cs) := match cs with
    | '^' :: rest => (true, rest)
    | _ => (false, cs)
  let (first, cs) := match cs with
    | ']' :: rest => ([ClassItem.range ']' ']'], rest)
    | _ => ([], cs)
  let (items, rest) ← readItems? (cs.length + 1) cs
  return (⟨first ++ items, negated, true⟩, rest)

/-! ### Escapes and look-behinds -/

/-- An escape outside brackets, after its backslash. -/
def readEscape? (st : Reading) : Option (Regex × Reading) :=
  match st.rest with
  | 'k' :: '<' :: rest => do
    let (name, rest) ← readName? '>' rest
    let k ← st.names.lookup name
    return (.backref (.named name k), st.past rest)
  | 'A' :: rest => some (.anchor .start, st.past rest)
  | 'z' :: rest => some (.anchor .stop, st.past rest)
  | 'b' :: rest => some (.anchor .wordEdge, st.past rest)
  | 'B' :: rest => some (.anchor .noWordEdge, st.past rest)
  | 'p' :: rest =>
    (readProperty? rest).map fun (p, rest) => (.set ⟨[.property p false], false, true⟩, st.past rest)
  | 'P' :: rest =>
    (readProperty? rest).map fun (p, rest) => (.set ⟨[.property p false], true, true⟩, st.past rest)
  | cs =>
    match readNat? cs with
    | some (n, rest) => if n = 0 then none else some (.backref (.plain n), st.past rest)
    | none =>
      match readLetterClass? cs with
      | some ((p, negated), rest) => some (.set (.ofProperty p negated), st.past rest)
      | none => (readCharEscape? cs).map fun (c, rest) => (.char c, st.past rest)

/-- The number of characters that every match of the expression has, if that is one number. -/
def width? : Regex → Option Nat
  | empty | anchor _ | ahead .. | behind .. | captured _ => some 0
  | char _ | any | set _ => some 1
  | seq a b => do return (← a.width?) + (← b.width?)
  | alt a b => do if (← a.width?) = (← b.width?) then a.width? else none
  | group r | capture _ r | atomic r | embedded _ r => r.width?
  | loop r least most _ => if most = some least then (r.width?).map (· * least) else none
  | backref _ | conditional .. | unreadable _ => none

/-- The alternatives of an expression. -/
def alternatives : Regex → List Regex
  | alt a b => a :: b.alternatives
  | group r => r.alternatives
  | r => [r]

/-- A look-behind at a body. -/
def lookBehind? (negated : Bool) (body : Regex) : Option Regex :=
  match body.width? with
  | some width => some (.behind negated width body)
  | none => do
    let each ← body.alternatives.mapM fun r => return .behind negated (← r.width?) r
    return .group (if negated then concat each else oneOf each)

/-! ### Patterns -/

/-- A condition asks whether a group has captured something. -/
def asksForGroup : List Char → Bool
  | c :: _ => c.isDigit || c == '<'
  | [] => false

/-- A group by number, or by name in angle brackets. -/
def readGroup? (st : Reading) : Option (Label × List Char) :=
  match st.rest with
  | '<' :: rest => do
    let (name, rest) ← readName? '>' rest
    let k ← st.names.lookup name
    return (.named name k, rest)
  | cs => do
    let (n, rest) ← readNat? cs
    if n = 0 then none else return (.plain n, rest)

/-- A condition on a group through its closing parenthesis. -/
def readGroupCondition? (st : Reading) : Option (Regex × Reading) := do
  let (label, rest) ← readGroup? st
  match rest with
  | ')' :: rest => return (.captured label, st.past rest)
  | _ => none

/-- What follows from a condition: `yes|no`, or just what follows if it holds.  A condition from
which nothing follows either way stands for itself. -/
def follow (condition : Regex) : Regex → Regex
  | .alt .empty .empty | .empty => condition
  | .alt yes no => .conditional condition yes no
  | yes => .conditional condition yes .empty

mutual

/-- Alternatives, up to a closing parenthesis or the end. -/
def readAlternatives? : Nat → Reading → Option (Regex × Reading)
  | 0, _ => none
  | fuel + 1, st => do
    let (first, st) ← readBranch? fuel st
    match st.rest with
    | '|' :: rest =>
      let (others, st) ← readAlternatives? fuel (st.past rest)
      return (.alt first others, st)
    | _ => return (first, st)

/-- Expressions one after the other. -/
def readBranch? : Nat → Reading → Option (Regex × Reading)
  | 0, _ => none
  | fuel + 1, st =>
    match st.rest with
    | [] | '|' :: _ | ')' :: _ => some (.empty, st)
    | _ => do
      let (first, st) ← readPiece? fuel st
      let (others, st) ← readBranch? fuel st
      return (.seq first others, st)

/-- An expression with its repetition mark. -/
def readPiece? : Nat → Reading → Option (Regex × Reading)
  | 0, _ => none
  | fuel + 1, st => do
    let (body, st) ← readAtom? fuel st
    let count := match st.rest with
      | '?' :: rest => some ((0, some 1), rest)
      | '*' :: rest => some ((0, none), rest)
      | '+' :: rest => some ((1, none), rest)
      | '{' :: rest => readCount? rest
      | _ => none
    match count with
    | none => return (body, st)
    | some ((least, most), rest) =>
      if most.any (· < least) then none
      else
        let (greedy, rest) := match rest with
          | '?' :: rest => (false, rest)
          | _ => (true, rest)
        match rest with
        | '+' :: rest => return (.atomic (.loop body least most greedy), st.past rest)
        | _ => return (.loop body least most greedy, st.past rest)

/-- An expression without its repetition mark; a repetition mark in its place is an error. -/
def readAtom? : Nat → Reading → Option (Regex × Reading)
  | 0, _ => none
  | fuel + 1, st =>
    match st.rest with
    | [] => none
    | '(' :: '?' :: rest =>
      match rest with
      | '=' :: rest => do
        let (body, st) ← readClosed? fuel (st.past rest)
        return (.ahead false body, st)
      | '!' :: rest => do
        let (body, st) ← readClosed? fuel (st.past rest)
        return (.ahead true body, st)
      | '<' :: '=' :: rest => do
        let (body, st) ← readClosed? fuel (st.past rest)
        return (← lookBehind? false body, st)
      | '<' :: '!' :: rest => do
        let (body, st) ← readClosed? fuel (st.past rest)
        return (← lookBehind? true body, st)
      | '>' :: rest => do
        let (body, st) ← readClosed? fuel (st.past rest)
        return (.group (.atomic body), st)
      | '(' :: rest => do
        let (condition, st) ← (if asksForGroup rest then readGroupCondition? (st.past rest)
          else readClosed? fuel (st.past rest))
        let (body, st) ← readClosed? fuel st
        return (.group (follow condition body), st)
      | '<' :: rest => readNamed? fuel (readName? '>' rest) st
      | 'P' :: '<' :: rest => readNamed? fuel (readName? '>' rest) st
      | 'P' :: '=' :: rest => do
        let (name, rest) ← readName? ')' rest
        let k ← st.names.lookup name
        return (.backref (.named name k), st.past rest)
      | _ =>
        let isFlag := fun (c : Char) => c == 'i' || c == 's'
        match rest.dropWhile isFlag with
        | ':' :: rest => do
          let (body, st) ← readClosed? fuel (st.past rest)
          return (.group body, st)
        | ')' :: after =>
          if (rest.takeWhile isFlag).isEmpty then none else some (.empty, st.past after)
        | _ => none
    | '(' :: rest => do
      let k := st.opened + 1
      let (body, st) ← readClosed? fuel { st with rest, opened := k }
      return (.capture (.plain k) body, st)
    | '[' :: rest => (readClass? rest).map fun (cls, rest) => (.set cls, st.past rest)
    | '\\' :: rest => readEscape? (st.past rest)
    | '.' :: rest => some (.any, st.past rest)
    | '^' :: rest => some (.anchor .start, st.past rest)
    | '$' :: rest => some (.anchor .stop, st.past rest)
    | '?' :: _ | '*' :: _ | '+' :: _ => none
    | c :: rest => some (.char c, st.past rest)

/-- The inside of a group with a name. -/
def readNamed? : Nat → Option (String × List Char) → Reading → Option (Regex × Reading)
  | 0, _, _ => none
  | _, none, _ => none
  | fuel + 1, some (name, rest), st => do
    let k := st.opened + 1
    let (body, st) ← readClosed? fuel ⟨rest, k, (name, k) :: st.names⟩
    return (.capture (.named name k) body, st)

/-- The inside of a group through its closing parenthesis. -/
def readClosed? : Nat → Reading → Option (Regex × Reading)
  | 0, _ => none
  | fuel + 1, st => do
    let (body, st) ← readAlternatives? fuel st
    match st.rest with
    | ')' :: rest => return (body, st.past rest)
    | _ => none

end

/-- A reference by number names a group that exists. -/
def numbersExist (r : Regex) : Bool :=
  r.references.all fun
    | .plain n => n ≤ r.labels.length
    | _ => true

/-- The meaning of a raw pattern. -/
def read? (source : String) : Option Regex :=
  let cs := source.toList
  match readAlternatives? (6 * cs.length + 6) ⟨cs, 0, []⟩ with
  | some (r, st) =>
    if st.rest.isEmpty && r.buildable && r.numbersExist then some r else none
  | none => none

end Colloquy.Regex
