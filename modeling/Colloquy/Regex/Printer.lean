import Colloquy.Regex.Basic

/-!
# Pattern text

`Regex.print` writes an expression as a pattern.  A character that means something in a pattern is
preceded by a backslash; an assignment's group is named `g` and its number; an embedded pattern
stands between `(?:` and `)` with its own spelling.
-/

namespace Colloquy.Regex

/-- The characters that mean something in a pattern. -/
def isSpecial (c : Char) : Bool :=
  ['\\', '.', '+', '*', '?', '(', ')', '|', '[', ']', '{', '}', '^', '$'].contains c

/-- A character standing for itself. -/
def printChar (c : Char) : List Char :=
  if isSpecial c then ['\\', c] else [c]

/-- A one-letter class, in the other case when negated. -/
def printProperty : CharProperty → Bool → List Char
  | .word, false => ['\\', 'w']
  | .word, true => ['\\', 'W']
  | .digit, false => ['\\', 'd']
  | .digit, true => ['\\', 'D']
  | .space, false => ['\\', 's']
  | .space, true => ['\\', 'S']
  | .hexDigit, false => ['\\', 'h']
  | .hexDigit, true => ['\\', 'H']
  | .letter, false => ['\\', 'p', 'L']
  | .letter, true => ['\\', 'P', 'L']

/-- An item inside brackets. -/
def printItem : ClassItem → List Char
  | .range first last => printChar first ++ '-' :: printChar last
  | .property p negated => printProperty p negated

/-- A class. -/
def printClass (cls : CharClass) : List Char :=
  match cls with
  | ⟨[.property p false], negated, false⟩ => printProperty p negated
  | ⟨items, negated, _⟩ =>
    '[' :: (if negated then ['^'] else []) ++ items.flatMap printItem ++ [']']

/-- A condition on the position. -/
def printAnchor : Anchor → List Char
  | .start => ['^']
  | .stop => ['$']
  | .wordEdge => ['\\', 'b']
  | .noWordEdge => ['\\', 'B']

/-- A number in decimal. -/
def printNat (n : Nat) : List Char :=
  Nat.toDigits 10 n

/-- How a repetition is marked. -/
def printCount (least : Nat) (most : Option Nat) (greedy : Bool) : List Char :=
  (match least, most with
    | 0, some 1 => ['?']
    | 0, none => ['*']
    | 1, none => ['+']
    | n, none => '{' :: printNat n ++ [',', '}']
    | n, some m => if n = m then '{' :: printNat n ++ ['}']
        else '{' :: printNat n ++ ',' :: printNat m ++ ['}']) ++
    (if greedy then [] else ['?'])

/-- The name of the group of the `i`-th assignment to complete. -/
def groupName (i : Nat) : List Char :=
  'g' :: printNat i

/-- A group as a condition refers to it. -/
def printReference : Label → List Char
  | .assigned i => '<' :: groupName i ++ ['>']
  | .named name _ => '<' :: name.toList ++ ['>']
  | .plain k => printNat k

/-- An expression as a pattern. -/
def print : Regex → List Char
  | empty => []
  | char c => printChar c
  | any => ['.']
  | set cls => printClass cls
  | anchor a => printAnchor a
  | seq a b => a.print ++ b.print
  | alt a b => a.print ++ '|' :: b.print
  | group r => "(?:".toList ++ r.print ++ [')']
  | capture (.assigned i) r => "(?P<".toList ++ groupName i ++ '>' :: r.print ++ [')']
  | capture (.named name _) r => "(?P<".toList ++ name.toList ++ '>' :: r.print ++ [')']
  | capture (.plain _) r => '(' :: r.print ++ [')']
  | ahead false r => "(?=".toList ++ r.print ++ [')']
  | ahead true r => "(?!".toList ++ r.print ++ [')']
  | behind false _ r => "(?<=".toList ++ r.print ++ [')']
  | behind true _ r => "(?<!".toList ++ r.print ++ [')']
  | backref (.assigned i) => "\\k<".toList ++ groupName i ++ ['>']
  | backref (.named name _) => "\\k<".toList ++ name.toList ++ ['>']
  | backref (.plain k) => '\\' :: printNat k
  | captured l => "(?(".toList ++ printReference l ++ "))".toList
  | atomic r => "(?>".toList ++ r.print ++ [')']
  | conditional c a b =>
    "(?(".toList ++ c.print ++ ')' :: a.print ++ '|' :: b.print ++ [')']
  | loop r least most greedy => r.print ++ printCount least most greedy
  | embedded source _ | unreadable source => "(?:".toList ++ source.toList ++ [')']

end Colloquy.Regex
