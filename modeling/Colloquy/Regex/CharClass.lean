import Colloquy.Text.Blank
import Colloquy.Text.Digit
import Colloquy.Text.Fold
import Colloquy.Text.Letter
import Colloquy.Text.WordChar

/-!
# Character classes of regular expressions

A class is a list of items, possibly negated.  Classes written in brackets, and the classes of a
Unicode property, are read without regard to case: such a class holds a character when it holds one
that is equal up to case.  The one-letter classes such as `\w` are taken as they are.
-/

namespace Colloquy.Regex

/-- A property that a class can name. -/
inductive CharProperty
  | word
  | digit
  | space
  | letter
  | hexDigit
  deriving DecidableEq, Repr

/-- The character has the property. -/
def CharProperty.holds : CharProperty → Char → Bool
  | word, c => Text.isWordChar c
  | digit, c => Text.isDecimalDigit c
  | space, c => Text.isBlank c
  | letter, c => Text.isLetter c
  | hexDigit, c => c.isDigit || ('a' ≤ c && c ≤ 'f') || ('A' ≤ c && c ≤ 'F')

/-- A part of a class: a range of characters, or a property or its complement. -/
inductive ClassItem
  | range (first last : Char)
  | property (p : CharProperty) (negated : Bool)
  deriving DecidableEq, Repr

/-- The item holds exactly this character. -/
def ClassItem.holds : ClassItem → Char → Bool
  | range first last, c => first ≤ c && c ≤ last
  | property p negated, c => p.holds c != negated

/-- A class: the union of its items, complemented if `negated`, after closing it under case if
`folded`. -/
structure CharClass where
  items : List ClassItem
  negated : Bool
  folded : Bool
  deriving DecidableEq, Repr

namespace CharClass

/-- The characters that fold to the same character as `c`. -/
def caseVariants (c : Char) : List Char :=
  let target := Text.fold c
  target :: Text.foldMap.filterMap fun run =>
    let source := ((target.toNat : Int) - run.shift).toNat
    if run.first ≤ source ∧ source ≤ run.last ∧ (source - run.first) % run.stride = 0 then
      some (Char.ofNat source)
    else none

/-- The class contains the character. -/
def contains (cls : CharClass) (c : Char) : Bool :=
  let candidates := if cls.folded then c :: caseVariants c else [c]
  (candidates.any fun d => cls.items.any (·.holds d)) != cls.negated

/-- The class of one property, outside brackets. -/
def ofProperty (p : CharProperty) (negated : Bool) : CharClass :=
  ⟨[.property p false], negated, false⟩

end CharClass

end Colloquy.Regex
