import Colloquy.Regex.Basic
import Colloquy.Text.Alphanumeric
import Colloquy.Text.Words

/-!
# Pattern fragments

The regular expressions that the parts of a matching expression stand for.  Words of a literal may
be any blanks apart; where a literal begins or ends with an alphanumeric character or an
underscore, a word has to begin or end as well.
-/

namespace Colloquy.Matching

open Regex (concat chars)

/-- Any text, as little as possible. -/
def filler : Regex := .loop .any 0 none false

/-- Anything between words, as much as possible. -/
def connective : Regex := .loop (.set (.ofProperty .word true)) 0 none true

/-- Blanks between the words of a literal. -/
def spacing : Regex := .loop (.set (.ofProperty .space false)) 1 none true

/-- What never matches. -/
def unmatchable : Regex := .seq (.ahead true (.char 'x')) (.char 'x')

/-- A character at which a literal asks for the edge of a word. -/
def isEdgeChar (c : Char) : Bool :=
  Text.isAlphanumeric c || c == '_'

/-- The edge of a word, if the character asks for it. -/
def edgeAt : Option Char → List Regex
  | some c => if isEdgeChar c then [.anchor .wordEdge] else []
  | none => []

/-- A literal text; a blank text is nothing. -/
def literal (text : String) : Regex :=
  match Text.words text.toList with
  | [] => .empty
  | first :: others =>
    let words := first :: others
    concat (edgeAt first.head? ++ (words.map chars).intersperse spacing ++
      edgeAt (words.getLast?.bind List.getLast?))

/-- Items with any text before, between and after them. -/
def flexible (items : List Regex) : Regex :=
  if items.isEmpty then filler
  else concat (filler :: items.intersperse filler ++ [filler])

/-- Items with nothing but punctuation and blanks between them. -/
def rigid (items : List Regex) : Regex :=
  concat (items.intersperse connective)

/-- Items each of which occurs somewhere from here on; any text is consumed. -/
def conjunction (items : List Regex) : Regex :=
  concat (items.map (fun r => .ahead false (.seq filler r)) ++ [filler])

/-- One of the items. -/
def disjunction (items : List Regex) : Regex :=
  if items.isEmpty then unmatchable else .group (.oneOf items)

/-- The body or nothing. -/
def optional (body : Regex) : Regex :=
  .loop (.group body) 0 (some 1) true

/-- A text in which the body does not occur from here on. -/
def negation (body : Regex) : Regex :=
  .seq (.ahead true (.seq filler body)) filler

/-- The body, and then the second form of it any number of times, with connectives between. -/
def repeated (body again : Regex) : Regex :=
  .seq body (.loop (.group (.seq connective again)) 0 none true)

/-- The body one or more times, each after a connective. -/
def repeatedCapturing (body : Regex) : Regex :=
  .loop (.group (.seq connective body)) 1 none true

end Colloquy.Matching
