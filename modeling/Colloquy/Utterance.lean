import Colloquy.SortedMap
import Colloquy.Text.Case
import Colloquy.Text.WordChar
import Colloquy.Text.Words

/-!
# Utterances

An `Utterance` is what a speaker said, scanned once: the text as received, the text in lower case
with its words spaced singly, its tokens (runs of word characters and apostrophes), and the set of
phrases of up to `maxPhrase` tokens.

`contains` asks whether a phrase occurs as a contiguous run of tokens, whatever its length: up to
`maxPhrase` tokens the phrase set answers, beyond it the tokens are searched.
-/

namespace Colloquy

/-- A scanned utterance. -/
structure Utterance where
  raw : String
  text : String
  tokens : List String
  phrases : SortedSet String
  maxPhrase : Nat

namespace Utterance

/-- The length of phrases that is looked up when nothing else is asked for. -/
def defaultMaxPhrase : Nat := 4

/-- Tokens are made of word characters and apostrophes. -/
def isTokenChar (c : Char) : Bool :=
  Text.isWordChar c || c == '\''

/-- The tokens of a text, each in lower case. -/
def tokenize (text : String) : List String :=
  (Text.runs isTokenChar text.toList).map fun run => Text.lowercase (String.ofList run)

/-- The contiguous runs of `n` items. -/
def windows {α : Type} (n : Nat) : List α → List (List α)
  | [] => if n = 0 then [[]] else []
  | x :: xs => if (x :: xs).length < n then [] else (x :: xs).take n :: windows n xs

/-- The tokens as one phrase. -/
def phrase (tokens : List String) : String :=
  String.intercalate " " tokens

/-- Scans what was said; phrases hold at least one token. -/
def scan (raw : String) (maxPhrase : Nat) : Utterance :=
  let text := Text.lowercase (Text.collapse raw)
  let tokens := tokenize text
  let maxPhrase := max maxPhrase 1
  let lengths := List.range' 1 (min maxPhrase tokens.length)
  let phrases := lengths.flatMap fun n => (windows n tokens).map phrase
  { raw, text, tokens, phrases := SortedSet.ofList phrases, maxPhrase }

/-- The utterance of a turn in which nobody spoke. -/
def silence : Utterance :=
  scan "" defaultMaxPhrase

/-- The phrase occurs as a contiguous run of tokens; a phrase without tokens does not. -/
def contains (u : Utterance) (sought : String) : Bool :=
  let needle := tokenize sought
  if needle.isEmpty then false
  else if needle.length ≤ u.maxPhrase then SortedMap.contains u.phrases (phrase needle)
  else (windows needle.length u.tokens).contains needle

/-- The utterance has no tokens. -/
def isEmpty (u : Utterance) : Bool :=
  u.tokens.isEmpty

end Utterance

end Colloquy
