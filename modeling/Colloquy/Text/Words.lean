import Colloquy.Text.Blank

/-!
# Words and spacing

A text splits into the maximal runs of characters of a class (`runs`).  Its words are the runs of
characters that are not blank.  `collapse` joins the words by single spaces, and `trim` removes the
blanks at both ends.
-/

namespace Colloquy.Text

/-- The maximal runs of characters that satisfy `p`, in order. -/
def runs (p : Char → Bool) : List Char → List (List Char)
  | [] => []
  | c :: cs =>
    if p c then
      match cs, runs p cs with
      | d :: _, run :: more => if p d then (c :: run) :: more else [c] :: run :: more
      | _, more => [c] :: more
    else runs p cs

/-- The words of a text. -/
def words (cs : List Char) : List (List Char) :=
  runs (fun c => !isBlank c) cs

/-- The words of a text, joined by single spaces. -/
def collapse (text : String) : String :=
  String.ofList ([' '].intercalate (words text.toList))

/-- Drops the blanks at the front. -/
def trimStart (cs : List Char) : List Char :=
  cs.dropWhile isBlank

/-- Drops the blanks at the end. -/
def trimEnd (cs : List Char) : List Char :=
  (cs.reverse.dropWhile isBlank).reverse

/-- Drops the blanks at both ends. -/
def trim (cs : List Char) : List Char :=
  trimEnd (trimStart cs)

/-- The number of bytes of the characters in UTF-8. -/
def byteLength (cs : List Char) : Nat :=
  cs.foldr (fun c n => c.utf8Size + n) 0

end Colloquy.Text
