import Colloquy.Text.Invisible

/-!
# Quotations

A quotation shows a text unambiguously on one line: between double quotes, with quotes, backslashes
and characters that show nothing of their own escaped.
-/

namespace Colloquy.Text

/-- A character by its number. -/
def escapeCode (c : Char) : List Char :=
  '\\' :: 'u' :: '{' :: Nat.toDigits 16 c.toNat ++ ['}']

/-- A character inside a quotation. -/
def escapeQuoted (c : Char) : List Char :=
  match c with
  | '\x00' => ['\\', '0']
  | '\t' => ['\\', 't']
  | '\n' => ['\\', 'n']
  | '\r' => ['\\', 'r']
  | '"' => ['\\', '"']
  | '\\' => ['\\', '\\']
  | c => if isInvisible c then escapeCode c else [c]

/-- A text as a quotation. -/
def quoted (s : String) : String :=
  String.ofList ('"' :: s.toList.flatMap escapeQuoted ++ ['"'])

end Colloquy.Text
