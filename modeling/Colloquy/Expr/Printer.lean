import Colloquy.Expr.Basic
import Colloquy.Text.Alphanumeric

/-!
# Writing expressions

`Expr.print` writes a tree in the source form that both grammars read.  A literal stands bare when
it consists of alphanumeric characters, spaces, apostrophes and points, and between backticks
otherwise; slashes inside a raw pattern are preceded by backslashes.
-/

namespace Colloquy.Expr

/-- The mark around quoted literals. -/
def backtick : Char := '\x60'

/-- A character that a literal may hold and still stand bare. -/
def isBareChar (c : Char) : Bool :=
  Text.isAlphanumeric c || c == ' ' || c == '\'' || c == '.'

/-- A literal: bare if possible, quoted otherwise. -/
def printLiteral (cs : List Char) : List Char :=
  if !cs.isEmpty && cs.all isBareChar then cs else backtick :: cs ++ [backtick]

/-- A raw pattern between its slashes. -/
def printRaw (cs : List Char) : List Char :=
  '/' :: (cs.flatMap fun c => if c = '/' then ['\\', '/'] else [c]) ++ ['/']

mutual

/-- The source form of a tree. -/
def print : Expr → List Char
  | literal text => printLiteral text.toList
  | flexible items => '[' :: printItems items ++ [']']
  | rigid items => '[' :: '!' :: printItems items ++ [']']
  | conjunction items => '<' :: printItems items ++ ['>']
  | disjunction items => '{' :: printItems items ++ ['}']
  | optional body => body.print ++ ['?']
  | star body => body.print ++ ['*']
  | plus body => body.print ++ ['+']
  | negation body => '-' :: body.print
  | raw pattern => printRaw pattern.toList
  | reference name => '$' :: name.toList
  | assignment name value => '$' :: name.toList ++ '=' :: value.print
  | call name [] => '#' :: name.toList
  | call name args => '#' :: name.toList ++ '(' :: printItems args ++ [')']

/-- The items of a list, separated by a comma and a space. -/
def printItems : List Expr → List Char
  | [] => []
  | [item] => item.print
  | item :: items => item.print ++ ',' :: ' ' :: printItems items

end

/-- The source form of a tree as a text. -/
def render (e : Expr) : String :=
  String.ofList e.print

end Colloquy.Expr
