import Colloquy.Expr.Basic
import Colloquy.Regex.Engine
import Colloquy.Text.Words

/-!
# Reading expressions

Both grammars share one surface syntax; the grammar decides which characters mean something:

* matching: `[ ] [! { } < > ( ) , $ # / ? * +`, backticks, and a dash in front of a term;
* generation: `[ ] [! { }`, backticks, and `$name` and `#NAME`; a comma only inside brackets and a
  closing parenthesis only inside arguments.  Everything else is text.

Terms next to each other form a rigid sequence.  A tree that holds a kind of node its grammar does
not allow is refused.

The parser works on the characters that are left.  An error keeps the characters that were left
where it was noticed, from which `SyntaxError` takes its position in bytes.  The recursion is
measured by an explicit number; `Parser.enough` is one that a source of a given length never uses
up.
-/

namespace Colloquy

/-- Why a source is no expression. -/
inductive SyntaxReason
  | unexpected (c : Char)
  | unexpectedEnd
  | emptyItem
  | unterminatedList (close : Char)
  | missingName (mark : Char)
  | missingTerm
  | unterminatedQuote
  | unterminatedRaw
  | invalidRaw
  | emptyArgument (name : String)
  | compoundArgument (name : String)
  | argumentKind (name : String) (found : Kind)
  | unterminatedArguments (name : String)
  | disallowed (kind : Kind) (grammar : Grammar)
  /-- The measure of the recursion was used up, which does not happen. -/
  | tooDeep
  deriving DecidableEq, Repr

namespace SyntaxReason

/-- A character between backticks. -/
def quoted (c : Char) : String :=
  String.ofList ['\x60', c, '\x60']

/-- The reason in words. -/
def message : SyntaxReason → String
  | unexpected c => "unexpected " ++ quoted c
  | unexpectedEnd => "unexpected end of expression"
  | emptyItem => "empty item in list"
  | unterminatedList close => "unterminated list, expected " ++ quoted close
  | missingName mark => quoted mark ++ " must be followed by a name"
  | missingTerm => "expected a term"
  | unterminatedQuote => "unterminated quoted literal"
  | unterminatedRaw => "unterminated raw pattern"
  | invalidRaw => "invalid raw pattern"
  | emptyArgument name => "empty argument to #" ++ name
  | compoundArgument name => "argument to #" ++ name ++ " must be a single term"
  | argumentKind name found =>
    "argument to #" ++ name ++
      " must be a literal, a variable reference or a macro call, found " ++ found.describe
  | unterminatedArguments name => "unterminated argument list for #" ++ name
  | disallowed kind grammar =>
    kind.describe ++ " is not allowed in " ++ grammar.describe ++ " expressions"
  | tooDeep => "expression nested too deeply"

end SyntaxReason

/-- A malformed expression: the source, the position in bytes, and what is wrong there. -/
structure SyntaxError where
  grammar : Grammar
  source : String
  position : Nat
  reason : SyntaxReason
  deriving DecidableEq, Repr

namespace SyntaxError

/-- The error in words. -/
def message (e : SyntaxError) : String :=
  e.grammar.describe ++ " expression \x60" ++ e.source ++ "\x60: " ++ e.reason.message ++
    " (at byte " ++ toString e.position ++ ")"

end SyntaxError

namespace Expr.Parser

/-- Where a row of terms ends. -/
inductive Scope
  | top
  | list (close : Char)
  | arguments
  deriving DecidableEq, Repr

/-- What was noticed, and the characters that were left then. -/
structure Failure where
  rest : List Char
  reason : SyntaxReason
  deriving DecidableEq, Repr

/-- A result, and the characters that are left. -/
abbrev Result (α : Type) := Except Failure (α × List Char)

/-! ### Characters -/

/-- A name begins with an ASCII letter or an underscore. -/
def isNameStart (c : Char) : Bool :=
  c.isAlpha || c == '_'

/-- A name goes on with ASCII letters, digits and underscores. -/
def isNameChar (c : Char) : Bool :=
  c.isAlphanum || c == '_'

/-- A name begins here. -/
def startsName (cs : List Char) : Bool :=
  match cs with
  | c :: _ => isNameStart c
  | [] => false

/-- The character ends a row of terms. -/
def Scope.ends : Scope → Char → Bool
  | top, _ => false
  | list close, c => c == ',' || c == close
  | arguments, c => c == ',' || c == ')'

/-- Drops leading blanks. -/
def skipBlank (cs : List Char) : List Char :=
  Text.trimStart cs

/-! ### Terms without parts -/

/-- A bare literal stops at `c`; `afterBlank` says that a blank stands before it, and `rest` is what
follows it. -/
def stopsLiteral (g : Grammar) (scope : Scope) (afterBlank : Bool) (c : Char) (rest : List Char) :
    Bool :=
  scope.ends c ||
    match c with
    | '[' | ']' | '{' | '}' | '\x60' => true
    | '$' | '#' => g == .matching || startsName rest
    | '<' | '>' | '(' | ')' | ',' | '/' | '?' | '*' | '+' => g == .matching
    | '-' => g == .matching && afterBlank
    | _ => false

/-- The characters of a bare literal, and what follows them. -/
def spanLiteral (g : Grammar) (scope : Scope) (afterBlank : Bool) :
    List Char → List Char × List Char
  | [] => ([], [])
  | c :: rest =>
    if stopsLiteral g scope afterBlank c rest then ([], c :: rest)
    else
      let (more, rest) := spanLiteral g scope (Text.isBlank c) rest
      (c :: more, rest)

/-- A bare literal; its words are spaced singly. -/
def bareLiteral (g : Grammar) (scope : Scope) (cs : List Char) : Result Expr :=
  let (text, rest) := spanLiteral g scope false cs
  let text := Text.collapse (String.ofList text)
  if text.isEmpty then .error ⟨rest, .missingTerm⟩ else .ok (.literal text, rest)

/-- A quoted literal after its opening mark. -/
def quotedLiteral (cs : List Char) : Result Expr :=
  match cs.dropWhile (· != '\x60') with
  | [] => .error ⟨[], .unterminatedQuote⟩
  | _ :: rest => .ok (.literal (String.ofList (cs.takeWhile (· != '\x60'))), rest)

/-- The characters of a raw pattern through its closing slash.  A backslash takes the next character
with it, and before a slash it is dropped. -/
def spanRaw : List Char → Option (List Char × List Char)
  | [] => none
  | '/' :: rest => some ([], rest)
  | '\\' :: '/' :: rest => (spanRaw rest).map fun (cs, rest) => ('/' :: cs, rest)
  | '\\' :: c :: rest => (spanRaw rest).map fun (cs, rest) => ('\\' :: c :: cs, rest)
  | c :: rest => (spanRaw rest).map fun (cs, rest) => (c :: cs, rest)

/-- A raw pattern at its opening slash. -/
def rawPattern [Engine] (cs : List Char) : Result Expr :=
  match spanRaw (cs.drop 1) with
  | none => .error ⟨cs, .unterminatedRaw⟩
  | some (text, rest) =>
    let pattern := String.ofList text
    if (Engine.read? pattern).isSome then .ok (.raw pattern, rest) else .error ⟨cs, .invalidRaw⟩

/-- Applies the repetition marks that follow a term. -/
def applyMarks (e : Expr) : List Char → Expr × List Char
  | '?' :: rest => applyMarks (.optional e) rest
  | '*' :: rest => applyMarks (.star e) rest
  | '+' :: rest => applyMarks (.plus e) rest
  | rest => (e, rest)

/-- One term as it is, several as a rigid sequence. -/
def combine : List Expr → Expr
  | [e] => e
  | es => .rigid es

/-- The kinds of terms that may be arguments. -/
def isArgument : Expr → Bool
  | .literal _ | .reference _ | .call .. => true
  | _ => false

/-! ### Terms -/

variable [Engine]

mutual

/-- Terms up to the end of the scope, which is not consumed. -/
def sequence (g : Grammar) (scope : Scope) : Nat → List Char → Result (List Expr)
  | 0, cs => .error ⟨cs, .tooDeep⟩
  | n + 1, cs =>
    match skipBlank cs with
    | [] => .ok ([], [])
    | c :: cs =>
      if scope.ends c then .ok ([], c :: cs)
      else
        match term g scope n (c :: cs) with
        | .error e => .error e
        | .ok (first, rest) =>
          match sequence g scope n rest with
          | .error e => .error e
          | .ok (more, rest) => .ok (first :: more, rest)

/-- A term and its repetition marks. -/
def term (g : Grammar) (scope : Scope) : Nat → List Char → Result Expr
  | 0, cs => .error ⟨cs, .tooDeep⟩
  | n + 1, cs =>
    match atom g scope n cs with
    | .error e => .error e
    | .ok (e, rest) => if g = .matching then .ok (applyMarks e rest) else .ok (e, rest)

/-- A term without repetition marks. -/
def atom (g : Grammar) (scope : Scope) : Nat → List Char → Result Expr
  | 0, cs => .error ⟨cs, .tooDeep⟩
  | _, [] => .error ⟨[], .unexpectedEnd⟩
  | n + 1, c :: rest =>
    if c = '[' then
      match rest with
      | '!' :: rest => (items g ']' n rest).map fun (es, rest) => (.rigid es, rest)
      | _ => (items g ']' n rest).map fun (es, rest) => (.flexible es, rest)
    else if c = '{' then (items g '}' n rest).map fun (es, rest) => (.disjunction es, rest)
    else if c = '<' ∧ g = .matching then
      (items g '>' n rest).map fun (es, rest) => (.conjunction es, rest)
    else if c = '-' ∧ g = .matching then
      (term g scope n (skipBlank rest)).map fun (e, rest) => (.negation e, rest)
    else if c = '/' ∧ g = .matching then rawPattern (c :: rest)
    else if c = '\x60' then quotedLiteral rest
    else if c = '$' ∧ startsName rest then
      let name := String.ofList (rest.takeWhile isNameChar)
      match rest.dropWhile isNameChar with
      | '=' :: rest =>
        (term g scope n (skipBlank rest)).map fun (e, rest) => (.assignment name e, rest)
      | rest => .ok (.reference name, rest)
    else if c = '#' ∧ startsName rest then
      let name := String.ofList (rest.takeWhile isNameChar)
      match rest.dropWhile isNameChar with
      | '(' :: rest =>
        match skipBlank rest with
        | ')' :: rest => .ok (.call name [], rest)
        | rest => (arguments g name n rest).map fun (args, rest) => (.call name args, rest)
      | rest => .ok (.call name [], rest)
    else if (c = '$' ∨ c = '#') ∧ g = .matching then .error ⟨c :: rest, .missingName c⟩
    else if c = ']' ∨ c = '}' then .error ⟨c :: rest, .unexpected c⟩
    else if (c = '>' ∨ c = ')' ∨ c = ',') ∧ g = .matching then .error ⟨c :: rest, .unexpected c⟩
    else bareLiteral g scope (c :: rest)

/-- The items of a list through its closing bracket. -/
def items (g : Grammar) (close : Char) : Nat → List Char → Result (List Expr)
  | 0, cs => .error ⟨cs, .tooDeep⟩
  | n + 1, cs =>
    match sequence g (.list close) n cs with
    | .error e => .error e
    | .ok ([], rest) => .error ⟨rest, .emptyItem⟩
    | .ok (es, rest) =>
      match skipBlank rest with
      | [] => .error ⟨[], .unterminatedList close⟩
      | c :: rest =>
        if c = ',' then
          (items g close n rest).map fun (more, rest) => (combine es :: more, rest)
        else if c = close then .ok ([combine es], rest)
        else .error ⟨rest, .unterminatedList close⟩

/-- The arguments of a call through its closing parenthesis. -/
def arguments (g : Grammar) (name : String) : Nat → List Char → Result (List Expr)
  | 0, cs => .error ⟨cs, .tooDeep⟩
  | n + 1, cs =>
    match sequence g .arguments n cs with
    | .error e => .error e
    | .ok ([], rest) => .error ⟨rest, .emptyArgument name⟩
    | .ok ([arg], rest) =>
      if isArgument arg then
        match skipBlank rest with
        | ',' :: rest => (arguments g name n rest).map fun (more, rest) => (arg :: more, rest)
        | ')' :: rest => .ok ([arg], rest)
        | rest => .error ⟨rest.drop 1, .unterminatedArguments name⟩
      else .error ⟨rest, .argumentKind name arg.kind⟩
    | .ok (_, rest) => .error ⟨rest, .compoundArgument name⟩

end

/-- A measure that a source of the given length never uses up: between two characters at most four
functions call each other. -/
def enough (length : Nat) : Nat :=
  5 * length + 5

end Expr.Parser

namespace Expr

/-- The expression that a source spells in a grammar. -/
def parse [Engine] (grammar : Grammar) (source : String) : Except SyntaxError Expr :=
  let cs := source.toList
  match Parser.sequence grammar .top (Parser.enough cs.length) cs with
  | .error failure =>
    .error ⟨grammar, source, Text.byteLength cs - Text.byteLength failure.rest, failure.reason⟩
  | .ok (es, _) =>
    let tree := Parser.combine es
    match tree.firstDisallowed grammar.allowed with
    | some node => .error ⟨grammar, source, 0, .disallowed node.kind grammar⟩
    | none => .ok tree

end Expr

end Colloquy
