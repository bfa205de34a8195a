import Colloquy.Macro.Call
import Colloquy.Random.Selection

/-!
# Generation

A generation expression is reduced to a text.  Reduction may fail: a variable may be unbound, a flag
may be false, every alternative may fail.  Failure spreads to everything but a disjunction, which
reduces each alternative from the same bindings and picks one of those that succeed; the bindings
that the picked alternative left are kept.

A call that faults leaves `faultMark` in the text and lets reduction go on; a text that holds the
mark in the end counts as a failure.

The finished text, and every value assigned on the way, is tidied (`tidy`): its words are spaced
singly, and no space stands before closing punctuation.
-/

namespace Colloquy.Generation

/-! ### Tidying -/

/-- Punctuation that closes up to the word before it. -/
def isClosing (c : Char) : Bool :=
  [',', '.', '!', '?', ';', ':'].contains c

/-- Drops the spaces before closing punctuation. -/
def closeUp : List Char → List Char
  | [] => []
  | c :: cs => if c = ' ' ∧ cs.head?.any isClosing then closeUp cs else c :: closeUp cs

/-- A text with its words spaced singly and closing punctuation closed up. -/
def tidy (text : String) : String :=
  String.ofList (closeUp (Text.collapse text).toList)

/-! ### Reduction -/

/-- What a faulted call leaves in the text. -/
def faultMark : String := "<<macro-fault>>"

/-- The pattern occurs in the text. -/
def occursIn (pattern : List Char) : List Char → Bool
  | [] => pattern.isEmpty
  | c :: cs => pattern.isPrefixOf (c :: cs) || occursIn pattern cs

/-- A computation over the bindings that draws. -/
abbrev Reduce := StateT Bindings Draw

/-- What a macro's output reduces to. -/
def ofOutput : Except Macro.Fault Macro.Output → Reduce (Option String)
  | .ok (.text s) => return some s
  | .ok (.choices options) => Selection.chooseUniform (SortedSet.toList options)
  | .ok (.flag true) => return some ""
  | .ok (.flag false) => return none
  | .ok .hostValue | .error _ => return some faultMark

variable (macros : Macro.Registry)

mutual

/-- Reduces an expression. -/
def reduce : Expr → Reduce (Option String)
  | .literal text => return some text
  | .rigid items => do
    match ← reduceAll items with
    | some parts => return some (String.intercalate " " parts)
    | none => return none
  | .disjunction items => do
    let saved ← get
    let results ← reduceEach saved items
    match ← Selection.chooseUniform results with
    | some (text, vars) => do
      set vars
      return some text
    | none => do
      set saved
      return none
  | .reference name => return (← get).get? name
  | .assignment name value => do
    match ← reduce value with
    | some text => do
      let text := tidy text
      modify (·.insert name text)
      return some text
    | none => return none
  | .call name args => do
    let (output, vars) := Macro.evalCall macros Utterance.silence name args (← get)
    set vars
    ofOutput output
  | .flexible _ | .conjunction _ | .optional _ | .star _ | .plus _ | .negation _ | .raw _ =>
    return none

/-- Reduces expressions from left to right, up to the first that fails. -/
def reduceAll : List Expr → Reduce (Option (List String))
  | [] => return some []
  | e :: es => do
    match ← reduce e with
    | none => return none
    | some first =>
      match ← reduceAll es with
      | none => return none
      | some others => return some (first :: others)

/-- Reduces each expression from the same bindings; gives the texts of those that succeed and the
bindings they leave. -/
def reduceEach (saved : Bindings) : List Expr → Reduce (List (String × Bindings))
  | [] => return []
  | e :: es => do
    set saved
    match ← reduce e with
    | none => reduceEach saved es
    | some text =>
      let vars ← get
      return (text, vars) :: (← reduceEach saved es)

end

/-- A text and the bindings after it. -/
structure Generated where
  text : String
  vars : Bindings
  deriving DecidableEq

/-- Generates a text from an expression. -/
def generate (e : Expr) (vars : Bindings) : Draw (Option Generated) := do
  match ← (reduce macros e).run vars with
  | (some raw, vars) =>
    if occursIn faultMark.toList raw.toList then return none
    else return some ⟨tidy raw, vars⟩
  | (none, _) => return none

end Colloquy.Generation
