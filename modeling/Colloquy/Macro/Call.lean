import Colloquy.Expr.Printer
import Colloquy.Macro.Basic

/-!
# Calls in expressions

The arguments of a call are evaluated from left to right, calls among them first.  A fault in an
argument is a fault of the whole call.  Whatever the macros wrote into the bindings up to a fault
stays there.
-/

namespace Colloquy.Macro

/-- A computation over the bindings that may end in a fault. -/
abbrev Eval := ExceptT Fault (StateM Bindings)

variable (macros : Registry) (u : Utterance)

mutual

/-- Evaluates one argument. -/
def evalArgument : Expr → Eval Argument
  | .literal text => return .text text
  | .reference name => return .variableNamed name ((← get).get? name)
  | .call name args => do
    let args ← evalArguments args
    return .output (← macros.invoke name u args)
  | e@(.flexible _) | e@(.rigid _) | e@(.conjunction _) | e@(.disjunction _) | e@(.optional _)
  | e@(.star _) | e@(.plus _) | e@(.negation _) | e@(.raw _) | e@(.assignment ..) =>
    return .text e.render

/-- Evaluates arguments from left to right. -/
def evalArguments : List Expr → Eval (List Argument)
  | [] => return []
  | e :: es => do
    let first ← evalArgument e
    let others ← evalArguments es
    return first :: others

end

/-- Evaluates a call. -/
def evalCall (name : String) (args : List Expr) : Eval Output := do
  let args ← evalArguments macros u args
  macros.invoke name u args

end Colloquy.Macro
