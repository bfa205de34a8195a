import Colloquy.Bindings
import Colloquy.Utterance

/-!
# Macros

Expressions call on host logic by terms such as `#NAME(args)`.  A `Macro` sees the utterance, its
evaluated arguments and the bindings; it gives an output or fails, and it may change the bindings in
either case.

`Registry.invoke` calls a macro by name and turns every way of failing into a `Fault`.
-/

namespace Colloquy

namespace Macro

/-- What a macro gives back. -/
inductive Output
  /-- A piece of text. -/
  | text (s : String)
  /-- One of several texts. -/
  | choices (options : SortedSet String)
  /-- Success or failure without a text. -/
  | flag (b : Bool)
  /-- A value of the host's own, which has no text.  What it holds is left out: nothing here looks
  into it, and one macro cannot tell another's by more than that it is none of the above. -/
  | hostValue
  deriving DecidableEq, Inhabited

/-- The output that offers the listed texts. -/
def Output.ofChoices (options : List String) : Output :=
  .choices (SortedSet.ofList options)

/-- An evaluated argument. -/
inductive Argument
  | text (s : String)
  /-- A variable and the value it had when the call was made. -/
  | variableNamed (name : String) (value : Option String)
  | output (o : Output)
  deriving DecidableEq, Inhabited

namespace Argument

/-- The text of an argument, if it has one. -/
def asText? : Argument → Option String
  | text s => some s
  | variableNamed _ value => value
  | output (.text s) => some s
  | output _ => none

/-- The variable an argument names; a bare text names the variable so called. -/
def named? : Argument → Option String
  | text s => some s
  | variableNamed name _ => some name
  | output _ => none

end Argument

/-- How the host's code fails. -/
inductive Failure
  /-- With a reason. -/
  | refused (reason : String)
  /-- Without one. -/
  | crashed
  deriving DecidableEq, Repr

/-- A failure as seen by the caller of a macro. -/
inductive Fault
  | unknown (name : String)
  | failed (name : String) (reason : String)
  | crashed (name : String)
  /-- A host value stood where a text was needed. -/
  | noText (name : String)
  deriving DecidableEq, Repr

/-- The fault that a failure of the named macro amounts to. -/
def Failure.toFault (name : String) : Failure → Fault
  | refused reason => .failed name reason
  | crashed => .crashed name

end Macro

/-- A capability of the host. -/
abbrev Macro :=
  Utterance → List Macro.Argument → Bindings → Except Macro.Failure Macro.Output × Bindings

namespace Macro

/-- The macros that expressions can call, by name. -/
abbrev Registry := SortedMap String Macro

namespace Registry

/-- Registers a macro, in place of an earlier one of the same name. -/
def register (macros : Registry) (name : String) (m : Macro) : Registry :=
  macros.insert name m

/-- Calls the named macro. -/
def invoke (macros : Registry) (name : String) (u : Utterance) (args : List Argument)
    (vars : Bindings) : Except Fault Output × Bindings :=
  match macros.get? name with
  | none => (.error (.unknown name), vars)
  | some m =>
    match m u args vars with
    | (.ok output, vars) => (.ok output, vars)
    | (.error failure, vars) => (.error (failure.toFault name), vars)

end Registry

end Macro

end Colloquy
