import Colloquy.Macro.Basic

/-!
# The built-in macros

* `#SET($x, value)` binds `x`;
* `#EQ(a, b)` holds when both arguments have the same text;
* `#EXISTS($x, …)` holds when every named variable is bound;
* `#NOT(…)` inverts a flag, and holds for an unbound variable, an empty text or no choices;
* `#GATE(x, …)` asks for the transition to be closed to the present values of the variables;
* `#TARGET(state)` asks for the transition to lead to another state.

The last two leave their request in the bindings, under `gateKey` and `targetKey`.
-/

namespace Colloquy.Macro

/-- The variable that holds the names to be gated, separated by commas. -/
def gateKey : String := "__gate__"

/-- The variable that holds the state to go to instead. -/
def targetKey : String := "__target__"

/-- The refusal of a wrong number of arguments. -/
def wrongCount (name : String) (expected got : Nat) : Failure :=
  .refused ("#" ++ name ++ " takes " ++ toString expected ++ " argument(s), got " ++ toString got)

/-- Binds a variable. -/
def set : Macro := fun _ args vars =>
  match args with
  | [target, value] =>
    match target.named?, value.asText? with
    | none, _ => (.error (.refused "#SET needs a variable name"), vars)
    | some _, none => (.error (.refused "#SET value has no text"), vars)
    | some name, some text => (.ok (.flag true), vars.insert name text)
  | _ => (.error (wrongCount "SET" 2 args.length), vars)

/-- Compares two texts. -/
def equal : Macro := fun _ args vars =>
  match args with
  | [a, b] =>
    let same := match a.asText?, b.asText? with
      | some s, some t => s == t
      | _, _ => false
    (.ok (.flag same), vars)
  | _ => (.error (wrongCount "EQ" 2 args.length), vars)

/-- Looks whether variables are bound. -/
def bound : Macro := fun _ args vars =>
  (.ok (.flag (args.all fun arg => arg.named?.any vars.contains)), vars)

/-- Inverts its argument. -/
def invert : Macro := fun _ args vars =>
  match args with
  | [.output (.flag b)] => (.ok (.flag !b), vars)
  | [.output (.choices options)] => (.ok (.flag options.isEmpty), vars)
  | [.output _] => (.error (.refused "#NOT expects a flag"), vars)
  | [.variableNamed name _] => (.ok (.flag !vars.contains name), vars)
  | [.text s] => (.ok (.flag s.isEmpty), vars)
  | _ => (.error (wrongCount "NOT" 1 args.length), vars)

/-- Asks for a gate on the named variables. -/
def gate : Macro := fun _ args vars =>
  match args.mapM Argument.named? with
  | some names => (.ok (.flag true), vars.insert gateKey (String.intercalate "," names))
  | none => (.error (.refused "#GATE arguments must be variable names"), vars)

/-- Asks for another target. -/
def redirect : Macro := fun _ args vars =>
  match args with
  | [arg] =>
    match arg.asText? with
    | some state => (.ok (.flag true), vars.insert targetKey state)
    | none => (.error (.refused "#TARGET needs a state name"), vars)
  | _ => (.error (wrongCount "TARGET" 1 args.length), vars)

/-- The built-in macros by name. -/
def Registry.builtin : Registry :=
  SortedMap.ofList [("SET", set), ("EQ", equal), ("EXISTS", bound), ("NOT", invert),
    ("GATE", gate), ("TARGET", redirect)]

end Colloquy.Macro
