import Colloquy.Session.Basic
import Colloquy.Text.Quoted

/-!
# Summaries

A session, and a registry of macros, in one line each, for a developer's eyes.  Texts are quoted.
-/

namespace Colloquy

/-- The items between brackets, separated by commas. -/
def bracketed (opening closing : String) (items : List String) : String :=
  opening ++ String.intercalate ", " items ++ closing

/-- The names of the registered macros. -/
def Macro.Registry.summary (macros : Macro.Registry) : String :=
  "MacroRegistry \x7b macros: " ++ bracketed "[" "]" (macros.keys.map Text.quoted) ++ " \x7d"

/-- The parts of a state's name. -/
def StateKey.summary : StateKey → String
  | plain name => "Plain(" ++ Text.quoted name ++ ")"
  | namespaced space name =>
    "Namespaced \x7b namespace: " ++ Text.quoted space ++ ", name: " ++ Text.quoted name ++ " \x7d"

/-- A speaker as a developer sees it. -/
def Speaker.summary : Speaker → String
  | system => "System"
  | user => "User"

/-- The variables and their values. -/
def Bindings.summary (vars : Bindings) : String :=
  bracketed "\x7b" "\x7d"
    (vars.entries.map fun (name, value) => Text.quoted name ++ ": " ++ Text.quoted value)

/-- Where the session stands: state, floor, bindings, the number of closed gates, and whether an
answer is waiting. -/
def Session.summary (flow : Flow) (s : Session) : String :=
  let st := s.standing
  "Dialogue \x7b state: " ++ (flow.key st.state).summary ++ ", speaker: " ++ st.speaker.summary ++
    ", vars: " ++ Bindings.summary st.vars ++ ", gates: " ++ toString st.gates.size ++
    ", pending: " ++ (if st.pending.isSome then "true" else "false") ++ " \x7d"

end Colloquy
