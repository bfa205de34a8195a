import Colloquy.Json.Printer
import Colloquy.Script.Reader
import Colloquy.Session.Basic

/-!
# Snapshots

A `Snapshot` is the part of a session that can be kept: state, floor, bindings and gates.  States
are kept by name, so a snapshot can be restored over any flow that has states of these names.  The
answer of an update rule is not kept.

A snapshot is written as a JSON document.
-/

namespace Colloquy

/-- A gate that was taken. -/
structure GateEntry where
  target : String
  config : List GateSetting
  count : Nat
  deriving DecidableEq, Repr

/-- What is kept of a session. -/
structure Snapshot where
  state : String
  speaker : Speaker
  vars : Bindings
  gates : List GateEntry
  deriving DecidableEq

namespace Snapshot

/-! ### Keeping and restoring -/

/-- Keeps a standing. -/
def capture (flow : Flow) (st : Standing) : Snapshot :=
  { state := (flow.key st.state).render
    speaker := st.speaker
    vars := st.vars
    gates := st.gates.entries.map fun (key, count) =>
      ⟨(flow.key key.target).render, key.config, count⟩ }

/-- The state of a name; if there is none, the name. -/
def resolveState (flow : Flow) (name : String) : Except String StateId :=
  match flow.lookup (.ofString name) with
  | some id => .ok id
  | none => .error name

/-- The gates of the entries; of two entries with one key the later counts. -/
def resolveGates (flow : Flow) (entries : List GateEntry) : Except String GateTable :=
  entries.foldlM (fun (table : GateTable) entry => do
    let target ← resolveState flow entry.target
    return table.insert ⟨target, entry.config⟩ entry.count) .empty

/-- The standing that a snapshot describes over a flow; if it names a state that does not exist,
that name. -/
def resolve (flow : Flow) (snap : Snapshot) : Except String Standing := do
  let state ← resolveState flow snap.state
  let gates ← resolveGates flow snap.gates
  return { state, speaker := snap.speaker, vars := snap.vars, gates }

/-! ### Documents -/

/-- Writes a gate setting. -/
def settingToJson (s : GateSetting) : Json :=
  .array [.text s.name, (s.value.map Json.text).getD .null]

/-- Writes a gate. -/
def entryToJson (e : GateEntry) : Json :=
  .object [(some "target", .text e.target), (some "config", .array (e.config.map settingToJson)),
    (some "count", .number (.ofNat e.count))]

/-- Writes a snapshot. -/
def toJson (snap : Snapshot) : Json :=
  .object [(some "state", .text snap.state), (some "speaker", .text snap.speaker.describe),
    (some "vars", .object (snap.vars.entries.map fun (name, value) => (some name, .text value))),
    (some "gates", .array (snap.gates.map entryToJson))]

/-- The document of a snapshot. -/
def render (snap : Snapshot) : String :=
  snap.toJson.render

open Json (text? nat? list? nullable? choice?)
open Json.Record

/-- Reads a gate setting. -/
def settingOfJson? : Json → Option GateSetting
  | .array [name, value] => do return ⟨← text? name, ← nullable? text? value⟩
  | _ => none

/-- Reads a gate. -/
def entryOfJson? (json : Json) : Option GateEntry := do
  let r ← Json.record? ["target", "config", "count"] json
  return ⟨← required r "target" text?, ← required r "config" (list? settingOfJson?),
    ← required r "count" (nat? UInt32.size)⟩

/-- Reads a snapshot. -/
def ofJson? (json : Json) : Option Snapshot := do
  let r ← Json.record? ["state", "speaker", "vars", "gates"] json
  return {
    state := ← required r "state" text?
    speaker := ← required r "speaker" (choice? Speaker.ofName?)
    vars := ← withDefault r "vars" .empty fun json =>
      (Json.members text? json).map SortedMap.ofList
    gates := ← withDefault r "gates" [] (list? entryOfJson?) }

/-- The snapshot that a document describes. -/
def parse? (source : String) : Option Snapshot :=
  (Json.parse? source).bind ofJson?

end Snapshot

/-- Why a session cannot be restored. -/
inductive SessionError
  | unknownState (name : String)
  deriving DecidableEq, Repr

namespace SessionError

/-- The error in words. -/
def message : SessionError → String
  | unknownState name => "session snapshot names unknown state \x60" ++ name ++ "\x60"

end SessionError

namespace Session

/-- Keeps a session. -/
def snapshot (flow : Flow) (s : Session) : Snapshot :=
  .capture flow s.standing

/-- Restores a session; if that fails, it stays as it was. -/
def restore (flow : Flow) (snap : Snapshot) (s : Session) : Except SessionError Unit × Session :=
  match snap.resolve flow with
  | .ok standing => (.ok (), { s with standing })
  | .error name => (.error (.unknownState name), s)

end Session

end Colloquy
