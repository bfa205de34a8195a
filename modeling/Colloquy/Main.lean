import Colloquy.Console.Conversation

/-!
# The program

Follows a conversation at the terminal.  Everything that is decided is decided in
`Colloquy.Console`; this module reads the file and the lines, measures time and writes.
-/

namespace Colloquy.Console

/-- The system's words for a failure to read a file. -/
def reasonOf : IO.Error → String
  | .noFileOrDirectory .. => "No such file or directory (os error 2)"
  | .inappropriateType .. => "Is a directory (os error 21)"
  | .permissionDenied .. => "Permission denied (os error 13)"
  | e => toString e

/-- Reads a text file. -/
def readText (path : String) : IO (Except String String) := do
  try
    match String.fromUTF8? (← IO.FS.readBinFile path) with
    | some text => return .ok text
    | none => return .error "stream did not contain valid UTF-8"
  catch e => return .error (reasonOf e)

/-- Writes an event. -/
def write (color : Bool) (timing : Timing) (event : Event) : IO Unit := do
  (← IO.getStderr).putStr (event.diagnostics color timing)
  let out ← IO.getStdout
  out.putStr event.output
  out.flush

/-- Computes a value, and the time that it takes. -/
def timed {α : Type} (compute : Unit → α) : IO (α × String) := do
  let before ← IO.monoNanosNow
  let value ← IO.lazyPure compute
  let after ← IO.monoNanosNow
  return (value, describeNanoseconds (after - before))

/-- Takes a part of the conversation and writes what happens. -/
def play (flow : Flow) (given : Settings) (said : Option String) (s : Session) :
    IO (Option Session) := do
  let ((events, next), total) ← timed fun _ =>
    match said with
    | none => speak flow given.verbose s
    | some line => hear flow given.verbose line s
  let (_, rules) ← timed fun _ =>
    match said with
    | none => 0
    | some line =>
      let u := Utterance.scan line flow.options.ngramMax
      match Session.prepare flow u .user s.standing with
      | .ok (_, outcome) => outcome.evaluations
      | .error _ => 0
  events.forM (write given.color ⟨total, rules⟩)
  return next

/-- Follows the conversation until it ends; gives the exit code. -/
partial def follow (flow : Flow) (given : Settings) (s : Session) : IO UInt32 := do
  match ← play flow given none s with
  | none => return 1
  | some s =>
    write given.color ⟨"", ""⟩ .prompt
    let line ← (← IO.getStdin).getLine
    if line.isEmpty then return 0
    match ← play flow given (some line) s with
    | none => return 1
    | some s => follow flow given s

/-- Does what the arguments ask for. -/
def perform : Request → IO UInt32
  | .help => do
    IO.println helpText
    return 0
  | .version => do
    IO.println versionText
    return 0
  | .run given => do
    match load given.seed (← readText given.script) with
    | .error e => do
      write given.color ⟨"", ""⟩ (.failure e.message)
      return 1
    | .ok flow => do
      let bytes ← IO.getRandomBytes 8
      let entropy := bytes.foldl (fun n b => n * 256 + b.toUInt64) 0
      follow flow given (opening flow entropy)

end Colloquy.Console

open Colloquy.Console in
/-- Runs the program. -/
def main (args : List String) : IO UInt32 := do
  match Request.ofArguments (← (← IO.getStderr).isTty) args with
  | .error e =>
    IO.eprintln e.message
    return 2
  | .ok request => perform request
