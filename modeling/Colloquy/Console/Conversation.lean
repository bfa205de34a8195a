import Colloquy.Console.Arguments
import Colloquy.Console.Report
import Colloquy.Script.Reader
import Colloquy.Session.Turn

/-!
# Conversations at the console

The system speaks whenever it has the floor.  When the user has it, the program prompts for a line:
a blank line is passed over, a line that nothing matches is refused and leaves the conversation as
it was, and any other error ends the program.  The conversation ends with the input.

A conversation is a list of `Event`s, so that it can be followed line by line as well as read as a
whole.
-/

namespace Colloquy.Console

/-- Something that the program writes. -/
inductive Event
  /-- The user is asked for a line. -/
  | prompt
  /-- The system said something. -/
  | said (output : String)
  /-- What a turn did. -/
  | report (r : TurnReport)
  /-- Nothing matched what the user said. -/
  | refusal (e : TurnError)
  /-- The program ends with an error. -/
  | failure (message : String)

namespace Event

/-- What an event writes to the output. -/
def output : Event → String
  | prompt => "> "
  | said output => output ++ "\n"
  | report _ | refusal _ | failure _ => ""

/-- What an event writes beside the output. -/
def diagnostics (color : Bool) (timing : Timing) : Event → String
  | prompt | said _ => ""
  | report r => String.join ((reportLines color timing r).map (· ++ "\n"))
  | refusal e => e.message ++ "\n"
  | failure message => "error: " ++ message ++ "\n"

end Event

/-! ### Scripts -/

/-- Why a script cannot be run. -/
inductive LoadError
  /-- The file cannot be read, for the reason given by the system. -/
  | unreadable (reason : String)
  | malformed
  | unbuildable (e : BuildError)

namespace LoadError

/-- The error in words. -/
def message : LoadError → String
  | unreadable reason => "failed to read script: " ++ reason
  | malformed => "malformed script"
  | unbuildable e => e.message

end LoadError

/-- The flow of a script file, given what reading the file gave; a seed on the command line replaces
the script's own. -/
def load (seed : Option Nat) (file : Except String String) : Except LoadError Flow :=
  match file with
  | .error reason => .error (.unreadable reason)
  | .ok text =>
    match Script.parse? text with
    | none => .error .malformed
    | some script =>
      let options := { script.options with seed := seed <|> script.options.seed }
      match ({ script with options } : Script).build {} with
      | .error e => .error (.unbuildable e)
      | .ok flow => .ok flow

/-! ### Turns -/

/-- The conversation goes on, or it is over because of an error. -/
abbrev Continuation := Option Session

variable (flow : Flow) (verbose : Bool)

/-- The report of a turn, if it is asked for. -/
def reported (r : TurnReport) : List Event :=
  if verbose then [.report r] else []

/-- The system speaks if it has the floor. -/
def speak (s : Session) : List Event × Continuation :=
  match s.standing.speaker with
  | .user => ([], some s)
  | .system =>
    match s.systemTurn flow with
    | (.ok r, s) =>
      (reported verbose r ++ (if r.output.isEmpty then [] else [.said r.output]), some s)
    | (.error e, _) => ([.failure e.message], none)

/-- The user says a line. -/
def hear (line : String) (s : Session) : List Event × Continuation :=
  let utterance := String.ofList (Text.trim line.toList)
  if utterance.isEmpty then ([], some s)
  else
    match s.userTurn flow utterance with
    | (.ok r, s) => (reported verbose r, some s)
    | (.error (.noViableTransition state speaker), s) =>
      ([.refusal (.noViableTransition state speaker)], some s)
    | (.error e, _) => ([.failure e.message], none)

/-- A whole conversation with a user who says the given lines, and whether it ended well. -/
def converse (s : Session) (lines : List String) : List Event × Bool :=
  match speak flow verbose s with
  | (events, none) => (events, false)
  | (events, some s) =>
    match lines with
    | [] => (events ++ [.prompt], true)
    | line :: rest =>
      match hear flow verbose line s with
      | (heard, none) => (events ++ .prompt :: heard, false)
      | (heard, some s) =>
        let (more, ok) := converse s rest
        (events ++ .prompt :: heard ++ more, ok)

/-! ### The program -/

/-- What a run of the program leaves behind. -/
structure Outcome where
  exit : Nat
  output : String
  diagnostics : String
  deriving DecidableEq, Repr

/-- The outcome of events. -/
def Outcome.ofEvents (exit : Nat) (color : Bool) (timing : Timing) (events : List Event) :
    Outcome :=
  ⟨exit, String.join (events.map Event.output),
    String.join (events.map (Event.diagnostics color timing))⟩

/-- A fresh session; its random source starts from the flow's seed, if it has one. -/
def opening (entropy : UInt64) : Session :=
  let seed := match flow.options.seed with
    | some seed => UInt64.ofNat seed
    | none => entropy
  .start flow (.mixed seed)

/-- What the program is run in: the files it can read, by path, the lines of the input, and what
measuring time gives. -/
structure Surroundings where
  terminal : Bool
  file : String → Except String String
  lines : List String
  entropy : UInt64
  timing : Timing

/-- Runs the program. -/
def run (around : Surroundings) (args : List String) : Outcome :=
  match Request.ofArguments around.terminal args with
  | .error e => ⟨2, "", e.message ++ "\n"⟩
  | .ok .help => ⟨0, helpText ++ "\n", ""⟩
  | .ok .version => ⟨0, versionText ++ "\n", ""⟩
  | .ok (.run given) =>
    match load given.seed (around.file given.script) with
    | .error e => .ofEvents 1 given.color around.timing [.failure e.message]
    | .ok flow =>
      let (events, ok) := converse flow given.verbose (opening flow around.entropy) around.lines
      .ofEvents (if ok then 0 else 1) given.color around.timing events

end Colloquy.Console
