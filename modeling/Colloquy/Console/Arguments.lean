/-!
# Arguments

What the program is asked to do on its command line.  Arguments are taken in order: help and version
win over everything after them, and so does the first mistake.
-/

namespace Colloquy.Console

/-- What a run is asked for. -/
structure Settings where
  script : String
  seed : Option Nat := none
  verbose : Bool := false
  color : Bool := false
  deriving DecidableEq, Repr

/-- What the program is asked to do. -/
inductive Request
  | help
  | version
  | run (settings : Settings)
  deriving DecidableEq, Repr

/-- A mistake in the arguments. -/
inductive UsageError
  | missingSeed
  | invalidSeed (value : String)
  | unknownOption (arg : String)
  | secondScript
  | noScript
  deriving DecidableEq, Repr

/-! ### Texts -/

/-- The program's name and version. -/
def versionText : String := "parlance 0.1.0"

/-- How the program is used. -/
def helpText : String :=
  versionText ++ "

Interactive runner for JSON dialogue scripts.

Usage:
  parlance [OPTIONS] <script.json>

Options:
  --seed <n>                 Seed the session's random source.
  -v, --verbose              Print a step report after every turn (stderr).
  --color                    Force ANSI color output.
  --no-color                 Disable ANSI color output.
  -h, --help                 Show this help message.
  -V, --version              Print version information.

Environment:
  PARLANCE_LOG               tracing filter, e.g. \x60parlance::engine=debug\x60.

Exit codes:
  0  End of input.
  1  Script or turn error.
  2  Invalid arguments.
"

namespace UsageError

/-- The mistake in words. -/
def message : UsageError → String
  | missingSeed => "error: --seed expects a value"
  | invalidSeed value => "error: invalid --seed '" ++ value ++ "' (expected an unsigned integer)"
  | unknownOption arg => "error: unknown option '" ++ arg ++ "'"
  | secondScript => "error: script provided multiple times"
  | noScript => "error: no script provided\n\n" ++ helpText

end UsageError

/-! ### Reading -/

/-- A seed: decimal digits, after a plus sign if one likes, below `UInt64.size`. -/
def seed? (cs : List Char) : Option Nat :=
  let digits := match cs with
    | '+' :: rest => rest
    | _ => cs
  if digits.isEmpty || !digits.all Char.isDigit then none
  else
    let n := digits.foldl (fun n c => 10 * n + (c.toNat - '0'.toNat)) 0
    if n < UInt64.size then some n else none

/-- Drops `--seed=` from the front as often as it stands there. -/
def dropSeedFlag : List Char → List Char
  | '-' :: '-' :: 's' :: 'e' :: 'e' :: 'd' :: '=' :: rest => dropSeedFlag rest
  | cs => cs

/-- An argument on its own. -/
inductive Word
  | help
  | version
  | verbose
  | color (on : Bool)
  /-- The seed is the next argument. -/
  | seed
  | seedValue (value : String)
  | unknown
  | script

/-- What an argument says. -/
def Word.ofString (arg : String) : Word :=
  if arg = "-h" ∨ arg = "--help" then .help
  else if arg = "-V" ∨ arg = "--version" then .version
  else if arg = "-v" ∨ arg = "--verbose" then .verbose
  else if arg = "--color" then .color true
  else if arg = "--no-color" then .color false
  else if arg = "--seed" then .seed
  else if "--seed=".toList.isPrefixOf arg.toList then
    .seedValue (String.ofList (dropSeedFlag arg.toList))
  else if arg.toList.head? = some '-' then .unknown
  else .script

/-- Reads a seed into the settings. -/
def withSeed (value : String) (given : Settings) : Except UsageError Settings :=
  match seed? value.toList with
  | some n => .ok { given with seed := some n }
  | none => .error (.invalidSeed value)

/-- Reads arguments on top of settings; `found` says that the script has been given. -/
def readFrom (given : Settings) (found : Bool) : List String → Except UsageError Request
  | [] => if found then .ok (.run given) else .error .noScript
  | arg :: rest =>
    match Word.ofString arg with
    | .help => .ok .help
    | .version => .ok .version
    | .verbose => readFrom { given with verbose := true } found rest
    | .color on => readFrom { given with color := on } found rest
    | .seed =>
      match rest with
      | [] => .error .missingSeed
      | value :: rest => do readFrom (← withSeed value given) found rest
    | .seedValue value => do readFrom (← withSeed value given) found rest
    | .unknown => .error (.unknownOption arg)
    | .script =>
      if found then .error .secondScript else readFrom { given with script := arg } true rest

/-- Reads the arguments; `terminal` says that reports go to a terminal, which can show colors. -/
def Request.ofArguments (terminal : Bool) (args : List String) : Except UsageError Request :=
  readFrom { script := "", color := terminal } false args

end Colloquy.Console
