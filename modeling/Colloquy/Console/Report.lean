import Colloquy.Session.Report
import Colloquy.Text.Fixed

/-!
# Written reports

The report of a turn as lines of text, colored if the terminal can show it.
-/

namespace Colloquy.Console

/-- How a piece of text stands out. -/
inductive Ink
  | bold
  | dim
  | green
  | yellow
  | blue
  | cyan
  | gray

namespace Ink

/-- The number that switches the ink on. -/
def code : Ink → String
  | bold => "1"
  | dim => "2"
  | green => "32"
  | yellow => "33"
  | blue => "34"
  | cyan => "36"
  | gray => "90"

/-- The text in the ink, if colors are on. -/
def paint (ink : Ink) (color : Bool) (s : String) : String :=
  if color then "\x1b[" ++ ink.code ++ "m" ++ s ++ "\x1b[0m" else s

end Ink

/-- How long a turn took, and its update rules in it. -/
structure Timing where
  total : String
  rules : String

/-- The digits of a fraction, zeros at the end left out. -/
def fractionDigits (places n : Nat) : List Char :=
  ((Text.padLeft places '0' (Nat.toDigits 10 n)).reverse.dropWhile (· == '0')).reverse

/-- A duration in the greatest unit that it fills. -/
def describeNanoseconds (n : Nat) : String :=
  let inUnit (places : Nat) (unit : String) : String :=
    let fraction := fractionDigits places (n % Nat.pow 10 places)
    toString (n / Nat.pow 10 places) ++
      (if fraction.isEmpty then "" else "." ++ String.ofList fraction) ++ unit
  if 1000000000 ≤ n then inUnit 9 "s"
  else if 1000000 ≤ n then inUnit 6 "ms"
  else if 1000 ≤ n then inUnit 3 "µs"
  else toString n ++ "ns"

variable (color : Bool)

/-- What became of a candidate. -/
def describeVerdict : Verdict → String
  | .viable => Ink.green.paint color "viable"
  | .noMatch => Ink.dim.paint color "no match"
  | .unresolved => Ink.dim.paint color "unresolved"
  | .enterGuard => Ink.yellow.paint color "enter guard failed"
  | .gated => Ink.yellow.paint color "gated"
  | .unknownTarget name => Ink.yellow.paint color ("unknown target \x60" ++ name ++ "\x60")

/-- A score with two places, at least five characters wide. -/
def describeScore (score : Float) : String :=
  String.ofList (Text.padLeft 5 ' ' (Text.fixed 2 score))

/-- A candidate: score, expression, target and what became of it. -/
def describeCandidate (c : CandidateTrace) : String :=
  Ink.yellow.paint color (describeScore c.score) ++ " " ++ Ink.blue.paint color c.source ++ " " ++
    Ink.dim.paint color ("→ " ++ c.target ++ " │") ++ " " ++ describeVerdict color c.verdict

/-- What a step did. -/
def describeKind : StepKind → String
  | .transition => "transition"
  | .updateRule => "update rule"
  | .errorSuccessor => "error successor"
  | .stay => "stay (rule pending)"
  | .fallback => "fallback"
  | .finish => "end"

/-- The lines of a step: what it did, and its candidates, the one taken marked. -/
def stepLines (step : StepTrace) : List String :=
  ("  " ++ Ink.blue.paint color ("Step " ++ toString step.step ++ ":") ++ " " ++
      Ink.cyan.paint color step.state ++ " " ++
      Ink.dim.paint color ("[" ++ describeKind step.kind ++ "] →") ++ " " ++
      Ink.cyan.paint color step.target) ::
    step.candidates.zipIdx.map fun (c, i) =>
      "    " ++ (if step.chosen == some i then Ink.green.paint color "▶" else " ") ++ " " ++
        describeCandidate color c

/-- The heading of a part of the report, after an empty line. -/
def headingLines (title : String) : List String :=
  ["", Ink.gray.paint color ("━━━ " ++ title ++ " ━━━")]

/-- The lines about the update rules, if any fired. -/
def ruleLines (fired : List String) : List String :=
  if fired.isEmpty then []
  else
    headingLines color "Update rules" ++
      fired.map fun rule =>
        "  " ++ Ink.green.paint color "✓" ++ " " ++ Ink.cyan.paint color rule

/-- The line about what the turn cost. -/
def costLine (timing : Timing) (m : TurnMetrics) : String :=
  "  Total: " ++ Ink.green.paint color timing.total ++
    "  │  Rules: " ++ Ink.cyan.paint color timing.rules ++
    " (" ++ Ink.dim.paint color (toString m.ruleEvaluations) ++
    " evals)  │  Candidates: " ++ Ink.yellow.paint color (toString m.candidatesViable) ++
    "/" ++ Ink.dim.paint color (toString m.candidatesEvaluated) ++ " viable"

/-- The first line: whose turn it was, and what the user said. -/
def titleLine (report : TurnReport) : String :=
  let title := "⚙  " ++ report.speaker.describe ++ " turn" ++
    match report.utterance with
    | some utterance => ": \"" ++ utterance ++ "\""
    | none => ""
  Ink.bold.paint color (Ink.cyan.paint color title)

/-- The lines of a report. -/
def reportLines (timing : Timing) (report : TurnReport) : List String :=
  ["", titleLine color report,
    "  " ++ Ink.blue.paint color report.startState ++ " " ++ Ink.dim.paint color "→" ++ " " ++
      Ink.blue.paint color report.endState] ++
    ruleLines color report.rulesFired ++
    headingLines color "Steps" ++ report.steps.flatMap (stepLines color) ++
    headingLines color "Timing" ++ [costLine color timing report.metrics, ""]

end Colloquy.Console
