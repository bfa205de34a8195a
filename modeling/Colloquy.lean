import Colloquy.Bindings
import Colloquy.Closure
import Colloquy.Console.Arguments
import Colloquy.Console.Conversation
import Colloquy.Console.Report
import Colloquy.Expr.Basic
import Colloquy.Expr.Parser
import Colloquy.Expr.Phrase
import Colloquy.Expr.Printer
import Colloquy.Flow.Basic
import Colloquy.Flow.Builder
import Colloquy.Flow.Gate
import Colloquy.Flow.Rules
import Colloquy.Flow.StateKey
import Colloquy.Generation
import Colloquy.Json.Basic
import Colloquy.Json.Number
import Colloquy.Json.Printer
import Colloquy.Json.Reader
import Colloquy.Json.Record
import Colloquy.Knowledge
import Colloquy.Macro.Basic
import Colloquy.Macro.Builtin
import Colloquy.Macro.Call
import Colloquy.Macro.Ontology
import Colloquy.Matching.Fragments
import Colloquy.Matching.Pattern
import Colloquy.Options
import Colloquy.Proofs.Flow.Rules
import Colloquy.Proofs.Flow.WellFormed
import Colloquy.Proofs.Random.Greatest
import Colloquy.Proofs.Session.Course
import Colloquy.Proofs.Session.Failure
import Colloquy.Proofs.Session.Faithful
import Colloquy.Proofs.Session.Gates
import Colloquy.Proofs.Session.Reachable
import Colloquy.Proofs.Session.Step
import Colloquy.Proofs.Session.Survey
import Colloquy.Proofs.Session.Viable
import Colloquy.Proofs.SortedMap
import Colloquy.Random.Selection
import Colloquy.Random.Source
import Colloquy.Regex.Basic
import Colloquy.Regex.Buildable
import Colloquy.Regex.CharClass
import Colloquy.Regex.Cursor
import Colloquy.Regex.Positions
import Colloquy.Regex.Printer
import Colloquy.Regex.Reach
import Colloquy.Regex.Reader
import Colloquy.Regex.Search
import Colloquy.Regex.Trace
import Colloquy.Script.Basic
import Colloquy.Script.Reader
import Colloquy.Session.Basic
import Colloquy.Session.Report
import Colloquy.Session.Snapshot
import Colloquy.Session.Step
import Colloquy.Session.Summary
import Colloquy.Session.Turn
import Colloquy.SortedMap
import Colloquy.Speaker
import Colloquy.Text.Alphanumeric
import Colloquy.Text.Blank
import Colloquy.Text.Case
import Colloquy.Text.CodePoints
import Colloquy.Text.Digit
import Colloquy.Text.Fixed
import Colloquy.Text.Fold
import Colloquy.Text.Invisible
import Colloquy.Text.Letter
import Colloquy.Text.Quoted
import Colloquy.Text.WordChar
import Colloquy.Text.Words
import Colloquy.Utterance
import Colloquy.Main
import Colloquy.Proofs.Flow.Greedy
import Colloquy.Proofs.Random.Words
import Colloquy.Proofs.Generation.Results
import Colloquy.Proofs.Expr.Spelled
import Colloquy.Proofs.Expr.RoundTrip
import Colloquy.Proofs.Regex.Search
import Colloquy.Proofs.Matching.Meaning
import Colloquy.Proofs.Matching.Compiled
import Colloquy.Proofs.Console.Loop
import Colloquy.Proofs.Flow.Names
import Colloquy.Proofs.Generation.Drawing
import Colloquy.Proofs.Session.Dropping
import Colloquy.Proofs.Session.Requests
import Colloquy.Proofs.Session.Restore
import Colloquy.Proofs.Session.Report
import Colloquy.Proofs.Flow.Changes
import Colloquy.Proofs.Flow.Tables
import Colloquy.Proofs.Session.InRange
import Colloquy.Proofs.Regex.Own
import Colloquy.Proofs.Regex.Walks
import Colloquy.Proofs.Regex.Ways
import Colloquy.Proofs.Matching.Bound
import Colloquy.Proofs.Matching.Twins
import Colloquy.Proofs.Matching.Alternatives
import Colloquy.Proofs.Matching.Negation
import Colloquy.Proofs.Generation.Parallel
import Colloquy.Proofs.Generation.Silence
import Colloquy.Proofs.Expr.Scope
import Colloquy.Proofs.Json.RoundTrip
import Colloquy.Proofs.Session.Document
import Colloquy.Proofs.Expr.Cache
import Colloquy.Proofs.Flow.Convergence
import Colloquy.Proofs.Session.Answered
import Colloquy.Proofs.Generation.Faults
import Colloquy.Proofs.Matching.Capturing
import Colloquy.Proofs.Text.Case
import Colloquy.Proofs.Matching.Building
import Colloquy.Proofs.Matching.Verbatim
import Colloquy.Proofs.Matching.Skipping
import Colloquy.Proofs.Knowledge
import Colloquy.Proofs.Utterance
import Colloquy.Proofs.Generation.Tidy
import Colloquy.Proofs.Regex.Marks
import Colloquy.Proofs.Matching.Grouping
import Colloquy.Proofs.Ascending
import Colloquy.Proofs.Flow.Gate
import Colloquy.Proofs.Session.RestoredGates
import Colloquy.Proofs.Expr.Progress
import Colloquy.Proofs.Expr.Bytes
import Colloquy.Proofs.Generation.Plain
import Colloquy.Proofs.Flow.Refusal
import Colloquy.Proofs.Random.Fair
import Colloquy.Proofs.Expr.Kinds
import Colloquy.Proofs.Generation.Strays
import Colloquy.Proofs.Script.Steps
import Colloquy.Proofs.Script.Described
import Colloquy.Proofs.Session.Addressing
import Colloquy.Proofs.Ontology
import Colloquy.Proofs.Random.Sums
import Colloquy.Proofs.Random.Weighted
import Colloquy.Proofs.Text.Sigma
import Colloquy.Proofs.Flow.Nameless
