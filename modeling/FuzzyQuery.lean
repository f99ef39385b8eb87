import FuzzyQuery.CommandLine
import FuzzyQuery.Fault
import FuzzyQuery.Findings
import FuzzyQuery.Findings.Request
import FuzzyQuery.Json
import FuzzyQuery.LogLevel
import FuzzyQuery.Main
import FuzzyQuery.Matcher
import FuzzyQuery.Matcher.Request
import FuzzyQuery.Reader
import FuzzyQuery.Report
import FuzzyQuery.Session
import FuzzyQuery.Session.Request
import FuzzyQuery.Table
import FuzzyQuery.Text
import FuzzyQuery.Text.Blank
import FuzzyQuery.Text.Columns
import FuzzyQuery.Text.Display
import FuzzyQuery.Text.LetterCase
import FuzzyQuery.Text.Literal
import FuzzyQuery.Text.LowerCase
import FuzzyQuery.Text.Printable
import FuzzyQuery.Text.Quoted
import FuzzyQuery.Text.Ranges
import FuzzyQuery.Token
import FuzzyQuery.Token.Scan
import FuzzyQuery.Token.Stream
import FuzzyQuery.Tree
import FuzzyQuery.Tree.Evaluate
import FuzzyQuery.Tree.Parse
import FuzzyQuery.Tree.Parse.Progress
import FuzzyQuery.Version
import FuzzyQuery.Word
import FuzzyQuery.Proofs.Hit
import FuzzyQuery.Proofs.Evaluation
import FuzzyQuery.Proofs.Lexeme
import FuzzyQuery.Proofs.Layout
import FuzzyQuery.Proofs.Grammar
import FuzzyQuery.Proofs.Grammar.Chain
import FuzzyQuery.Proofs.Grammar.Derivation
import FuzzyQuery.Proofs.Grammar.Climbing
import FuzzyQuery.Proofs.Grammar.Query
import FuzzyQuery.Proofs.Rendering
import FuzzyQuery.Proofs.Automaton
import FuzzyQuery.Proofs.Automaton.Simulation
import FuzzyQuery.Proofs.Grammar.Position
import FuzzyQuery.Proofs.Juxtaposition
import FuzzyQuery.Proofs.Juxtaposition.Query
import FuzzyQuery.Proofs.Stream
import FuzzyQuery.Proofs.Stream.Iterator
import FuzzyQuery.Proofs.Stream.Suffix
import FuzzyQuery.Proofs.Session
import FuzzyQuery.Proofs.Findings
import FuzzyQuery.Proofs.Automaton.Completion
import FuzzyQuery.Proofs.Spelling
import FuzzyQuery.Proofs.Automaton.Content
import FuzzyQuery.Proofs.Sharing
import FuzzyQuery.Proofs.Terms
import FuzzyQuery.Proofs.CommandLine
import FuzzyQuery.Proofs.Session.Positions
import FuzzyQuery.Proofs.CommandLine.Agreement
import FuzzyQuery.Proofs.Session.Blame
import FuzzyQuery.Proofs.TermSearch
import FuzzyQuery.Proofs.ClosingMark
import FuzzyQuery.Proofs.Concatenation
import FuzzyQuery.Proofs.Automaton.Nesting
import FuzzyQuery.Proofs.Composition
import FuzzyQuery.Proofs.Polarity
import FuzzyQuery.Proofs.Word
import FuzzyQuery.Proofs.Caret
import FuzzyQuery.Proofs.CommandLine.Rows
import FuzzyQuery.Proofs.Stream.Unread
import FuzzyQuery.Proofs.OnDemand
import FuzzyQuery.Proofs.OnDemand.Steps
import FuzzyQuery.Proofs.OnDemand.Agreement
import FuzzyQuery.Proofs.OnDemand.Climbing
import FuzzyQuery.Proofs.LowerCase
import FuzzyQuery.Proofs.LogLevel
import FuzzyQuery.Proofs.Json
import FuzzyQuery.Proofs.Json.RoundTrip
import FuzzyQuery.Proofs.Json.Ascii
import FuzzyQuery.Proofs.CommandLine.Output
import FuzzyQuery.Proofs.CommandLine.Batch
