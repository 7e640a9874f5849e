import Calculator.Binary64.Float
import Calculator.Binary64.Nearest
import Calculator.CommandLine.Options
import Calculator.CommandLine.Program
import Calculator.Decimal.Basic
import Calculator.Decimal.Numeral
import Calculator.Decimal.Shortest
import Calculator.Error
import Calculator.Expr
import Calculator.Grammar.Cursor
import Calculator.Grammar.Descent
import Calculator.Grammar.Node
import Calculator.Grammar.Parse
import Calculator.Grammar.Progress
import Calculator.Grammar.Reader
import Calculator.Main
import Calculator.Proofs.CommandLine.Caret
import Calculator.Proofs.CommandLine.Conversation
import Calculator.Proofs.CommandLine.Exchange
import Calculator.Proofs.CommandLine.Items
import Calculator.Proofs.CommandLine.OneShot
import Calculator.Proofs.CommandLine.Outputs
import Calculator.Proofs.CommandLine.Scene
import Calculator.Proofs.CommandLine.Similarity
import Calculator.Proofs.CommandLine.Steps
import Calculator.Proofs.Expr.Bare
import Calculator.Proofs.Expr.Readability
import Calculator.Proofs.Expr.Variables
import Calculator.Proofs.Grammar.Budget
import Calculator.Proofs.Grammar.Calls
import Calculator.Proofs.Grammar.Completeness
import Calculator.Proofs.Grammar.Derivation
import Calculator.Proofs.Grammar.Display
import Calculator.Proofs.Grammar.Echo
import Calculator.Proofs.Grammar.Ending
import Calculator.Proofs.Grammar.Frame
import Calculator.Proofs.Grammar.Induction
import Calculator.Proofs.Grammar.Lenience
import Calculator.Proofs.Grammar.Literal
import Calculator.Proofs.Grammar.Lookahead
import Calculator.Proofs.Grammar.Mirror
import Calculator.Proofs.Grammar.Moves
import Calculator.Proofs.Grammar.Nesting
import Calculator.Proofs.Grammar.Nodes
import Calculator.Proofs.Grammar.Pretty
import Calculator.Proofs.Grammar.Reading
import Calculator.Proofs.Grammar.Recognition
import Calculator.Proofs.Grammar.Refusal
import Calculator.Proofs.Grammar.Repair
import Calculator.Proofs.Grammar.Resumption
import Calculator.Proofs.Grammar.Scanning
import Calculator.Proofs.Grammar.Settled
import Calculator.Proofs.Grammar.Sites
import Calculator.Proofs.Grammar.Soundness
import Calculator.Proofs.Grammar.Spacing
import Calculator.Proofs.Grammar.Splicing
import Calculator.Proofs.Grammar.Success
import Calculator.Proofs.Grammar.Termination
import Calculator.Proofs.Grammar.Tightening
import Calculator.Proofs.Grammar.Token
import Calculator.Proofs.Grammar.Transport
import Calculator.Proofs.Grammar.Truth
import Calculator.Proofs.Grammar.Viability
import Calculator.Proofs.Grammar.Writing
import Calculator.Proofs.Session.Composition
import Calculator.Proofs.Session.Foresight
import Calculator.Proofs.Session.Fusion
import Calculator.Proofs.Session.History
import Calculator.Proofs.Session.Independence
import Calculator.Proofs.Session.Inquiry
import Calculator.Proofs.Session.OnePass
import Calculator.Proofs.Session.Places
import Calculator.Proofs.Session.Questions
import Calculator.Proofs.Session.Resolution
import Calculator.Proofs.Session.Scripted
import Calculator.Proofs.Session.Watched
import Calculator.Proofs.Terminal.Commands
import Calculator.Proofs.Terminal.Lines
import Calculator.Session.Evaluation
import Calculator.Session.Journal
import Calculator.Session.Stage
import Calculator.Session.Variables
import Calculator.Terminal.Console
import Calculator.Terminal.Output
import Calculator.Text
