import Lox.Main
import Lox.Scope.Forest
import Lox.Lexer.Order
import Lox.Proofs.Grammar.Shape
import Lox.Proofs.Grammar.Written
import Lox.Proofs.Parser.Depth
import Lox.Proofs.Parser.Clean
import Lox.Proofs.Parser.Expression
import Lox.Proofs.Parser.Statement
import Lox.Proofs.Parser.RoundTrip
import Lox.Proofs.Eval.Failures
import Lox.Proofs.Run.Outcome
import Lox.Proofs.Lexer.Lines
import Lox.Proofs.Eval.Relocate
import Lox.Proofs.Run.Append
import Lox.Proofs.Parser.Segments
import Lox.Proofs.Parser.Progress
import Lox.Proofs.Parser.Produced
import Lox.Proofs.Eval.Scopes
import Lox.Proofs.Eval.BigStep
import Lox.Proofs.Eval.Computed
import Lox.Proofs.Eval.Adequacy
import Lox.Proofs.Eval.Division
import Lox.Proofs.Eval.Blame
import Lox.Proofs.Parser.Kinds
import Lox.Proofs.Run.Layout
import Lox.Proofs.Lexer.Munch
import Lox.Proofs.Lexer.Scan
import Lox.Proofs.Eval.Simulation
import Lox.Proofs.Eval.Padding
import Lox.Proofs.Eval.Redundant
import Lox.Proofs.Parser.Origin
import Lox.Proofs.Lexer.Place
import Lox.Proofs.Session.Records
import Lox.Proofs.Run.Diagnosis
import Lox.Proofs.Run.Fatal
import Lox.Proofs.CommandLine.Script
import Lox.Proofs.CommandLine.Listing
import Lox.Proofs.CommandLine.Status
import Lox.Proofs.Lexer.Spaces
import Lox.Proofs.Grammar.Braces
import Lox.Proofs.Run.Spaces
import Lox.Proofs.Shell.Entries
import Lox.Proofs.Shell.Typing
import Lox.Proofs.Eval.Output
import Lox.Proofs.Session.Fresh
import Lox.Proofs.Session.History
import Lox.Proofs.Lexer.Marks
import Lox.Proofs.Shell.Commands
import Lox.Proofs.Shell.Ledger
import Lox.Proofs.Lexer.Front
import Lox.Proofs.Shell.Braces
import Lox.Proofs.Grammar.Names
import Lox.Proofs.Eval.Agreement
import Lox.Proofs.Eval.Renaming
import Lox.Proofs.Lexer.Lexeme
import Lox.Proofs.Grammar.Nested
import Lox.Proofs.Run.Printed
import Lox.Proofs.Grammar.Polish
import Lox.Proofs.Run.Polish
import Lox.Proofs.Lexer.Site
import Lox.Proofs.Lexer.Mending
import Lox.Proofs.Lexer.Writing
import Lox.Proofs.Parser.Complaints
import Lox.Proofs.Parser.Stored
import Lox.Proofs.Parser.Positions
import Lox.Proofs.Scope.Forest
import Lox.Proofs.Scope.History
import Lox.Proofs.Scope.Laws
import Lox.Proofs.Scope.Chains
import Lox.Proofs.Grammar.Loose
import Lox.Proofs.Grammar.NearestElse
import Lox.Proofs.Parser.LooseExpression
import Lox.Proofs.Parser.LooseStatement
import Lox.Proofs.Parser.Recovery
import Lox.Proofs.Console.History
import Lox.Proofs.Lexer.Column
import Lox.Proofs.Run.Underline
