import FormulaDesk.Arguments
import FormulaDesk.CommandLine.Command
import FormulaDesk.CommandLine.Run
import FormulaDesk.CommandLine.Summary
import FormulaDesk.CommandLine.Usage
import FormulaDesk.Decimal.Binary
import FormulaDesk.Decimal.Digits
import FormulaDesk.Decimal.Layout
import FormulaDesk.Decimal.Numeral
import FormulaDesk.Dialect.Cleanup
import FormulaDesk.Dialect.Conversion
import FormulaDesk.Dialect.Printer
import FormulaDesk.Expression.BuiltIn
import FormulaDesk.Expression.Call
import FormulaDesk.Expression.Check
import FormulaDesk.Expression.Engine
import FormulaDesk.Expression.Literal
import FormulaDesk.Expression.Names
import FormulaDesk.Expression.Token
import FormulaDesk.Expression.Tree
import FormulaDesk.Expression.Value
import FormulaDesk.Failure
import FormulaDesk.Folder
import FormulaDesk.Graph.Commands
import FormulaDesk.Graph.Report
import FormulaDesk.Graph.Widget
import FormulaDesk.Json.Basic
import FormulaDesk.Json.Printer
import FormulaDesk.Json.Reader
import FormulaDesk.Log.Format
import FormulaDesk.Log.Record
import FormulaDesk.Log.Setup
import FormulaDesk.Log.Template
import FormulaDesk.Log.Timestamp
import FormulaDesk.Main
import FormulaDesk.Markup.Node
import FormulaDesk.Markup.Reading
import FormulaDesk.Markup.Token
import FormulaDesk.Method.Catalog
import FormulaDesk.Method.Request
import FormulaDesk.Plot.Curve
import FormulaDesk.Plot.Preview
import FormulaDesk.Plot.Report
import FormulaDesk.Proofs.Arithmetic.Grammar
import FormulaDesk.Proofs.Arithmetic.Meaning
import FormulaDesk.Proofs.Balance.Printing
import FormulaDesk.Proofs.Balance.Reading
import FormulaDesk.Proofs.Balance.Text
import FormulaDesk.Proofs.Dialect.Lexeme
import FormulaDesk.Proofs.Dialect.NormalForm
import FormulaDesk.Proofs.Dialect.Parts
import FormulaDesk.Proofs.Dialect.Passes
import FormulaDesk.Proofs.Dialect.Rewriting
import FormulaDesk.Proofs.Dialect.Settled
import FormulaDesk.Proofs.Dialect.Words
import FormulaDesk.Proofs.Drawable.Basic
import FormulaDesk.Proofs.Drawable.Printing
import FormulaDesk.Proofs.Enclosure.Conversion
import FormulaDesk.Proofs.Enclosure.Reading
import FormulaDesk.Proofs.Expression.Names
import FormulaDesk.Proofs.Formula.Basic
import FormulaDesk.Proofs.Formula.Cleanup
import FormulaDesk.Proofs.Formula.Fractions
import FormulaDesk.Proofs.Formula.Parsing
import FormulaDesk.Proofs.Formula.Preservation
import FormulaDesk.Proofs.Formula.Printing
import FormulaDesk.Proofs.Formula.Reading
import FormulaDesk.Proofs.Graph.Calls
import FormulaDesk.Proofs.Graph.Loading
import FormulaDesk.Proofs.Graph.Runs
import FormulaDesk.Proofs.Json.Fields
import FormulaDesk.Proofs.Reading.Adequacy
import FormulaDesk.Proofs.Reading.Compositional
import FormulaDesk.Proofs.Reading.Conservation
import FormulaDesk.Proofs.Reading.Constructs
import FormulaDesk.Proofs.Reading.Height
import FormulaDesk.Proofs.Reading.Limit
import FormulaDesk.Proofs.Reading.Nesting
import FormulaDesk.Proofs.Reading.Pieces
import FormulaDesk.Proofs.Reading.RoundTrip
import FormulaDesk.Proofs.Reading.Rules
import FormulaDesk.Proofs.Reading.Scanning
import FormulaDesk.Proofs.Reading.Written
import FormulaDesk.Proofs.Scripts.Bare
import FormulaDesk.Proofs.Scripts.Calls
import FormulaDesk.Proofs.Scripts.Implicit
import FormulaDesk.Proofs.Scripts.Marks
import FormulaDesk.Proofs.Scripts.Plain
import FormulaDesk.Proofs.Service.Answers
import FormulaDesk.Proofs.Service.Classification
import FormulaDesk.Proofs.Service.Sending
import FormulaDesk.Proofs.Session.Course
import FormulaDesk.Proofs.Session.Entries
import FormulaDesk.Proofs.Session.Failures
import FormulaDesk.Proofs.Session.Forms
import FormulaDesk.Proofs.Session.InFlight
import FormulaDesk.Proofs.Session.Operations
import FormulaDesk.Proofs.Session.Outcomes
import FormulaDesk.Proofs.Session.Requests
import FormulaDesk.Proofs.Session.Sending
import FormulaDesk.Proofs.Session.Submission
import FormulaDesk.Proofs.Session.Views
import FormulaDesk.Proofs.Spacing.Blanks
import FormulaDesk.Proofs.Spacing.Commands
import FormulaDesk.Proofs.Spacing.Readers
import FormulaDesk.Proofs.Steps
import FormulaDesk.Proofs.Text.Classes
import FormulaDesk.Proofs.Totality.Conversion
import FormulaDesk.Proofs.Totality.Cursor
import FormulaDesk.Proofs.Totality.Printing
import FormulaDesk.Proofs.Totality.Reader
import FormulaDesk.Proofs.Totality.Reading
import FormulaDesk.Proofs.Totality.Tokens
import FormulaDesk.Service.Client
import FormulaDesk.Service.Detail
import FormulaDesk.Service.Reply
import FormulaDesk.Service.Url
import FormulaDesk.Session.Call
import FormulaDesk.Session.Entry
import FormulaDesk.Session.Form
import FormulaDesk.Session.State
import FormulaDesk.Symbolic.Amount
import FormulaDesk.Symbolic.Arithmetic
import FormulaDesk.Symbolic.ComplexFloat
import FormulaDesk.Symbolic.Derivative
import FormulaDesk.Symbolic.Evaluate
import FormulaDesk.Symbolic.Function
import FormulaDesk.Symbolic.Root
import FormulaDesk.Symbolic.Special
import FormulaDesk.Symbolic.Term
import FormulaDesk.Text.CharClass
import FormulaDesk.Text.Quoted
import FormulaDesk.Text.Ranges
import FormulaDesk.Proofs.Session.ResultsTab
import FormulaDesk.Proofs.Method.Building
import FormulaDesk.Proofs.Method.Validation
import FormulaDesk.Proofs.CommandLine.Solving
import FormulaDesk.Proofs.Service.Vocabularies
import FormulaDesk.Proofs.Service.Records
import FormulaDesk.Proofs.CommandLine.Printing
import FormulaDesk.Proofs.CommandLine.Parameters
import FormulaDesk.Proofs.CommandLine.Ways
import FormulaDesk.Proofs.Decimal.Binary
import FormulaDesk.Proofs.Decimal.Digits
import FormulaDesk.Proofs.Decimal.Reading
import FormulaDesk.Proofs.Decimal.Rounding
import FormulaDesk.Proofs.Decimal.Shortest
import FormulaDesk.Proofs.Json.Numbers
import FormulaDesk.Proofs.Method.RootProblem
import FormulaDesk.Proofs.Session.Filling
import FormulaDesk.Proofs.Spacing.Operands
