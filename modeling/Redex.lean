import Redex.CommandLine
import Redex.Console
import Redex.Cursor
import Redex.Decimal.Shortest
import Redex.Eval.Normalize
import Redex.Eval.Run
import Redex.Failure
import Redex.Interpreter
import Redex.Literal
import Redex.Main
import Redex.NameSupply
import Redex.Parser
import Redex.Program
import Redex.Proofs.Arithmetic
import Redex.Proofs.BoundNames
import Redex.Proofs.Budget
import Redex.Proofs.CallTree
import Redex.Proofs.Carets
import Redex.Proofs.Consumption
import Redex.Proofs.CursorRuns
import Redex.Proofs.Decoration
import Redex.Proofs.Depth
import Redex.Proofs.Diagnosis
import Redex.Proofs.Drawing
import Redex.Proofs.ErrorColumn
import Redex.Proofs.Escapes
import Redex.Proofs.Evaluation
import Redex.Proofs.FileRun
import Redex.Proofs.FixedPoints
import Redex.Proofs.FreeVariables
import Redex.Proofs.Freshness
import Redex.Proofs.Grammar
import Redex.Proofs.Grouping
import Redex.Proofs.Growth
import Redex.Proofs.Interaction
import Redex.Proofs.Letters
import Redex.Proofs.Lockstep
import Redex.Proofs.NameShapes
import Redex.Proofs.Nameless
import Redex.Proofs.NormalForms
import Redex.Proofs.Numerals
import Redex.Proofs.Outline
import Redex.Proofs.Passes
import Redex.Proofs.Prefixes
import Redex.Proofs.Printing
import Redex.Proofs.Queue
import Redex.Proofs.Readability
import Redex.Proofs.Reading
import Redex.Proofs.Reevaluation
import Redex.Proofs.Retyping
import Redex.Proofs.RoundTrip
import Redex.Proofs.Scanning
import Redex.Proofs.Script
import Redex.Proofs.SmallSteps
import Redex.Proofs.Soundness
import Redex.Proofs.Strategy
import Redex.Proofs.Substitution
import Redex.Proofs.Termination
import Redex.Proofs.Tracing
import Redex.Proofs.Walk
import Redex.Proofs.WeakForms
import Redex.Report
import Redex.Session
import Redex.Shell
import Redex.Source
import Redex.SyntaxError
import Redex.Term.Alpha
import Redex.Term.Basic
import Redex.Term.Numeral
import Redex.Term.Render
import Redex.Term.Sketch
import Redex.Term.Subst
import Redex.Text.Blank
import Redex.Text.Digit
import Redex.Text.Integer
import Redex.Text.Lines
import Redex.Text.Message
import Redex.Text.Printable
import Redex.Text.Quoted
import Redex.Text.Slice
import Redex.Text.Style
import Redex.Text.Template
import Redex.Text.Utf8
import Redex.Token
