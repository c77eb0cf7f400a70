import MatrixScript.Change
import MatrixScript.CommandLine
import MatrixScript.Decimal.Reading
import MatrixScript.Decimal.Shortest
import MatrixScript.Decimal.Written
import MatrixScript.Evaluation.Expression
import MatrixScript.Evaluation.Sink
import MatrixScript.Evaluation.Statement
import MatrixScript.Fault
import MatrixScript.Grammar.Expression
import MatrixScript.Grammar.Parser
import MatrixScript.Grammar.Power
import MatrixScript.Grammar.Statement
import MatrixScript.Integer
import MatrixScript.Main
import MatrixScript.Matrix.Basic
import MatrixScript.Matrix.Element
import MatrixScript.Matrix.Fault
import MatrixScript.Matrix.Product
import MatrixScript.Matrix.Selection
import MatrixScript.Matrix.Selector
import MatrixScript.Operator
import MatrixScript.Program
import MatrixScript.Proofs.Evaluation.Assignment
import MatrixScript.Proofs.Evaluation.Atomicity
import MatrixScript.Proofs.Evaluation.Definedness
import MatrixScript.Proofs.Evaluation.Expression
import MatrixScript.Proofs.Evaluation.Moments
import MatrixScript.Proofs.Evaluation.Outcome
import MatrixScript.Proofs.Evaluation.Preservation
import MatrixScript.Proofs.Evaluation.Reading
import MatrixScript.Proofs.Evaluation.Run
import MatrixScript.Proofs.Evaluation.Safety
import MatrixScript.Proofs.Evaluation.Scopes
import MatrixScript.Proofs.Evaluation.Signals
import MatrixScript.Proofs.Evaluation.Simulation
import MatrixScript.Proofs.Evaluation.Steps
import MatrixScript.Proofs.Grammar.Completeness.Expression
import MatrixScript.Proofs.Grammar.Completeness.Statement
import MatrixScript.Proofs.Grammar.Derivation
import MatrixScript.Proofs.Grammar.Language
import MatrixScript.Proofs.Grammar.Layout
import MatrixScript.Proofs.Grammar.Levels
import MatrixScript.Proofs.Grammar.Moves
import MatrixScript.Proofs.Grammar.Nesting
import MatrixScript.Proofs.Grammar.Soundness.Expression
import MatrixScript.Proofs.Grammar.Soundness.Statement
import MatrixScript.Proofs.Scope.Agreement
import MatrixScript.Proofs.Scope.Environment
import MatrixScript.Proofs.Scope.Lockstep
import MatrixScript.Proofs.Scope.Memory
import MatrixScript.Proofs.Token.Coverage
import MatrixScript.Proofs.Token.Lexeme
import MatrixScript.Proofs.Token.Rules
import MatrixScript.Proofs.Token.Steps
import MatrixScript.Proofs.Typing.Containment
import MatrixScript.Proofs.Typing.Inversion
import MatrixScript.Proofs.Typing.Judgement
import MatrixScript.Proofs.Typing.Knowledge
import MatrixScript.Proofs.Typing.Moves
import MatrixScript.Proofs.Typing.Once
import MatrixScript.Proofs.Typing.Source
import MatrixScript.Proofs.Typing.Statement
import MatrixScript.Proofs.Typing.Visits
import MatrixScript.Proofs.Value.Conformance
import MatrixScript.Proofs.Value.Literal
import MatrixScript.Proofs.Value.Selection
import MatrixScript.Proofs.Value.Shape
import MatrixScript.Proofs.Value.Writing
import MatrixScript.Report
import MatrixScript.Scope.Declarations
import MatrixScript.Scope.Memory
import MatrixScript.Source
import MatrixScript.StaticType.Basic
import MatrixScript.StaticType.Table
import MatrixScript.Text.Blank
import MatrixScript.Text.Digit
import MatrixScript.Text.Extending
import MatrixScript.Text.Quoted
import MatrixScript.Text.Ranges
import MatrixScript.Text.Unprintable
import MatrixScript.Token.Basic
import MatrixScript.Token.Cursor
import MatrixScript.Token.Rule
import MatrixScript.Token.Scan
import MatrixScript.Tree
import MatrixScript.Typing.Checker
import MatrixScript.Typing.Compatibility
import MatrixScript.Typing.Expression
import MatrixScript.Typing.Finding
import MatrixScript.Typing.Index
import MatrixScript.Typing.Literal
import MatrixScript.Typing.Statement
import MatrixScript.Value.Basic
import MatrixScript.Value.Indexing
import MatrixScript.Value.Operation
import MatrixScript.Proofs.Token.Rendering
import MatrixScript.Proofs.Matrix.Cells
import MatrixScript.Proofs.Matrix.Guarded
import MatrixScript.Proofs.Matrix.Accumulation
import MatrixScript.Proofs.Matrix.Storage
import MatrixScript.Proofs.Printing.Text
import MatrixScript.Proofs.Printing.Types
import MatrixScript.Proofs.Printing.RoundTrip
import MatrixScript.Proofs.Typing.Walk
import MatrixScript.Proofs.Typing.Ledger
import MatrixScript.Proofs.Grammar.Ownership
import MatrixScript.Proofs.Grammar.Lawful
import MatrixScript.Proofs.Grammar.WellFormed
import MatrixScript.Proofs.Evaluation.Walk
import MatrixScript.Proofs.Scope.Contents
import MatrixScript.Proofs.Typing.Stored
import MatrixScript.Proofs.Evaluation.Stored
import MatrixScript.Proofs.Source.Lines
import MatrixScript.Proofs.Evaluation.Places
import MatrixScript.Proofs.Evaluation.Output
import MatrixScript.Proofs.Evaluation.Literal
import MatrixScript.Proofs.Typing.Definite
import MatrixScript.Proofs.Typing.Shapes
import MatrixScript.Proofs.Value.Faults
import MatrixScript.Proofs.Value.Dimensions
import MatrixScript.Proofs.Evaluation.Stability
import MatrixScript.Proofs.Evaluation.Dimensions
import MatrixScript.Proofs.Matrix.Exactness
import MatrixScript.Proofs.Typing.Omissions
import MatrixScript.Proofs.Grammar.Coverage.Productions
import MatrixScript.Proofs.Grammar.Spans
import MatrixScript.Proofs.Grammar.Lookahead
import MatrixScript.Proofs.Grammar.Viability.Expression
import MatrixScript.Proofs.Grammar.Viability.Statement
import MatrixScript.Proofs.Grammar.Failure
import MatrixScript.Proofs.Matrix.Cellwise
import MatrixScript.Proofs.Value.Arithmetic
import MatrixScript.Proofs.Value.Broadcasting
import MatrixScript.Proofs.Matrix.Lens
import MatrixScript.Proofs.Evaluation.Slices
import MatrixScript.Proofs.Matrix.Transposition
import MatrixScript.Proofs.Evaluation.Compound
import MatrixScript.Proofs.Token.Munch
import MatrixScript.Proofs.Grammar.Lines
import MatrixScript.Proofs.Typing.Order
import MatrixScript.Proofs.Typing.Findings
import MatrixScript.Proofs.Typing.Bounds
import MatrixScript.Proofs.Source.Caret
import MatrixScript.Proofs.Grammar.Progress.Moves
import MatrixScript.Proofs.Grammar.Progress.Loops
import MatrixScript.Proofs.Grammar.Progress.Productions
import MatrixScript.Proofs.Grammar.Progress.Termination
