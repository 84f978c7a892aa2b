import FactFold.Artifact
import FactFold.Buffer.Access
import FactFold.Buffer.Memory
import FactFold.Buffer.Value
import FactFold.Buffer.Vector
import FactFold.Calendar
import FactFold.Code.Literal
import FactFold.Code.Printer
import FactFold.Code.Term
import FactFold.Compiler.Basic
import FactFold.Compiler.Metrics
import FactFold.Config
import FactFold.DataType
import FactFold.Datum.Basic
import FactFold.Datum.Conversion
import FactFold.Datum.Scalar
import FactFold.Expr.Build
import FactFold.Expr.Constant
import FactFold.Expr.Measure
import FactFold.Expr.Node
import FactFold.Expr.Operator
import FactFold.Expr.Parser
import FactFold.Expr.Token
import FactFold.Failure
import FactFold.Function.Accumulator
import FactFold.Function.Basic
import FactFold.Function.Catalog
import FactFold.Function.Matching
import FactFold.Function.Metadata
import FactFold.Function.Registry
import FactFold.Function.Resolution
import FactFold.Kind.Builtin
import FactFold.Kind.Table
import FactFold.Kind.Visitor
import FactFold.Log.Arg
import FactFold.Log.Format
import FactFold.Log.Level
import FactFold.Log.Logger
import FactFold.Log.Verb
import FactFold.Lowering.Element
import FactFold.Lowering.Lower
import FactFold.Lowering.Operators
import FactFold.Machine.Builtin
import FactFold.Machine.Check
import FactFold.Machine.Eval
import FactFold.Machine.Fault
import FactFold.Machine.Formula
import FactFold.Machine.Grammar
import FactFold.Machine.Lexeme
import FactFold.Machine.Methods
import FactFold.Machine.Operators
import FactFold.Machine.Routine
import FactFold.Machine.Simplify
import FactFold.Machine.Source
import FactFold.Machine.Trace
import FactFold.Machine.World
import FactFold.Number.Binary
import FactFold.Number.Decimal
import FactFold.Number.Notation
import FactFold.Number.Reading
import FactFold.Number.Rounded
import FactFold.Number.Shortest
import FactFold.Proofs.Buffer.Representation
import FactFold.Proofs.Code.Decoding
import FactFold.Proofs.Code.Lexing
import FactFold.Proofs.Code.Literals
import FactFold.Proofs.Code.Parts
import FactFold.Proofs.Code.Reading
import FactFold.Proofs.Code.Renaming
import FactFold.Proofs.Code.Spelling
import FactFold.Proofs.Compiler.Independence
import FactFold.Proofs.Expr.Conditions
import FactFold.Proofs.Expr.Conventions
import FactFold.Proofs.Expr.Cutting
import FactFold.Proofs.Expr.Grammar
import FactFold.Proofs.Expr.Integers
import FactFold.Proofs.Expr.Literals
import FactFold.Proofs.Expr.Meaning
import FactFold.Proofs.Expr.Measures
import FactFold.Proofs.Expr.Parsing
import FactFold.Proofs.Expr.Printing
import FactFold.Proofs.Expr.References
import FactFold.Proofs.Expr.Rescanning
import FactFold.Proofs.Expr.Scanning
import FactFold.Proofs.Expr.Spacing
import FactFold.Proofs.Expr.Taken
import FactFold.Proofs.Expr.Taking
import FactFold.Proofs.Expr.Unambiguity
import FactFold.Proofs.Expr.Values
import FactFold.Proofs.Function.Caching
import FactFold.Proofs.Function.Collecting
import FactFold.Proofs.Function.Lookups
import FactFold.Proofs.Function.Naming
import FactFold.Proofs.Kind.Additive
import FactFold.Proofs.Kind.Atomicity
import FactFold.Proofs.Kind.Branching
import FactFold.Proofs.Kind.Combining
import FactFold.Proofs.Kind.Effects
import FactFold.Proofs.Kind.Fitting
import FactFold.Proofs.Kind.Histories
import FactFold.Proofs.Kind.Imports
import FactFold.Proofs.Kind.Indexing
import FactFold.Proofs.Kind.Methods
import FactFold.Proofs.Kind.Parameter
import FactFold.Proofs.Kind.Progress
import FactFold.Proofs.Kind.Renaming
import FactFold.Proofs.Kind.Rendering
import FactFold.Proofs.Kind.Runs
import FactFold.Proofs.Kind.Soundness
import FactFold.Proofs.Kind.Support
import FactFold.Proofs.Kind.Undoing
import FactFold.Proofs.Kind.Vectors
import FactFold.Proofs.Kind.Widening
import FactFold.Proofs.Log.Names
import FactFold.Proofs.Lowering.Acceptance
import FactFold.Proofs.Lowering.Choices
import FactFold.Proofs.Lowering.Faithful
import FactFold.Proofs.Lowering.Parts
import FactFold.Proofs.Lowering.Relation
import FactFold.Proofs.Lowering.Renaming
import FactFold.Proofs.Lowering.Simulation
import FactFold.Proofs.Lowering.Soundness
import FactFold.Proofs.Lowering.Sparing
import FactFold.Proofs.Lowering.Steps
import FactFold.Proofs.Lowering.Widening
import FactFold.Proofs.Machine.Akin
import FactFold.Proofs.Machine.Altering
import FactFold.Proofs.Machine.Elementwise
import FactFold.Proofs.Machine.Folding
import FactFold.Proofs.Machine.Oblivious
import FactFold.Proofs.Machine.Primitives
import FactFold.Proofs.Machine.Progress
import FactFold.Proofs.Machine.Renaming
import FactFold.Proofs.Machine.Sparing
import FactFold.Proofs.Machine.Statements
import FactFold.Proofs.Machine.Steps
import FactFold.Proofs.Machine.Terms
import FactFold.Proofs.Machine.Vectors
import FactFold.Proofs.Number.Endings
import FactFold.Proofs.Number.Wrap
import FactFold.Proofs.Text.Quoting
import FactFold.Proofs.Text.Utf8
import FactFold.Report
import FactFold.Span
import FactFold.Text.Blank
import FactFold.Text.Bytes
import FactFold.Text.Case
import FactFold.Text.Letter
import FactFold.Text.Pattern.Basic
import FactFold.Text.Pattern.Reading
import FactFold.Text.Printable
import FactFold.Text.Quoted
import FactFold.Yaml.Cursor
import FactFold.Yaml.Decode
import FactFold.Yaml.Document
import FactFold.Yaml.Queue
import FactFold.Yaml.Scalar
import FactFold.Yaml.Token
import FactFold.Yaml.Tree
