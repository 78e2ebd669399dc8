import Packrat.Decimal.Float
import Packrat.Decimal.Shortest
import Packrat.Description.Basic
import Packrat.Description.Reader
import Packrat.Expr.Basic
import Packrat.Expr.Facts
import Packrat.Expr.Text
import Packrat.Failure
import Packrat.Grammar.Analysis
import Packrat.Grammar.Basic
import Packrat.Grammar.Forms
import Packrat.Grammar.Ignored
import Packrat.Grammar.Lower
import Packrat.Grammar.Names
import Packrat.Grammar.Numbering
import Packrat.Grammar.Resolve
import Packrat.Grammar.Scope
import Packrat.Grammar.Slots
import Packrat.Host.Arithmetic
import Packrat.Host.Builtins
import Packrat.Host.Error
import Packrat.Host.Eval
import Packrat.Host.Methods
import Packrat.Host.Order
import Packrat.Host.Reader
import Packrat.Host.Sequence
import Packrat.Host.Source
import Packrat.Host.Term
import Packrat.Input.Basic
import Packrat.Input.Excerpt
import Packrat.Input.Lines
import Packrat.Json.Basic
import Packrat.Json.Reader
import Packrat.Machine.Frame
import Packrat.Machine.Run
import Packrat.Machine.Step
import Packrat.Options
import Packrat.Parser.Load
import Packrat.Parser.Parse
import Packrat.Program.Basic
import Packrat.Program.Compile
import Packrat.Program.Emit
import Packrat.Program.Listing
import Packrat.Program.Operators
import Packrat.Proofs.Analysis.Arguments
import Packrat.Proofs.Analysis.Classes
import Packrat.Proofs.Analysis.Lowering
import Packrat.Proofs.Analysis.Resolution
import Packrat.Proofs.Analysis.Scopes
import Packrat.Proofs.Analysis.Snippets
import Packrat.Proofs.Analysis.Weaving
import Packrat.Proofs.Conduct.Alternatives
import Packrat.Proofs.Conduct.Expressions
import Packrat.Proofs.Conduct.Forms
import Packrat.Proofs.Conduct.Frames
import Packrat.Proofs.Conduct.Matching
import Packrat.Proofs.Conduct.Operators
import Packrat.Proofs.Conduct.Parses
import Packrat.Proofs.Conduct.Parts
import Packrat.Proofs.Conduct.Programs
import Packrat.Proofs.Conduct.Rounds
import Packrat.Proofs.Emission.Budget
import Packrat.Proofs.Emission.Growth
import Packrat.Proofs.Emission.Hosting
import Packrat.Proofs.Emission.Patterns
import Packrat.Proofs.Emission.Progress
import Packrat.Proofs.Emission.Snippets
import Packrat.Proofs.Emission.Soundness
import Packrat.Proofs.Emission.Tame
import Packrat.Proofs.Emission.Writing
import Packrat.Proofs.Evaluation.Coincidence
import Packrat.Proofs.Evaluation.Contents
import Packrat.Proofs.Evaluation.Faithful
import Packrat.Proofs.Evaluation.Integers
import Packrat.Proofs.Evaluation.Likeness
import Packrat.Proofs.Evaluation.Names
import Packrat.Proofs.Evaluation.Objects
import Packrat.Proofs.Evaluation.Order
import Packrat.Proofs.Evaluation.Parametricity
import Packrat.Proofs.Evaluation.Proper
import Packrat.Proofs.Evaluation.Slices
import Packrat.Proofs.Evaluation.Steps
import Packrat.Proofs.Execution.Actions
import Packrat.Proofs.Execution.Activations
import Packrat.Proofs.Execution.Following
import Packrat.Proofs.Execution.Listed
import Packrat.Proofs.Execution.Lockstep
import Packrat.Proofs.Execution.Site
import Packrat.Proofs.Execution.Transitions
import Packrat.Proofs.Execution.Walks
import Packrat.Proofs.Meaning.Agreement
import Packrat.Proofs.Meaning.Chains
import Packrat.Proofs.Meaning.Expr
import Packrat.Proofs.Meaning.Onward
import Packrat.Proofs.Meaning.Readiness
import Packrat.Proofs.Meaning.Reading
import Packrat.Proofs.Meaning.Separated
import Packrat.Proofs.Meaning.Skipped
import Packrat.Proofs.Meaning.Surveyed
import Packrat.Proofs.Meaning.Surveys
import Packrat.Proofs.Meaning.Throughout
import Packrat.Proofs.Meaning.Worlds
import Packrat.Proofs.Notation.Completeness
import Packrat.Proofs.Notation.Cutting
import Packrat.Proofs.Notation.Definitions
import Packrat.Proofs.Notation.Nesting
import Packrat.Proofs.Notation.Phrases
import Packrat.Proofs.Notation.Readers
import Packrat.Proofs.Notation.Soundness
import Packrat.Proofs.Notation.Statements
import Packrat.Proofs.Notation.Tokens
import Packrat.Proofs.Outcomes.Code
import Packrat.Proofs.Outcomes.Expressions
import Packrat.Proofs.Outcomes.Parts
import Packrat.Proofs.Outcomes.Results
import Packrat.Proofs.Outcomes.Rounds
import Packrat.Proofs.Places.Bytes
import Packrat.Proofs.Places.Characters
import Packrat.Proofs.Places.Excerpts
import Packrat.Proofs.Places.Lines
import Packrat.Proofs.Places.Nodes
import Packrat.Proofs.Printing.Expressions
import Packrat.Proofs.Printing.Literals
import Packrat.Proofs.Printing.Operands
import Packrat.Proofs.Printing.Padding
import Packrat.Proofs.Printing.Readback
import Packrat.Proofs.Printing.Snippets
import Packrat.Proofs.Printing.Values
import Packrat.Proofs.Recursion.Arrivals
import Packrat.Proofs.Recursion.Histories
import Packrat.Proofs.Recursion.Memory
import Packrat.Proofs.Recursion.Reentry
import Packrat.Proofs.Recursion.Transparency
import Packrat.Proofs.Safety.Compilation
import Packrat.Proofs.Safety.Names
import Packrat.Proofs.Safety.Runs
import Packrat.Proofs.Safety.Termination
import Packrat.Proofs.Simulation.Alternatives
import Packrat.Proofs.Simulation.Arguments
import Packrat.Proofs.Simulation.Bounds
import Packrat.Proofs.Simulation.Calling
import Packrat.Proofs.Simulation.Calls
import Packrat.Proofs.Simulation.Choices
import Packrat.Proofs.Simulation.Definitions
import Packrat.Proofs.Simulation.Expressions
import Packrat.Proofs.Simulation.Matching
import Packrat.Proofs.Simulation.Operators
import Packrat.Proofs.Simulation.Peeking
import Packrat.Proofs.Simulation.Performing
import Packrat.Proofs.Simulation.Programs
import Packrat.Proofs.Simulation.Realizing
import Packrat.Proofs.Simulation.Repetitions
import Packrat.Proofs.Simulation.Rounds
import Packrat.Proofs.Simulation.Separators
import Packrat.Proofs.Simulation.Sequences
import Packrat.Proofs.Simulation.Skipping
import Packrat.Proofs.Simulation.Tables
import Packrat.Proofs.Splitting.Globals
import Packrat.Proofs.Splitting.Layouts
import Packrat.Proofs.Splitting.Parses
import Packrat.Proofs.Splitting.Programs
import Packrat.Proofs.Trees.Export
import Packrat.Proofs.Trees.Identity
import Packrat.Proofs.Trees.Placing
import Packrat.Proofs.Trees.Rebuilding
import Packrat.Proofs.Trees.Visiting
import Packrat.Regex.CharSet
import Packrat.Regex.Engine
import Packrat.Regex.Pattern
import Packrat.Regex.Program
import Packrat.Regex.Reader
import Packrat.Regex.Search
import Packrat.Scan.Cursor
import Packrat.Scan.Lexical
import Packrat.Span
import Packrat.Text.Blank
import Packrat.Text.ByteOffset
import Packrat.Text.Case
import Packrat.Text.CaseTable
import Packrat.Text.Escape
import Packrat.Text.Find
import Packrat.Text.Numeral
import Packrat.Text.PrintTable
import Packrat.Text.Quoted
import Packrat.Text.SortedNames
import Packrat.Text.Utf8
import Packrat.Text.Width
import Packrat.Text.WidthTable
import Packrat.Text.WordTable
import Packrat.Tree.Places
import Packrat.Tree.Replace
import Packrat.Tree.Transform
import Packrat.Tree.Visit
import Packrat.Value.Basic
import Packrat.Value.Equality
import Packrat.Value.Export
import Packrat.Value.Show
