import SubstLisp.CommandLine.Arguments
import SubstLisp.CommandLine.Dialogue
import SubstLisp.CommandLine.Files
import SubstLisp.CommandLine.Folder
import SubstLisp.CommandLine.Output
import SubstLisp.CommandLine.Run
import SubstLisp.Decimal.FloatText
import SubstLisp.Decimal.Literal
import SubstLisp.Decimal.Shortest
import SubstLisp.Evaluation.BuiltinCall
import SubstLisp.Evaluation.Computation
import SubstLisp.Evaluation.Depth
import SubstLisp.Evaluation.Environment
import SubstLisp.Evaluation.Evaluate
import SubstLisp.Evaluation.Failure
import SubstLisp.Evaluation.Value
import SubstLisp.Form.Keyword
import SubstLisp.Form.Node
import SubstLisp.Form.Reading
import SubstLisp.Form.Token
import SubstLisp.Main
import SubstLisp.Number.Arithmetic
import SubstLisp.Number.Basic
import SubstLisp.Number.Rounding
import SubstLisp.Number.Word
import SubstLisp.Prompt.Balance
import SubstLisp.Prompt.Completion
import SubstLisp.Prompt.Marks
import SubstLisp.Report.Basic
import SubstLisp.Report.Lines
import SubstLisp.Session
import SubstLisp.Source.Lexeme
import SubstLisp.Source.Span
import SubstLisp.Text.Backspace
import SubstLisp.Text.Grapheme
import SubstLisp.Text.GraphemeClass
import SubstLisp.Text.Whitespace
import SubstLisp.Proofs.Number.ExactArithmetic
import SubstLisp.Proofs.Evaluation.Lockstep
import SubstLisp.Proofs.Evaluation.Locality
import SubstLisp.Proofs.Number.Canonical
import SubstLisp.Proofs.Reading.Leaves
import SubstLisp.Proofs.Reading.Classification
import SubstLisp.Proofs.Session.History
import SubstLisp.Proofs.Session.Hygiene
import SubstLisp.Proofs.Reading.Joining
import SubstLisp.Proofs.Evaluation.Relocation
import SubstLisp.Proofs.Session.Splitting
import SubstLisp.Proofs.Evaluation.Spanless
import SubstLisp.Proofs.Reading.Balance
import SubstLisp.Proofs.Reading.Lexemes
import SubstLisp.Proofs.Reading.Linearization
import SubstLisp.Proofs.Reading.Legibility
import SubstLisp.Proofs.Reading.Printing
import SubstLisp.Proofs.Evaluation.Invariants
import SubstLisp.Proofs.Session.ReadBack
import SubstLisp.Proofs.Evaluation.Vocabulary
import SubstLisp.Proofs.Number.Exactness
import SubstLisp.Proofs.Evaluation.Exactness
import SubstLisp.Proofs.Evaluation.Bindings
import SubstLisp.Proofs.Evaluation.Independence
import SubstLisp.Proofs.Reading.Unbalanced
import SubstLisp.Proofs.Evaluation.Provenance
import SubstLisp.Proofs.Session.FailureSpans
import SubstLisp.Proofs.Evaluation.Substitution
import SubstLisp.Proofs.Reading.Resuming
import SubstLisp.Proofs.Reading.Trimming
import SubstLisp.Proofs.CommandLine.Conversation
import SubstLisp.Proofs.Evaluation.Renaming
import SubstLisp.Proofs.Reading.Continuing
import SubstLisp.Proofs.Reading.Lexing
import SubstLisp.Proofs.Number.Reduction
import SubstLisp.Proofs.Reading.Slices
import SubstLisp.Proofs.Number.ExactNumber
import SubstLisp.Proofs.Number.Order
import SubstLisp.Proofs.Evaluation.Comparisons
import SubstLisp.Proofs.Number.Rounding
import SubstLisp.Proofs.Evaluation.Totals
import SubstLisp.Proofs.Evaluation.Extremes
import SubstLisp.Proofs.Evaluation.ErrorPriority
import SubstLisp.Proofs.Reading.Literals
import SubstLisp.Proofs.Session.Spanless
import SubstLisp.Proofs.Session.Shorthand
import SubstLisp.Proofs.Session.Sequences
import SubstLisp.Proofs.CommandLine.Uncovering
import SubstLisp.Proofs.Prompt.Marking
import SubstLisp.Proofs.Prompt.Highlighting
import SubstLisp.Proofs.Prompt.ByteOrder
import SubstLisp.Proofs.Evaluation.Naming
import SubstLisp.Proofs.Prompt.Completing
import SubstLisp.Proofs.Reading.Nesting
import SubstLisp.Proofs.Report.Lines
import SubstLisp.Proofs.Report.Pointing
import SubstLisp.Proofs.Report.Failures
