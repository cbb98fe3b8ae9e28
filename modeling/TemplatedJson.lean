import TemplatedJson.Command.Basic
import TemplatedJson.Command.Line
import TemplatedJson.Cursor
import TemplatedJson.Decimal.Binary64
import TemplatedJson.Decimal.Fraction
import TemplatedJson.Decimal.Shortest
import TemplatedJson.Document
import TemplatedJson.Expr.Basic
import TemplatedJson.Expr.Measured
import TemplatedJson.Expr.Parser
import TemplatedJson.Expr.Source
import TemplatedJson.Json.Basic
import TemplatedJson.Json.Text
import TemplatedJson.Json.Tree
import TemplatedJson.Layout
import TemplatedJson.Lexer
import TemplatedJson.Literal
import TemplatedJson.Main
import TemplatedJson.Node.Basic
import TemplatedJson.Node.Parser
import TemplatedJson.Node.Source
import TemplatedJson.Number
import TemplatedJson.Operator
import TemplatedJson.Outcome
import TemplatedJson.ParseError
import TemplatedJson.Proofs.Document.Printing
import TemplatedJson.Proofs.Document.Recognition
import TemplatedJson.Proofs.Expr.Completeness
import TemplatedJson.Proofs.Expr.Congruence
import TemplatedJson.Proofs.Expr.Grammar
import TemplatedJson.Proofs.Expr.Height
import TemplatedJson.Proofs.Expr.Printing
import TemplatedJson.Proofs.Expr.Recognition
import TemplatedJson.Proofs.Expr.Soundness
import TemplatedJson.Proofs.Lexing.Faces
import TemplatedJson.Proofs.Lexing.Lexes
import TemplatedJson.Proofs.Lexing.Number
import TemplatedJson.Proofs.Lexing.Spelling
import TemplatedJson.Proofs.Lexing.Tiling
import TemplatedJson.Proofs.Lexing.Written
import TemplatedJson.Proofs.Lexing.Yields
import TemplatedJson.Proofs.Node.Completeness
import TemplatedJson.Proofs.Node.Congruence
import TemplatedJson.Proofs.Node.Context
import TemplatedJson.Proofs.Node.Grammar
import TemplatedJson.Proofs.Node.Lexical
import TemplatedJson.Proofs.Node.Printing
import TemplatedJson.Proofs.Node.Recognition
import TemplatedJson.Proofs.Node.Soundness
import TemplatedJson.Proofs.Reading.Congruence
import TemplatedJson.Proofs.Reading.Ensures
import TemplatedJson.Proofs.Reading.Passes
import TemplatedJson.Proofs.Reading.Refusal
import TemplatedJson.Proofs.Reading.Run
import TemplatedJson.Proofs.Reading.Tokens
import TemplatedJson.Session
import TemplatedJson.Template
import TemplatedJson.Template.Place
import TemplatedJson.Token.Basic
import TemplatedJson.Token.Quote
import TemplatedJson.Token.Quoted
import TemplatedJson.Token.Scan
import TemplatedJson.Tree
import TemplatedJson.Unicode.Alphabetic
import TemplatedJson.Unicode.Blank
import TemplatedJson.Unicode.Escape
import TemplatedJson.Unicode.Numeric
import TemplatedJson.Unicode.Ranges
import TemplatedJson.Proofs.Session.Family
import TemplatedJson.Proofs.Layout.Outline
import TemplatedJson.Proofs.Lexing.Answers
import TemplatedJson.Proofs.Session.Buffer
import TemplatedJson.Proofs.Node.Inherited
import TemplatedJson.Proofs.Session.Answers
import TemplatedJson.Proofs.Session.Invariants
import TemplatedJson.Proofs.Template.Place
import TemplatedJson.Proofs.Expr.Inside
import TemplatedJson.Proofs.Node.Visits
import TemplatedJson.Proofs.Document.Embedding
import TemplatedJson.Proofs.Expr.WellFormed
import TemplatedJson.Proofs.Session.WellFormed
import TemplatedJson.Proofs.Template.Range
import TemplatedJson.Proofs.Reading.Order
import TemplatedJson.Proofs.Reading.Raising
import TemplatedJson.Proofs.Document.Raising
import TemplatedJson.Proofs.Lexing.Witness
import TemplatedJson.Proofs.Reading.Faithful
import TemplatedJson.Proofs.Document.Witness
import TemplatedJson.Proofs.Lexing.Layout
import TemplatedJson.Proofs.Document.Layout
import TemplatedJson.Proofs.Template.Walk
import TemplatedJson.Proofs.Lexing.Slices
import TemplatedJson.Proofs.Machine.Credit
import TemplatedJson.Proofs.Machine.Expression
import TemplatedJson.Proofs.Machine.Value
import TemplatedJson.Proofs.Machine.Safety
import TemplatedJson.Proofs.Template.Pattern
import TemplatedJson.Proofs.Template.Rule
import TemplatedJson.Proofs.Template.Decoding
import TemplatedJson.Proofs.Expr.Fidelity
import TemplatedJson.Proofs.Expr.Shape
import TemplatedJson.Proofs.Expr.Acceptor
import TemplatedJson.Proofs.Expr.Ends
import TemplatedJson.Proofs.Reading.Failing
import TemplatedJson.Proofs.Expr.Halting
import TemplatedJson.Proofs.Lexing.Continuation
import TemplatedJson.Proofs.Expr.Blame
import TemplatedJson.Proofs.Lexing.Eager
import TemplatedJson.Proofs.Lexing.Longest
import TemplatedJson.Proofs.Reading.Keeping
import TemplatedJson.Proofs.Expr.Lazy
import TemplatedJson.Proofs.Expr.OperatorTree
import TemplatedJson.Proofs.Expr.OperatorStack
import TemplatedJson.Proofs.Lexing.Moved
import TemplatedJson.Proofs.Reading.Exchange
import TemplatedJson.Proofs.Node.Exchange
import TemplatedJson.Proofs.Template.Forms
import TemplatedJson.Proofs.Document.Forms
import TemplatedJson.Proofs.Lexing.Rest
import TemplatedJson.Proofs.Command.Modes
import TemplatedJson.Proofs.Command.Listing
import TemplatedJson.Proofs.Command.Canonical
import TemplatedJson.Proofs.Layout.Readable
import TemplatedJson.Proofs.Json.Outline
import TemplatedJson.Proofs.Expr.Literals
import TemplatedJson.Proofs.Json.Trees
import TemplatedJson.Proofs.Document.Lossless
import TemplatedJson.Proofs.Document.Integers
import TemplatedJson.Proofs.Layout.Fits
import TemplatedJson.Proofs.Layout.Lines
import TemplatedJson.Proofs.Node.Outline
import TemplatedJson.Proofs.Document.Pretty
import TemplatedJson.Proofs.Supervision.Parser
import TemplatedJson.Proofs.Supervision.Progress
import TemplatedJson.Proofs.Supervision.Expression
import TemplatedJson.Proofs.Supervision.Bounds
import TemplatedJson.Proofs.Expr.Quoting
import TemplatedJson.Proofs.Document.Events
