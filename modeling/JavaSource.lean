import JavaSource.BuildError
import JavaSource.CompilationUnit
import JavaSource.Decimal.Binary
import JavaSource.Decimal.Shortest
import JavaSource.Digest
import JavaSource.Doc
import JavaSource.Emission.Code
import JavaSource.Emission.Doc
import JavaSource.Emission.Note
import JavaSource.Emission.Type
import JavaSource.Emission.Unit
import JavaSource.Enumeration
import JavaSource.Expression.Chain
import JavaSource.Expression.Operands
import JavaSource.FileSystem
import JavaSource.Identifier
import JavaSource.Imports
import JavaSource.Imports.Resolving
import JavaSource.Keyword
import JavaSource.Kind
import JavaSource.Layout
import JavaSource.Literal
import JavaSource.Matching
import JavaSource.Name
import JavaSource.Name.Reader
import JavaSource.Node
import JavaSource.Node.Assembly
import JavaSource.Node.Parts
import JavaSource.Node.Schema
import JavaSource.Note
import JavaSource.Operator
import JavaSource.Options
import JavaSource.Options.Reader
import JavaSource.Outline
import JavaSource.Proofs.Emission.Agreement
import JavaSource.Proofs.Emission.BracketWord
import JavaSource.Proofs.Emission.CodeTokens
import JavaSource.Proofs.Emission.Comments
import JavaSource.Proofs.Emission.Dimensions
import JavaSource.Proofs.Emission.NestedNotes
import JavaSource.Proofs.Emission.Nesting
import JavaSource.Proofs.Emission.Places
import JavaSource.Proofs.Emission.Rejection
import JavaSource.Proofs.Emission.Span
import JavaSource.Proofs.Emission.Visible
import JavaSource.Proofs.Expression.CastOperand
import JavaSource.Proofs.Expression.Grammar
import JavaSource.Proofs.Expression.Grouping
import JavaSource.Proofs.Expression.OperatorGrammar
import JavaSource.Proofs.Expression.Parentheses
import JavaSource.Proofs.Expression.Reader
import JavaSource.Proofs.Expression.Unambiguity
import JavaSource.Proofs.Imports.Capture
import JavaSource.Proofs.Imports.Faithful
import JavaSource.Proofs.Imports.FirstClaim
import JavaSource.Proofs.Imports.Listing
import JavaSource.Proofs.Imports.Session
import JavaSource.Proofs.Imports.Sharing
import JavaSource.Proofs.Imports.Splitting
import JavaSource.Proofs.Imports.Stability
import JavaSource.Proofs.Imports.Totality
import JavaSource.Proofs.Lexing.Emission
import JavaSource.Proofs.Lexing.Flow
import JavaSource.Proofs.Lexing.Layout
import JavaSource.Proofs.Lexing.Lexeme
import JavaSource.Proofs.Lexing.Rendering
import JavaSource.Proofs.Lexing.Settled
import JavaSource.Proofs.Lines.Documentation
import JavaSource.Proofs.Lines.Emission
import JavaSource.Proofs.Lines.Groups
import JavaSource.Proofs.Lines.Layout
import JavaSource.Proofs.Lines.Rendering
import JavaSource.Proofs.Literal.Decoding
import JavaSource.Proofs.Name.RoundTrip
import JavaSource.Proofs.Node.Comparison
import JavaSource.Proofs.Node.Digest
import JavaSource.Proofs.Node.Erasure
import JavaSource.Proofs.Outline.Comparison
import JavaSource.Proofs.Outline.Erasure
import JavaSource.Proofs.Outline.Injective
import JavaSource.Proofs.Outline.Nodes
import JavaSource.Proofs.Outline.Schema
import JavaSource.Proofs.SourceRoot.Components
import JavaSource.Proofs.SourceRoot.Paths
import JavaSource.Proofs.SourceRoot.Writing
import JavaSource.Proofs.Statement.ElseBinding
import JavaSource.Proofs.Statement.Grammar
import JavaSource.Proofs.Ty.Grammar
import JavaSource.Proofs.Ty.Pieces
import JavaSource.Proofs.Ty.PlainNames
import JavaSource.Proofs.Ty.Reading
import JavaSource.Proofs.Ty.RoundTrip
import JavaSource.SourceFiles
import JavaSource.SourceRoot
import JavaSource.Text.Alphabetic
import JavaSource.Text.Blank
import JavaSource.Text.Numeric
import JavaSource.Text.Ranges
import JavaSource.Text.Split
import JavaSource.Text.Uppercase
import JavaSource.Token
import JavaSource.Toml.Quoted
import JavaSource.Toml.Reader
import JavaSource.Toml.Scalar
import JavaSource.Toml.Table
import JavaSource.Tree
import JavaSource.Tree.Checked
import JavaSource.Ty
import JavaSource.Ty.Reader
import JavaSource.Ty.Visitor
