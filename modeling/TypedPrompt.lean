import TypedPrompt.Configuration.Document
import TypedPrompt.Configuration.Limits
import TypedPrompt.Configuration.Logging
import TypedPrompt.Events.Delivery
import TypedPrompt.Events.Registry
import TypedPrompt.Expr.Basic
import TypedPrompt.Expr.Equality
import TypedPrompt.Expr.Walk
import TypedPrompt.Json.Fault
import TypedPrompt.Json.Reader
import TypedPrompt.Json.Text
import TypedPrompt.Limits
import TypedPrompt.Number.Arithmetic
import TypedPrompt.Number.Binary64
import TypedPrompt.Number.Decimal
import TypedPrompt.Number.Layout
import TypedPrompt.Number.Numeral
import TypedPrompt.Proofs.Correspondence
import TypedPrompt.Proofs.Events.Actions
import TypedPrompt.Proofs.Events.Closing
import TypedPrompt.Proofs.Expr.Occurrence
import TypedPrompt.Proofs.Expr.Scopes
import TypedPrompt.Proofs.Expr.Views
import TypedPrompt.Proofs.Json.Fences
import TypedPrompt.Proofs.Json.Oversized
import TypedPrompt.Proofs.Json.Writing
import TypedPrompt.Proofs.Number.Grammar
import TypedPrompt.Proofs.Number.Rounding
import TypedPrompt.Proofs.Reading.Acceptance
import TypedPrompt.Proofs.Reading.AcceptedExpressions
import TypedPrompt.Proofs.Reading.AcceptedTypes
import TypedPrompt.Proofs.Reading.AgreeingExpressions
import TypedPrompt.Proofs.Reading.AgreeingTypes
import TypedPrompt.Proofs.Reading.Agreement
import TypedPrompt.Proofs.Reading.Brackets
import TypedPrompt.Proofs.Reading.Continuations
import TypedPrompt.Proofs.Reading.Counting
import TypedPrompt.Proofs.Reading.Depth
import TypedPrompt.Proofs.Reading.DerivedExpressions
import TypedPrompt.Proofs.Reading.DerivedTypes
import TypedPrompt.Proofs.Reading.Embedding
import TypedPrompt.Proofs.Reading.Faults
import TypedPrompt.Proofs.Reading.Forms
import TypedPrompt.Proofs.Reading.Grammar
import TypedPrompt.Proofs.Reading.Identifiers
import TypedPrompt.Proofs.Reading.Interpolations
import TypedPrompt.Proofs.Reading.LargerLimits
import TypedPrompt.Proofs.Reading.Layouts
import TypedPrompt.Proofs.Reading.Leaves
import TypedPrompt.Proofs.Reading.Lookahead
import TypedPrompt.Proofs.Reading.Marks
import TypedPrompt.Proofs.Reading.SpelledTypes
import TypedPrompt.Proofs.Reading.Takes
import TypedPrompt.Proofs.Reading.Tokens
import TypedPrompt.Proofs.Reading.WellFormedTrees
import TypedPrompt.Proofs.Reading.WrittenTrees
import TypedPrompt.Proofs.Reading.WrittenTypes
import TypedPrompt.Proofs.Reading.Yields
import TypedPrompt.Proofs.Repetition
import TypedPrompt.Proofs.Schema.Combination
import TypedPrompt.Proofs.Schema.Constraints
import TypedPrompt.Proofs.Schema.Correction
import TypedPrompt.Proofs.Schema.Decoding
import TypedPrompt.Proofs.Schema.Depth
import TypedPrompt.Proofs.Schema.EntryOrder
import TypedPrompt.Proofs.Schema.Fenced
import TypedPrompt.Proofs.Schema.LargerDepth
import TypedPrompt.Proofs.Schema.Membership
import TypedPrompt.Proofs.Schema.Projection
import TypedPrompt.Proofs.Schema.QuotedNumbers
import TypedPrompt.Proofs.Schema.RecordView
import TypedPrompt.Proofs.Schema.Refusals
import TypedPrompt.Proofs.Schema.RequiredFields
import TypedPrompt.Proofs.Schema.Sources
import TypedPrompt.Proofs.Schema.Stability
import TypedPrompt.Proofs.Schema.Subtyping
import TypedPrompt.Proofs.Schema.Vocabulary
import TypedPrompt.Proofs.Source.Places
import TypedPrompt.Proofs.Token.Layout
import TypedPrompt.Proofs.Token.Padding
import TypedPrompt.Proofs.Token.Pieces
import TypedPrompt.Proofs.Token.Rendering
import TypedPrompt.Proofs.Token.Views
import TypedPrompt.Proofs.Ty.Bounds
import TypedPrompt.Proofs.Ty.Components
import TypedPrompt.Proofs.Ty.Grouping
import TypedPrompt.Proofs.Ty.Identity
import TypedPrompt.Proofs.Ty.NormalForm
import TypedPrompt.Proofs.Ty.Normalisation
import TypedPrompt.Proofs.Ty.Precision
import TypedPrompt.Proofs.Ty.Reflexivity
import TypedPrompt.Proofs.Ty.Rules
import TypedPrompt.Proofs.Ty.Sameness
import TypedPrompt.Proofs.Ty.Shapes
import TypedPrompt.Proofs.Ty.Spelling
import TypedPrompt.Proofs.Ty.Transitivity
import TypedPrompt.Proofs.Typing.Bindings
import TypedPrompt.Proofs.Typing.Calls
import TypedPrompt.Proofs.Typing.Completion
import TypedPrompt.Proofs.Typing.EqualTrees
import TypedPrompt.Proofs.Typing.Gradual
import TypedPrompt.Proofs.Typing.Locality
import TypedPrompt.Proofs.Typing.Passing
import TypedPrompt.Proofs.Typing.Pipelines
import TypedPrompt.Proofs.Typing.Skeletons
import TypedPrompt.Proofs.Typing.Undefined
import TypedPrompt.Proofs.Value.Nesting
import TypedPrompt.Reading.Expression
import TypedPrompt.Reading.Failure
import TypedPrompt.Reading.Input
import TypedPrompt.Reading.Lookahead
import TypedPrompt.Reading.Pieces
import TypedPrompt.Reading.Source
import TypedPrompt.Reading.Type
import TypedPrompt.Schema.Basic
import TypedPrompt.Schema.Coercion
import TypedPrompt.Schema.Decoding
import TypedPrompt.Schema.Description
import TypedPrompt.Schema.Fence
import TypedPrompt.Schema.Fit
import TypedPrompt.Schema.Predicate
import TypedPrompt.Schema.Projection
import TypedPrompt.Schema.Validation
import TypedPrompt.Source.Position
import TypedPrompt.Text.Blank
import TypedPrompt.Text.CaseFold
import TypedPrompt.Text.Hexadecimal
import TypedPrompt.Text.Letter
import TypedPrompt.Text.Numeral
import TypedPrompt.Text.Printable
import TypedPrompt.Text.Quoted
import TypedPrompt.Text.Ranges
import TypedPrompt.Token.Basic
import TypedPrompt.Token.Lexeme
import TypedPrompt.Token.Lexer
import TypedPrompt.Ty.Basic
import TypedPrompt.Ty.Display
import TypedPrompt.Ty.Normal
import TypedPrompt.Ty.Subtype
import TypedPrompt.Typing.Check
import TypedPrompt.Typing.Diagnostic
import TypedPrompt.Typing.Judgement
import TypedPrompt.Typing.Scope
import TypedPrompt.Typing.Session
import TypedPrompt.Typing.Source
import TypedPrompt.Value.Basic
import TypedPrompt.Value.Display
import TypedPrompt.Value.Entries
import TypedPrompt.Yaml.Composition
import TypedPrompt.Yaml.Data
import TypedPrompt.Yaml.Fault
import TypedPrompt.Yaml.Folding
import TypedPrompt.Yaml.Indented
import TypedPrompt.Yaml.Layout
import TypedPrompt.Yaml.Meaning
import TypedPrompt.Yaml.Moment
import TypedPrompt.Yaml.Node
import TypedPrompt.Yaml.Place
import TypedPrompt.Yaml.Plain
import TypedPrompt.Yaml.Quoted
import TypedPrompt.Yaml.Reader
import TypedPrompt.Yaml.Scalar
import TypedPrompt.Yaml.Tag
import TypedPrompt.Yaml.Token
