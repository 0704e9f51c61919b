import TypeLint.Binding.Bind
import TypeLint.Binding.Table
import TypeLint.Binding.TypeNode
import TypeLint.CompilerOptions
import TypeLint.Config
import TypeLint.Decimal.Double
import TypeLint.Decimal.Layout
import TypeLint.Decimal.Reader
import TypeLint.Decimal.Shortest
import TypeLint.Diagnostic
import TypeLint.Edit
import TypeLint.Json.Basic
import TypeLint.Json.Printer
import TypeLint.Json.Reader
import TypeLint.Json.Record
import TypeLint.Linter
import TypeLint.Linter.OfConfig
import TypeLint.LogFormat
import TypeLint.Program.Basic
import TypeLint.Program.Build
import TypeLint.Program.Layout
import TypeLint.Program.TypeText
import TypeLint.Registry
import TypeLint.Rule.Basic
import TypeLint.Rule.Check
import TypeLint.Rules.Comparison
import TypeLint.Rules.Condition
import TypeLint.Rules.DuplicateCase
import TypeLint.Rules.ExtraNonNullAssertion
import TypeLint.Rules.MemberNullability
import TypeLint.Rules.NonNullAssertion
import TypeLint.Rules.NullishCoalescing
import TypeLint.Rules.OptionalChain
import TypeLint.Rules.Options
import TypeLint.Rules.Scripted
import TypeLint.Rules.SuppressionComment
import TypeLint.Rules.SwitchExhaustiveness
import TypeLint.Rules.TypeAssertion
import TypeLint.ScriptTarget
import TypeLint.Syntax.Green
import TypeLint.Syntax.Kind
import TypeLint.Syntax.Node
import TypeLint.Syntax.NodeEdit
import TypeLint.Syntax.Query
import TypeLint.Syntax.SourceFile
import TypeLint.Syntax.Traversal
import TypeLint.Syntax.Tree
import TypeLint.Text.Bytes
import TypeLint.Text.CharRange
import TypeLint.Text.Comment
import TypeLint.Text.Extender
import TypeLint.Text.Identifier
import TypeLint.Text.Letters
import TypeLint.Text.LineMap
import TypeLint.Text.Quoted
import TypeLint.Text.Search
import TypeLint.Text.Span
import TypeLint.Text.Template
import TypeLint.Text.Units
import TypeLint.Text.Unprintable
import TypeLint.Types.Basic
import TypeLint.Types.Flags
import TypeLint.Types.Printer
import TypeLint.Types.Query
import TypeLint.Types.Store
import TypeLint.Proofs.Text.Slices
import TypeLint.Proofs.Emission.Spots
import TypeLint.Proofs.Emission.Emit
import TypeLint.Proofs.Program.Writing
import TypeLint.Proofs.Program.Every
import TypeLint.Proofs.Program.Forms
import TypeLint.Proofs.Program.TypeForms
import TypeLint.Proofs.Program.Formed
import TypeLint.Proofs.Emission.Walks
import TypeLint.Proofs.Program.WellFormed
import TypeLint.Proofs.Emission.Bare
import TypeLint.Proofs.Emission.Places
import TypeLint.Proofs.Program.Change
import TypeLint.Proofs.Program.Sizes
import TypeLint.Proofs.Program.Quiet
import TypeLint.Proofs.Program.Tracking
import TypeLint.Proofs.Program.Removal
import TypeLint.Proofs.Text.Patch
import TypeLint.Proofs.Lint.Runs
import TypeLint.Proofs.Emission.Neighbours
import TypeLint.Proofs.Emission.Comments
import TypeLint.Proofs.Program.RemovalPatch
import TypeLint.Proofs.Rules.Removals
import TypeLint.Proofs.Rules.RemovalFixes
import TypeLint.Proofs.Lint.Noninterference
import TypeLint.Proofs.Types.Made
import TypeLint.Proofs.Values.Basic
import TypeLint.Proofs.Values.Literals
import TypeLint.Proofs.Values.Overt
import TypeLint.Proofs.Values.Verdicts
import TypeLint.Proofs.Lint.Outcomes
import TypeLint.Proofs.Rules.ConditionVerdicts
import TypeLint.Proofs.Values.Tests
import TypeLint.Proofs.Rules.TernaryMeaning
import TypeLint.Proofs.Rules.CoalescingFix
import TypeLint.Proofs.Text.Edits
import TypeLint.Proofs.Types.HashConsing
import TypeLint.Proofs.Lint.Untyped
import TypeLint.Proofs.Lint.Words
import TypeLint.Proofs.Rules.SafeFixes
import TypeLint.Proofs.Values.Unions
import TypeLint.Proofs.Values.Nullish
import TypeLint.Proofs.Values.Properties
import TypeLint.Proofs.Binding.Interned
import TypeLint.Proofs.Binding.PropertyTypes
import TypeLint.Proofs.Rules.ChainMeaning
import TypeLint.Proofs.Types.Canonical
import TypeLint.Proofs.Types.CombiningLaws
import TypeLint.Proofs.Types.Distribution
import TypeLint.Proofs.Values.Samples
import TypeLint.Proofs.Values.Truthiness
import TypeLint.Proofs.Syntax.Acyclic
import TypeLint.Proofs.Syntax.WalksEnd
import TypeLint.Proofs.Types.Repeats
import TypeLint.Proofs.Binding.Order
import TypeLint.Proofs.Binding.Entries
import TypeLint.Proofs.Binding.Again
import TypeLint.Proofs.Binding.Idempotent
import TypeLint.Proofs.Binding.Recorded
import TypeLint.Proofs.Binding.References
import TypeLint.Proofs.Binding.Denotation
import TypeLint.Proofs.Program.Chains
import TypeLint.Proofs.Rules.AssertionChains
import TypeLint.Proofs.Program.Standing
import TypeLint.Proofs.Program.StringLiterals
import TypeLint.Proofs.Text.Searching
import TypeLint.Proofs.Program.TypeSpelling
import TypeLint.Proofs.Rules.MissingMembers
import TypeLint.Proofs.Types.Printing
import TypeLint.Proofs.Program.TypeReading
import TypeLint.Proofs.Program.Declared
import TypeLint.Proofs.Binding.ReadBack
import TypeLint.Proofs.Text.ScriptStrings
import TypeLint.Proofs.Rules.CaseClauses
import TypeLint.Proofs.Rules.SettledComments
import TypeLint.Proofs.Rules.NonNullReports
import TypeLint.Proofs.Rules.Negations
import TypeLint.Proofs.Text.CommentTables
import TypeLint.Proofs.Program.Shapes
import TypeLint.Proofs.Program.CommentOrder
import TypeLint.Proofs.Rules.CommentReports
import TypeLint.Proofs.Binding.BigintTokens
import TypeLint.Proofs.Rules.LiteralComparisons
import TypeLint.Proofs.Text.UnitOrder
import TypeLint.Proofs.Values.BigintLiterals
import TypeLint.Proofs.Program.Lexemes
import TypeLint.Proofs.Program.Merging
import TypeLint.Proofs.Program.Fitting
import TypeLint.Proofs.Program.Surroundings
import TypeLint.Proofs.Program.Cuts
import TypeLint.Proofs.Rules.RemovalCuts
import TypeLint.Proofs.Rules.GluedTokens
import TypeLint.Proofs.Types.Descent
import TypeLint.Proofs.Syntax.TokenTexts
import TypeLint.Proofs.Rules.DuplicateCases
import TypeLint.Proofs.Syntax.Parentheses
import TypeLint.Proofs.Program.Operands
import TypeLint.Proofs.Rules.MixedLogical
import TypeLint.Proofs.Program.MemberChains
import TypeLint.Proofs.Program.ChainTokens
import TypeLint.Proofs.Program.ChainEquality
import TypeLint.Proofs.Types.PropertyLookup
import TypeLint.Proofs.Lint.Indifference
import TypeLint.Proofs.Rules.UnchangedTypes
import TypeLint.Proofs.Text.Lines
import TypeLint.Proofs.Text.Trivia
import TypeLint.Proofs.Types.Readings
import TypeLint.Proofs.Program.Offsets
import TypeLint.Proofs.Program.TokenSearch
import TypeLint.Proofs.Program.ChainFlags
import TypeLint.Proofs.Syntax.ParenthesisCircles
import TypeLint.Proofs.Text.Templates
import TypeLint.Proofs.Lint.Configurations
