import TypedQuery.Accumulator
import TypedQuery.Aggregate
import TypedQuery.Bind.Aggregation
import TypedQuery.Bind.Binary
import TypedQuery.Bind.Clause
import TypedQuery.Bind.Collection
import TypedQuery.Bind.Context
import TypedQuery.Bind.Conversion
import TypedQuery.Bind.Flattening
import TypedQuery.Bind.Function
import TypedQuery.Bind.Guard
import TypedQuery.Bind.Node
import TypedQuery.Bind.Property
import TypedQuery.Bind.Settings
import TypedQuery.Calendar.Date
import TypedQuery.Calendar.Instant
import TypedQuery.Calendar.Reader
import TypedQuery.Calendar.Span
import TypedQuery.Calendar.Time
import TypedQuery.Entries
import TypedQuery.Error
import TypedQuery.Eval
import TypedQuery.Eval.Arithmetic
import TypedQuery.Eval.Collection
import TypedQuery.Eval.Property
import TypedQuery.Eval.Scalar
import TypedQuery.Expr
import TypedQuery.Expr.Method
import TypedQuery.Expr.Numbering
import TypedQuery.Expr.Operator
import TypedQuery.Expr.Text
import TypedQuery.External
import TypedQuery.Guid
import TypedQuery.HostType
import TypedQuery.Json
import TypedQuery.Json.Reader
import TypedQuery.LogicalType
import TypedQuery.Number.Binary
import TypedQuery.Number.Decimal
import TypedQuery.Number.Layout
import TypedQuery.Number.Shortest
import TypedQuery.Number.Sized
import TypedQuery.Proofs.AggregateTypes
import TypedQuery.Proofs.Aggregates
import TypedQuery.Proofs.Agreement
import TypedQuery.Proofs.Atomicity
import TypedQuery.Proofs.BooleanContexts
import TypedQuery.Proofs.Casts
import TypedQuery.Proofs.ClauseRuns
import TypedQuery.Proofs.ClosedAggregations
import TypedQuery.Proofs.Comparisons
import TypedQuery.Proofs.ComputedColumns
import TypedQuery.Proofs.Conformance
import TypedQuery.Proofs.Congruence
import TypedQuery.Proofs.Conversions
import TypedQuery.Proofs.EnumLiterals
import TypedQuery.Proofs.Equality
import TypedQuery.Proofs.Existence
import TypedQuery.Proofs.FlagLists
import TypedQuery.Proofs.FlattenedRows
import TypedQuery.Proofs.FlattenedScopes
import TypedQuery.Proofs.FlattenedSlots
import TypedQuery.Proofs.Flattening
import TypedQuery.Proofs.Frame
import TypedQuery.Proofs.FreeParameters
import TypedQuery.Proofs.GroupAgreement
import TypedQuery.Proofs.GroupKeys
import TypedQuery.Proofs.Grouping
import TypedQuery.Proofs.Guards
import TypedQuery.Proofs.InlineLiterals
import TypedQuery.Proofs.IntegerOperators
import TypedQuery.Proofs.Integrity
import TypedQuery.Proofs.ItemOrder
import TypedQuery.Proofs.ItemPredicates
import TypedQuery.Proofs.LiftedComparisons
import TypedQuery.Proofs.LiftedOperands
import TypedQuery.Proofs.Limits
import TypedQuery.Proofs.LiteralQuantifiers
import TypedQuery.Proofs.Loading
import TypedQuery.Proofs.Locality
import TypedQuery.Proofs.Lockstep
import TypedQuery.Proofs.Membership
import TypedQuery.Proofs.NestedAggregates
import TypedQuery.Proofs.NestedClauses
import TypedQuery.Proofs.NullFree
import TypedQuery.Proofs.NullFreeRecords
import TypedQuery.Proofs.NullOperands
import TypedQuery.Proofs.NullSafety
import TypedQuery.Proofs.Numbers
import TypedQuery.Proofs.OpenProperties
import TypedQuery.Proofs.Operands
import TypedQuery.Proofs.OperatorTypes
import TypedQuery.Proofs.Parameterization
import TypedQuery.Proofs.Partitions
import TypedQuery.Proofs.Promotions
import TypedQuery.Proofs.PropertyPaths
import TypedQuery.Proofs.Rebinding
import TypedQuery.Proofs.ReferenceNames
import TypedQuery.Proofs.Relabeling
import TypedQuery.Proofs.RelatedItems
import TypedQuery.Proofs.Renumbering
import TypedQuery.Proofs.Replacements
import TypedQuery.Proofs.Retries
import TypedQuery.Proofs.Rewriting
import TypedQuery.Proofs.RootRecord
import TypedQuery.Proofs.Rows
import TypedQuery.Proofs.Runs
import TypedQuery.Proofs.ScopeFree
import TypedQuery.Proofs.Scoping
import TypedQuery.Proofs.Simulation
import TypedQuery.Proofs.TextFunctions
import TypedQuery.Proofs.TextPositions
import TypedQuery.Proofs.TimeKeys
import TypedQuery.Proofs.TrackedExpressions
import TypedQuery.Proofs.TransformationLimits
import TypedQuery.Proofs.TruthTables
import TypedQuery.Proofs.TypedCalls
import TypedQuery.Proofs.TypedValues
import TypedQuery.Proofs.Unguarded
import TypedQuery.Proofs.UnguardedCalls
import TypedQuery.Proofs.UnguardedOperators
import TypedQuery.Proofs.ValueOrder
import TypedQuery.Query.Literal
import TypedQuery.Query.Node
import TypedQuery.Query.Operator
import TypedQuery.Query.Transformation
import TypedQuery.Schema
import TypedQuery.Text.Blank
import TypedQuery.Text.Case
import TypedQuery.Text.CaseTable
import TypedQuery.Text.Digit
import TypedQuery.Text.Pattern
import TypedQuery.Text.PatternText
import TypedQuery.Text.Quoted
import TypedQuery.Text.Search
import TypedQuery.Truth
import TypedQuery.Value
import TypedQuery.Value.Convert
import TypedQuery.Value.Load
import TypedQuery.Value.Order
import TypedQuery.Wrapper
