import Typewright.Api.Declaration
import Typewright.Api.Document
import Typewright.Api.Expansion
import Typewright.Api.Operation
import Typewright.Api.PathItem
import Typewright.Command.Argument
import Typewright.Command.Console
import Typewright.Command.Host
import Typewright.Command.Invocation
import Typewright.Command.Line
import Typewright.Command.Path
import Typewright.Command.Table
import Typewright.Command.Workspace
import Typewright.Decimal.Double
import Typewright.Decimal.Power
import Typewright.Decimal.Shortest
import Typewright.DocumentFormat
import Typewright.Failure
import Typewright.Fragment.Basic
import Typewright.Fragment.Set
import Typewright.Generation
import Typewright.Json.Basic
import Typewright.Json.Number
import Typewright.Json.Reader
import Typewright.Json.Token
import Typewright.Main
import Typewright.Namespace.Basic
import Typewright.Namespace.Printer
import Typewright.Naming
import Typewright.Options
import Typewright.Pointer
import Typewright.Proofs.Api.Components
import Typewright.Proofs.Api.Declared
import Typewright.Proofs.Api.Diagnostics
import Typewright.Proofs.Api.Entries
import Typewright.Proofs.Api.FixedPoint
import Typewright.Proofs.Api.Guarded
import Typewright.Proofs.Api.Input
import Typewright.Proofs.Api.Kept
import Typewright.Proofs.Api.Listed
import Typewright.Proofs.Api.Normal
import Typewright.Proofs.Api.OperationIds
import Typewright.Proofs.Api.Orderly
import Typewright.Proofs.Api.Owned
import Typewright.Proofs.Api.Parameters
import Typewright.Proofs.Api.Parts
import Typewright.Proofs.Api.Registered
import Typewright.Proofs.Api.Rules
import Typewright.Proofs.Api.Visits
import Typewright.Proofs.Decimal.Shortest
import Typewright.Proofs.Decimal.Spacing
import Typewright.Proofs.Fragment.Merging
import Typewright.Proofs.Fragment.Normal
import Typewright.Proofs.Fragment.Owned
import Typewright.Proofs.Fragment.Priority
import Typewright.Proofs.Fragment.Register
import Typewright.Proofs.Fragment.Store
import Typewright.Proofs.Generation.Banner
import Typewright.Proofs.Generation.Closed
import Typewright.Proofs.Generation.Diagnostics
import Typewright.Proofs.Generation.Kept
import Typewright.Proofs.Generation.Leniency
import Typewright.Proofs.Generation.Listed
import Typewright.Proofs.Generation.Normal
import Typewright.Proofs.Json.Fields
import Typewright.Proofs.Json.Inside
import Typewright.Proofs.Json.NumberText
import Typewright.Proofs.Json.Same
import Typewright.Proofs.Json.Text
import Typewright.Proofs.Namespace.Printed
import Typewright.Proofs.Namespace.Tree
import Typewright.Proofs.Naming.Identifier
import Typewright.Proofs.Naming.Numbered
import Typewright.Proofs.Naming.Projection
import Typewright.Proofs.Pointer.Chain
import Typewright.Proofs.Pointer.Placed
import Typewright.Proofs.Pointer.Resolution
import Typewright.Proofs.Pointer.RoundTrip
import Typewright.Proofs.Pointer.Segments
import Typewright.Proofs.Run
import Typewright.Proofs.Run.Ends
import Typewright.Proofs.Run.Guarded
import Typewright.Proofs.Run.Mirrors
import Typewright.Proofs.Run.Within
import Typewright.Proofs.Schema.Announced
import Typewright.Proofs.Schema.Branchless
import Typewright.Proofs.Schema.Diagnostics
import Typewright.Proofs.Schema.Ends
import Typewright.Proofs.Schema.Ensures
import Typewright.Proofs.Schema.EnumClaims
import Typewright.Proofs.Schema.EnumMembers
import Typewright.Proofs.Schema.EnumNames
import Typewright.Proofs.Schema.Guarded
import Typewright.Proofs.Schema.Mirrored
import Typewright.Proofs.Schema.Normal
import Typewright.Proofs.Schema.Nullability
import Typewright.Proofs.Schema.Objects
import Typewright.Proofs.Schema.Owned
import Typewright.Proofs.Schema.Raises
import Typewright.Proofs.Schema.Reading
import Typewright.Proofs.Schema.RealEnums
import Typewright.Proofs.Schema.Registered
import Typewright.Proofs.Schema.Rules
import Typewright.Proofs.Schema.Soundness
import Typewright.Proofs.Schema.Soundness.Branches
import Typewright.Proofs.Schema.Soundness.Members
import Typewright.Proofs.Schema.Validity
import Typewright.Proofs.Text.Distinct
import Typewright.Proofs.Text.Joined
import Typewright.Proofs.Text.Lines
import Typewright.Proofs.Text.Natural
import Typewright.Proofs.TypeExpr.Admits
import Typewright.Proofs.TypeExpr.Alike
import Typewright.Proofs.TypeExpr.Mentions
import Typewright.Proofs.TypeExpr.Normal
import Typewright.Proofs.TypeExpr.Unambiguous
import Typewright.Proofs.TypeExpr.Unambiguous.Parts
import Typewright.Proofs.TypeExpr.Unambiguous.Words
import Typewright.Proofs.TypeExpr.WellFormed
import Typewright.Schema.Basic
import Typewright.Schema.Context
import Typewright.Schema.Enum
import Typewright.Schema.Shape
import Typewright.Schema.Typing
import Typewright.Statistics
import Typewright.Text.Blank
import Typewright.Text.Case
import Typewright.Text.Distinct
import Typewright.Text.Natural
import Typewright.Text.Quoted
import Typewright.Text.Width
import Typewright.Text.Width.Class
import Typewright.TypeExpr.Basic
import Typewright.TypeExpr.Printer
import Typewright.Warning
import Typewright.Yaml.Cursor
import Typewright.Yaml.Lexer
import Typewright.Yaml.Node
import Typewright.Yaml.Reader
import Typewright.Yaml.Scalar.Block
import Typewright.Yaml.Scalar.Meaning
import Typewright.Yaml.Scalar.Plain
import Typewright.Yaml.Scalar.Quoted
import Typewright.Yaml.Tag
import Typewright.Yaml.Token
import Typewright.Proofs.Api.Normalized
import Typewright.Proofs.TypeExpr.Grouping
import Typewright.Proofs.Namespace.Written
