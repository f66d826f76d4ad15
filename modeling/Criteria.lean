import Criteria.Adapter
import Criteria.Calendar
import Criteria.Catalog
import Criteria.CommandLine.Arguments
import Criteria.CommandLine.Run
import Criteria.Config.Basic
import Criteria.Config.Declarations
import Criteria.Config.Decode
import Criteria.Config.Document
import Criteria.Config.Load
import Criteria.Config.Outline
import Criteria.Config.Sample
import Criteria.Config.Toml.Reader
import Criteria.Config.Toml.Scalar
import Criteria.Config.Toml.Tree
import Criteria.Config.Yaml.Block
import Criteria.Config.Yaml.Glyph
import Criteria.Config.Yaml.Layout
import Criteria.Config.Yaml.Node
import Criteria.Config.Yaml.Reader
import Criteria.Config.Yaml.Scalar
import Criteria.Config.Yaml.Selection
import Criteria.Config.Yaml.Token
import Criteria.Custom
import Criteria.DeclarationError
import Criteria.Description
import Criteria.Engine
import Criteria.Filter.Basic
import Criteria.Filter.Compile
import Criteria.Filter.Operand
import Criteria.Filter.Reading
import Criteria.Inputs
import Criteria.Json.Basic
import Criteria.Json.Reader
import Criteria.Json.Token
import Criteria.Json.Writer
import Criteria.Kind
import Criteria.Limits
import Criteria.LogLevel
import Criteria.Main
import Criteria.Native.Binding
import Criteria.Native.Error
import Criteria.Native.Fragment
import Criteria.Numeric.Binary64
import Criteria.Numeric.Shortest
import Criteria.Operator
import Criteria.Order.Basic
import Criteria.Order.Compile
import Criteria.Order.Reading
import Criteria.Proofs.Calendar
import Criteria.Proofs.Catalog
import Criteria.Proofs.CommandLine.Inputs
import Criteria.Proofs.Config.RoundTrip
import Criteria.Proofs.Config.Validity
import Criteria.Proofs.Engine
import Criteria.Proofs.Filter.Accepted
import Criteria.Proofs.Filter.Binding
import Criteria.Proofs.Filter.Canonical
import Criteria.Proofs.Filter.Clauses
import Criteria.Proofs.Filter.Composition
import Criteria.Proofs.Filter.Dialects
import Criteria.Proofs.Filter.Entries
import Criteria.Proofs.Filter.Failure
import Criteria.Proofs.Filter.Grammar
import Criteria.Proofs.Filter.Independence
import Criteria.Proofs.Filter.Leaves
import Criteria.Proofs.Filter.Limits
import Criteria.Proofs.Filter.Lowering
import Criteria.Proofs.Filter.Meaning
import Criteria.Proofs.Filter.Operand
import Criteria.Proofs.Filter.Parameters
import Criteria.Proofs.Filter.Structure
import Criteria.Proofs.Filter.Totality
import Criteria.Proofs.Filter.Typing
import Criteria.Proofs.Filter.Writing
import Criteria.Proofs.Inputs.Advertised
import Criteria.Proofs.Inputs.Agreement
import Criteria.Proofs.Inputs.Generated
import Criteria.Proofs.Inputs.TypeByType
import Criteria.Proofs.Json.Inside
import Criteria.Proofs.Json.Lexemes
import Criteria.Proofs.Json.RoundTrip
import Criteria.Proofs.Kind
import Criteria.Proofs.Order.Compiled
import Criteria.Proofs.Order.Listing
import Criteria.Proofs.Order.Reading
import Criteria.Proofs.Order.Shapes
import Criteria.Proofs.Outcome
import Criteria.Proofs.Registry.Assembly
import Criteria.Proofs.Registry.Custom
import Criteria.Proofs.Registry.History
import Criteria.Proofs.Registry.Registration
import Criteria.Proofs.Registry.Restriction
import Criteria.Proofs.Request.Malformed
import Criteria.Proofs.Schema.Accepted
import Criteria.Proofs.Schema.Built
import Criteria.Proofs.Schema.Declared
import Criteria.Proofs.Schema.Names
import Criteria.Proofs.Search.Content
import Criteria.Proofs.Search.Keys
import Criteria.Proofs.Search.Leaf
import Criteria.Proofs.Search.Meaning
import Criteria.Proofs.Search.Pattern
import Criteria.Proofs.Search.Placement
import Criteria.Proofs.Search.Wildcard
import Criteria.Proofs.Sql.Agreement
import Criteria.Proofs.Sql.Assignment
import Criteria.Proofs.Sql.Atom
import Criteria.Proofs.Sql.Exposure
import Criteria.Proofs.Sql.Expression
import Criteria.Proofs.Sql.Grouping
import Criteria.Proofs.Sql.Leaf
import Criteria.Proofs.Sql.Lexeme
import Criteria.Proofs.Sql.Neutral
import Criteria.Proofs.Sql.Occurrence
import Criteria.Proofs.Sql.Pattern
import Criteria.Proofs.Sql.Placeholders
import Criteria.Proofs.Sql.Precedence
import Criteria.Proofs.Sql.Proper
import Criteria.Proofs.Sql.Quoting
import Criteria.Proofs.Sql.Reading
import Criteria.Proofs.Sql.Shielding
import Criteria.Proofs.Sql.Spelling
import Criteria.Proofs.Sql.Support
import Criteria.Proofs.Text.Pattern
import Criteria.Proofs.Text.Span
import Criteria.Proofs.Truth
import Criteria.Proofs.TypeGraph.BreadthFirst
import Criteria.Proofs.TypeGraph.Declared
import Criteria.Proofs.TypeGraph.Locality
import Criteria.Proofs.TypeGraph.Reachability
import Criteria.Proofs.TypeGraph.Source
import Criteria.Proofs.TypeGraph.Spelling
import Criteria.Registry
import Criteria.Request.Error
import Criteria.Request.Path
import Criteria.Schema
import Criteria.Scope
import Criteria.Search.Leaf
import Criteria.Search.Query
import Criteria.Search.Wildcard
import Criteria.Sql.Condition
import Criteria.Sql.Leaf
import Criteria.Sql.Pattern
import Criteria.Sql.Quoting
import Criteria.Text.Blank
import Criteria.Text.Digit
import Criteria.Text.Split
import Criteria.Text.Visible
import Criteria.TypeGraph.Basic
import Criteria.TypeGraph.Discovery
