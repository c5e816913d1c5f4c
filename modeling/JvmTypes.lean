import JvmTypes.Catalog
import JvmTypes.Catalog.Bundled
import JvmTypes.Catalog.Session
import JvmTypes.ClassType
import JvmTypes.Composition
import JvmTypes.Decimal.Binary
import JvmTypes.Decimal.Shortest
import JvmTypes.Document
import JvmTypes.Error
import JvmTypes.Event
import JvmTypes.Expression
import JvmTypes.Expression.Descent
import JvmTypes.Expression.Error
import JvmTypes.Expression.Input
import JvmTypes.Expression.Reader
import JvmTypes.InternalName
import JvmTypes.Logging
import JvmTypes.Logging.Levels
import JvmTypes.Logging.Setup
import JvmTypes.Name
import JvmTypes.Path
import JvmTypes.Primitive
import JvmTypes.Proofs.Alike
import JvmTypes.Proofs.Arrays
import JvmTypes.Proofs.Bindings
import JvmTypes.Proofs.ClassName
import JvmTypes.Proofs.Composable
import JvmTypes.Proofs.Composition
import JvmTypes.Proofs.Compositional
import JvmTypes.Proofs.Configuring
import JvmTypes.Proofs.Congruence
import JvmTypes.Proofs.DefaultPackage
import JvmTypes.Proofs.Denotation
import JvmTypes.Proofs.Descriptors
import JvmTypes.Proofs.Directness
import JvmTypes.Proofs.ErrorPositions
import JvmTypes.Proofs.Evaluation
import JvmTypes.Proofs.Events
import JvmTypes.Proofs.Exchange
import JvmTypes.Proofs.Extension
import JvmTypes.Proofs.Grammar
import JvmTypes.Proofs.InStep
import JvmTypes.Proofs.Layers
import JvmTypes.Proofs.Layout
import JvmTypes.Proofs.Legality
import JvmTypes.Proofs.Lexing
import JvmTypes.Proofs.Making
import JvmTypes.Proofs.Meaning
import JvmTypes.Proofs.Naming
import JvmTypes.Proofs.Nodes
import JvmTypes.Proofs.Nominal
import JvmTypes.Proofs.Occurrences
import JvmTypes.Proofs.Offences
import JvmTypes.Proofs.Parts
import JvmTypes.Proofs.Places
import JvmTypes.Proofs.Reader.Completeness
import JvmTypes.Proofs.Reader.Descent
import JvmTypes.Proofs.Reader.Mirroring
import JvmTypes.Proofs.Reader.Refusal
import JvmTypes.Proofs.Reader.Relocation
import JvmTypes.Proofs.Reader.Soundness
import JvmTypes.Proofs.Rebuilding
import JvmTypes.Proofs.RoundTrip
import JvmTypes.Proofs.Sameness
import JvmTypes.Proofs.Scanning
import JvmTypes.Proofs.Sequence
import JvmTypes.Proofs.Sessions
import JvmTypes.Proofs.Spans
import JvmTypes.Proofs.Spelling
import JvmTypes.Proofs.Stopping
import JvmTypes.Proofs.Tiling
import JvmTypes.Proofs.Trailing
import JvmTypes.Proofs.UpperBounds
import JvmTypes.Proofs.WellFormed
import JvmTypes.Proofs.Yaml.Items
import JvmTypes.Proofs.Yaml.Listings
import JvmTypes.Proofs.Yaml.Names
import JvmTypes.Proofs.Yaml.Nodes
import JvmTypes.Proofs.Yaml.Reading
import JvmTypes.Proofs.Yaml.Tokens
import JvmTypes.Proofs.Yaml.Words
import JvmTypes.Rule
import JvmTypes.Scope
import JvmTypes.Settings
import JvmTypes.Substitution
import JvmTypes.Text.Blank
import JvmTypes.Text.HiddenTable
import JvmTypes.Text.IdentifierTable
import JvmTypes.Text.Quoted
import JvmTypes.Text.Range
import JvmTypes.Text.Upper
import JvmTypes.Text.UpperTable
import JvmTypes.Text.Word
import JvmTypes.Text.WordTable
import JvmTypes.Token
import JvmTypes.Token.Lexer
import JvmTypes.Trace
import JvmTypes.Value
import JvmTypes.Value.Error
import JvmTypes.Value.Format
import JvmTypes.Value.Same
import JvmTypes.Yaml
import JvmTypes.Yaml.Cursor
import JvmTypes.Yaml.Node
import JvmTypes.Yaml.Number
import JvmTypes.Yaml.Scalar
import JvmTypes.Yaml.Token
