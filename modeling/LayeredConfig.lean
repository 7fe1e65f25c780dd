import LayeredConfig.Accessor
import LayeredConfig.Accessor.Builder
import LayeredConfig.CommandLine
import LayeredConfig.CommandLine.Argument
import LayeredConfig.CommandLine.Get
import LayeredConfig.CommandLine.Invocation
import LayeredConfig.CommandLine.Palette
import LayeredConfig.CommandLine.Problem
import LayeredConfig.CommandLine.Setup
import LayeredConfig.CommandLine.Survey
import LayeredConfig.ConfigFile
import LayeredConfig.Converter
import LayeredConfig.Converter.Builtin
import LayeredConfig.Converter.Recipe
import LayeredConfig.Duration
import LayeredConfig.Duration.Reader
import LayeredConfig.Engine
import LayeredConfig.Entries
import LayeredConfig.Error
import LayeredConfig.FileFormat
import LayeredConfig.FileTree
import LayeredConfig.Instant
import LayeredConfig.JsonValue
import LayeredConfig.KeyPath
import LayeredConfig.ListText
import LayeredConfig.Main
import LayeredConfig.Marker
import LayeredConfig.Number.Binary
import LayeredConfig.Number.Decimal
import LayeredConfig.Number.Whole
import LayeredConfig.Path
import LayeredConfig.Proofs.Accessor.Building
import LayeredConfig.Proofs.Accessor.Caching
import LayeredConfig.Proofs.Accessor.ListReads
import LayeredConfig.Proofs.Accessor.LookupChain
import LayeredConfig.Proofs.Accessor.Malformed
import LayeredConfig.Proofs.Accessor.Nesting
import LayeredConfig.Proofs.Accessor.Origins
import LayeredConfig.Proofs.Accessor.TextDefault
import LayeredConfig.Proofs.CommandLine.RawText
import LayeredConfig.Proofs.Converter.TypeNames
import LayeredConfig.Proofs.Document.Flattening
import LayeredConfig.Proofs.Duration.Bytewise
import LayeredConfig.Proofs.Duration.Components
import LayeredConfig.Proofs.Duration.Numeral
import LayeredConfig.Proofs.Duration.Rendering
import LayeredConfig.Proofs.Duration.Spelling
import LayeredConfig.Proofs.Entries
import LayeredConfig.Proofs.ListText
import LayeredConfig.Proofs.Lookup
import LayeredConfig.Proofs.Properties.Escaping
import LayeredConfig.Proofs.Properties.LineBreaks
import LayeredConfig.Proofs.Properties.Rows
import LayeredConfig.Proofs.Registry.Calls
import LayeredConfig.Proofs.Registry.Conflicts
import LayeredConfig.Proofs.Registry.Discovery
import LayeredConfig.Proofs.Registry.NestedLists
import LayeredConfig.Proofs.Registry.Providers
import LayeredConfig.Proofs.Session.Accessors
import LayeredConfig.Proofs.Session.Closings
import LayeredConfig.Proofs.Session.Coherence
import LayeredConfig.Proofs.Session.DirectReads
import LayeredConfig.Proofs.Session.Discipline
import LayeredConfig.Proofs.Session.Effects
import LayeredConfig.Proofs.Session.FailedReads
import LayeredConfig.Proofs.Session.Merging
import LayeredConfig.Proofs.Session.Notifying
import LayeredConfig.Proofs.Session.ReportedKeys
import LayeredConfig.Proofs.Session.Reporting
import LayeredConfig.Proofs.Session.Steps
import LayeredConfig.Proofs.SourceSet
import LayeredConfig.Proofs.SourceSet.Batches
import LayeredConfig.Proofs.Store.Access
import LayeredConfig.Proofs.Store.Additions
import LayeredConfig.Proofs.Store.Changes
import LayeredConfig.Proofs.Store.Engines
import LayeredConfig.Proofs.Store.Moments
import LayeredConfig.Proofs.Template.Braces
import LayeredConfig.Proofs.Template.Bytewise
import LayeredConfig.Proofs.Template.Closing
import LayeredConfig.Proofs.Template.Evaluation
import LayeredConfig.Proofs.Template.Idempotence
import LayeredConfig.Proofs.Template.Limits
import LayeredConfig.Proofs.Template.Meaning
import LayeredConfig.Proofs.Template.Scan
import LayeredConfig.Proofs.Template.Settled
import LayeredConfig.Proofs.Template.Steps
import LayeredConfig.Proofs.Template.Termination
import LayeredConfig.Proofs.Text.Ascii
import LayeredConfig.Proofs.Text.Boundaries
import LayeredConfig.Proofs.Text.Trim
import LayeredConfig.Proofs.TypeName.Expressions
import LayeredConfig.Properties
import LayeredConfig.Registry
import LayeredConfig.SampleTypes
import LayeredConfig.Session
import LayeredConfig.Source
import LayeredConfig.SourceSet
import LayeredConfig.Template
import LayeredConfig.Text.Alphanumeric
import LayeredConfig.Text.Blank
import LayeredConfig.Text.Column
import LayeredConfig.Text.Hex
import LayeredConfig.Text.Lowercase
import LayeredConfig.Text.Quoted
import LayeredConfig.Toml
import LayeredConfig.Toml.Document
import LayeredConfig.Toml.Gap
import LayeredConfig.Toml.Moment
import LayeredConfig.Toml.Quoted
import LayeredConfig.Toml.Scalar
import LayeredConfig.Toml.Table
import LayeredConfig.Truth
import LayeredConfig.TypeName
import LayeredConfig.Url
import LayeredConfig.Url.Host
import LayeredConfig.Url.Percent
import LayeredConfig.Url.Punycode
import LayeredConfig.Value
import LayeredConfig.ValueType
import LayeredConfig.View
import LayeredConfig.Yaml
import LayeredConfig.Yaml.Cursor
import LayeredConfig.Yaml.Document
import LayeredConfig.Yaml.Node
import LayeredConfig.Yaml.Scalar
import LayeredConfig.Yaml.Token
import LayeredConfig.Yaml.Token.Block
import LayeredConfig.Yaml.Token.Fold
import LayeredConfig.Yaml.Token.Plain
import LayeredConfig.Yaml.Token.Property
import LayeredConfig.Yaml.Token.Quoted
import LayeredConfig.Yaml.Token.Stream
import LayeredConfig.Proofs.ListText.Concatenation
import LayeredConfig.Proofs.Properties.CharacterCodes
import LayeredConfig.Proofs.Registry.KnownTypes
import LayeredConfig.Proofs.Accessor.Sets
import LayeredConfig.Proofs.Duration.Truncation
import LayeredConfig.Proofs.SourceSet.Names
import LayeredConfig.Proofs.Store.Reloading
import LayeredConfig.Proofs.Session.Reloading
