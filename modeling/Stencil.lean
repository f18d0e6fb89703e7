import Stencil.Command.Arguments
import Stencil.Command.Failure
import Stencil.Command.Request
import Stencil.Command.Run
import Stencil.Decimal.Binary64
import Stencil.Decimal.Shortest
import Stencil.Digest.Sha1
import Stencil.Files
import Stencil.Host
import Stencil.Identifier
import Stencil.Json.Comments
import Stencil.Json.Fault
import Stencil.Json.Lexeme
import Stencil.Json.Number
import Stencil.Json.Printer
import Stencil.Json.Prune
import Stencil.Json.Reader
import Stencil.Json.Shape
import Stencil.Json.Strings
import Stencil.Json.Token
import Stencil.Json.Value
import Stencil.Lens
import Stencil.Main
import Stencil.Proofs.Command.Course
import Stencil.Proofs.Command.Deeds
import Stencil.Proofs.Command.Identifiers
import Stencil.Proofs.Command.Lockstep
import Stencil.Proofs.Command.Precedence
import Stencil.Proofs.Command.Spelling
import Stencil.Proofs.Command.Stages
import Stencil.Proofs.Json.Accepting
import Stencil.Proofs.Json.Conforming
import Stencil.Proofs.Json.Grammar
import Stencil.Proofs.Json.Lexing
import Stencil.Proofs.Json.Lines
import Stencil.Proofs.Json.Literal
import Stencil.Proofs.Json.Locating
import Stencil.Proofs.Json.Passes
import Stencil.Proofs.Json.Printing
import Stencil.Proofs.Json.Pruning
import Stencil.Proofs.Json.Reading
import Stencil.Proofs.Json.Refusing
import Stencil.Proofs.Json.Reordering
import Stencil.Proofs.Json.Restoring
import Stencil.Proofs.Json.Settled
import Stencil.Proofs.Json.Stripping
import Stencil.Proofs.Json.Tolerance
import Stencil.Proofs.Settings.Casing
import Stencil.Proofs.Settings.Consistency
import Stencil.Proofs.Settings.Dumping
import Stencil.Proofs.Settings.Paths
import Stencil.Proofs.Settings.Places
import Stencil.Proofs.Settings.Texts
import Stencil.Proofs.Settings.Verbatim
import Stencil.Proofs.Settings.Visits
import Stencil.Proofs.Table
import Stencil.Proofs.Template.Calls
import Stencil.Proofs.Template.Checks
import Stencil.Proofs.Template.Comments
import Stencil.Proofs.Template.Completeness
import Stencil.Proofs.Template.Cycles
import Stencil.Proofs.Template.Dependency
import Stencil.Proofs.Template.Diagnostics
import Stencil.Proofs.Template.Documents
import Stencil.Proofs.Template.Effects
import Stencil.Proofs.Template.Evaluation
import Stencil.Proofs.Template.Exactness
import Stencil.Proofs.Template.Expansion
import Stencil.Proofs.Template.Failure
import Stencil.Proofs.Template.Grammar
import Stencil.Proofs.Template.Joining
import Stencil.Proofs.Template.Likeness
import Stencil.Proofs.Template.Literal
import Stencil.Proofs.Template.Memo
import Stencil.Proofs.Template.Nesting
import Stencil.Proofs.Template.Once
import Stencil.Proofs.Template.Opening
import Stencil.Proofs.Template.Order
import Stencil.Proofs.Template.Paired
import Stencil.Proofs.Template.Positions
import Stencil.Proofs.Template.Quoting
import Stencil.Proofs.Template.Recognition
import Stencil.Proofs.Template.Reference
import Stencil.Proofs.Template.Refusing
import Stencil.Proofs.Template.Rendering
import Stencil.Proofs.Template.Soundness
import Stencil.Proofs.Template.Steps
import Stencil.Proofs.Template.Subject
import Stencil.Proofs.Template.Tokens
import Stencil.Proofs.Template.Trace
import Stencil.Proofs.Template.Unfailing
import Stencil.Proofs.Template.Watching
import Stencil.Proofs.Template.Words
import Stencil.Proofs.Text.Blank
import Stencil.Proofs.Text.Casing
import Stencil.Proofs.Text.Numeral
import Stencil.Proofs.Text.Split
import Stencil.Proofs.Text.Utf8
import Stencil.Proofs.Texts
import Stencil.Proofs.Upload.Accounts
import Stencil.Proofs.Upload.Adding
import Stencil.Proofs.Upload.Addresses
import Stencil.Proofs.Upload.Braces
import Stencil.Proofs.Upload.History
import Stencil.Proofs.Upload.Lifecycle
import Stencil.Proofs.Upload.Order
import Stencil.Proofs.Upload.Placeholders
import Stencil.Proofs.Upload.Registering
import Stencil.Proofs.Upload.Sending
import Stencil.Proofs.Upload.Sources
import Stencil.Proofs.Url.Authority
import Stencil.Proofs.Url.Domain
import Stencil.Proofs.Url.Percent
import Stencil.Proofs.Url.Segments
import Stencil.Settings.Config
import Stencil.Settings.Lookup
import Stencil.Settings.Overrides
import Stencil.Settings.Resolved
import Stencil.Settings.Setting
import Stencil.Settings.Source
import Stencil.Table
import Stencil.Template.Domain
import Stencil.Template.Error
import Stencil.Template.Function
import Stencil.Template.Literal
import Stencil.Template.Memo
import Stencil.Template.Node
import Stencil.Template.Parser
import Stencil.Template.Session
import Stencil.Template.Standard
import Stencil.Text.Blank
import Stencil.Text.Casing
import Stencil.Text.CombiningClass
import Stencil.Text.Hex
import Stencil.Text.Mark
import Stencil.Text.Path
import Stencil.Text.Printable
import Stencil.Text.Quoted
import Stencil.Text.Range
import Stencil.Text.Split
import Stencil.Text.Utf8
import Stencil.Texts
import Stencil.Upload.Container
import Stencil.Upload.Error
import Stencil.Upload.Plan
import Stencil.Url.Address
import Stencil.Url.Basic
import Stencil.Url.Domain
import Stencil.Url.Domain.Composite
import Stencil.Url.Domain.Direction
import Stencil.Url.Domain.Joining
import Stencil.Url.Domain.Mapping
import Stencil.Url.Domain.NormalForm
import Stencil.Url.FilePath
import Stencil.Url.Host
import Stencil.Url.Parser
import Stencil.Url.Percent
import Stencil.Url.Punycode
import Stencil.Url.Segments
import Stencil.Yaml.Cursor
import Stencil.Yaml.Document
import Stencil.Yaml.Layout
import Stencil.Yaml.Node
import Stencil.Yaml.Property
import Stencil.Yaml.Scalar.Block
import Stencil.Yaml.Scalar.Gap
import Stencil.Yaml.Scalar.Plain
import Stencil.Yaml.Scalar.Quoted
import Stencil.Yaml.Token
