import Concordance.Backend
import Concordance.Config
import Concordance.Date
import Concordance.Decimal.Notation
import Concordance.Decimal.Reader
import Concordance.Decimal.Shortest
import Concordance.Document
import Concordance.Error
import Concordance.Index.Entry
import Concordance.Index.Inverted
import Concordance.Json.Basic
import Concordance.Json.Number
import Concordance.Json.Printer
import Concordance.Json.Reader
import Concordance.Json.Record
import Concordance.Matching
import Concordance.Proofs.Backend.Buffer
import Concordance.Proofs.Backend.Rebuild
import Concordance.Proofs.Backend.Refusal
import Concordance.Proofs.Backend.Regular
import Concordance.Proofs.Config
import Concordance.Proofs.Date
import Concordance.Proofs.Decimal.Binary
import Concordance.Proofs.Decimal.Notation
import Concordance.Proofs.Decimal.Shortest
import Concordance.Proofs.Document
import Concordance.Proofs.Document.Filled
import Concordance.Proofs.Document.Paths
import Concordance.Proofs.Document.Texts
import Concordance.Proofs.Double.Integer
import Concordance.Proofs.Double.Order
import Concordance.Proofs.Index.Change
import Concordance.Proofs.Index.Statistics
import Concordance.Proofs.Index.Tables
import Concordance.Proofs.Index.Version
import Concordance.Proofs.Json.Printer
import Concordance.Proofs.Json.Reader
import Concordance.Proofs.Json.Record
import Concordance.Proofs.Matching.History
import Concordance.Proofs.Matching.Meaning
import Concordance.Proofs.Matching.Operators
import Concordance.Proofs.Matching.Pointwise
import Concordance.Proofs.Query.Normalized
import Concordance.Proofs.RecordSet.Algebra
import Concordance.Proofs.RecordSet.Base
import Concordance.Proofs.RecordSet.Composition
import Concordance.Proofs.RecordSet.Evaluate
import Concordance.Proofs.RecordSet.Failures
import Concordance.Proofs.RecordSet.Foreign
import Concordance.Proofs.RecordSet.Local
import Concordance.Proofs.RecordSet.Meaning
import Concordance.Proofs.RecordSet.Ordering
import Concordance.Proofs.RecordSet.Reading
import Concordance.Proofs.RecordSet.Sorting
import Concordance.Proofs.RecordSet.Strays
import Concordance.Proofs.Registry
import Concordance.Proofs.Registry.Instances
import Concordance.Proofs.Result
import Concordance.Proofs.Schema.Hierarchy
import Concordance.Proofs.Schema.Inheritance
import Concordance.Proofs.Schema.Path
import Concordance.Proofs.Schema.Projection
import Concordance.Proofs.Schema.Resolve
import Concordance.Proofs.Schema.WellDeclared
import Concordance.Proofs.Search.Hits
import Concordance.Proofs.Search.Narrowing
import Concordance.Proofs.Session.AutoUpdate
import Concordance.Proofs.Session.Command
import Concordance.Proofs.Session.Effect
import Concordance.Proofs.Session.Failures
import Concordance.Proofs.Session.Families
import Concordance.Proofs.Session.Findable
import Concordance.Proofs.Session.Freshness
import Concordance.Proofs.Session.Hits
import Concordance.Proofs.Session.Moves
import Concordance.Proofs.Session.Operation
import Concordance.Proofs.Session.OwnTokens
import Concordance.Proofs.Session.Refusal
import Concordance.Proofs.Session.ShortCut
import Concordance.Proofs.Session.Storage
import Concordance.Proofs.Session.Supertypes
import Concordance.Proofs.Session.Timely
import Concordance.Proofs.Session.Upkeep
import Concordance.Proofs.Sort
import Concordance.Proofs.SortedMap
import Concordance.Proofs.Store
import Concordance.Proofs.Store.Removal
import Concordance.Proofs.Text.Lowercase
import Concordance.Proofs.Text.Runs
import Concordance.Proofs.Token
import Concordance.Proofs.Token.Scanner
import Concordance.Proofs.Token.Stable
import Concordance.Proofs.Update
import Concordance.Proofs.Value.Order
import Concordance.Proofs.View
import Concordance.Proofs.View.Pages
import Concordance.Proofs.View.Watching
import Concordance.Query.Basic
import Concordance.Query.Normalized
import Concordance.Rebuild
import Concordance.Record
import Concordance.RecordSet.Basic
import Concordance.RecordSet.Evaluate
import Concordance.RecordSet.Validate
import Concordance.Registry
import Concordance.Schema.Basic
import Concordance.Schema.Build
import Concordance.Schema.Field
import Concordance.Schema.Resolve
import Concordance.Scorer
import Concordance.Search
import Concordance.Session
import Concordance.Sort
import Concordance.SortedMap
import Concordance.Store
import Concordance.Text.Classes
import Concordance.Text.Lowercase
import Concordance.Text.Printable
import Concordance.Token
import Concordance.Toml.Basic
import Concordance.Toml.Printer
import Concordance.Toml.Quoted
import Concordance.Toml.Reader
import Concordance.Toml.Scalar
import Concordance.Toml.Table
import Concordance.Value
import Concordance.View
