import NotaryNetwork.Build.Builder
import NotaryNetwork.Build.Error
import NotaryNetwork.Build.Journal
import NotaryNetwork.Build.Parameters
import NotaryNetwork.Build.Provisioning
import NotaryNetwork.Build.Topology
import NotaryNetwork.Build.Validation
import NotaryNetwork.Bytes
import NotaryNetwork.Config.Basic
import NotaryNetwork.Config.Document
import NotaryNetwork.Config.Update
import NotaryNetwork.Contract.Catalogue
import NotaryNetwork.Contract.FileStore
import NotaryNetwork.Contract.Loader
import NotaryNetwork.Contract.Package
import NotaryNetwork.Contract.Pattern
import NotaryNetwork.Contract.Schema
import NotaryNetwork.Contract.Validator
import NotaryNetwork.Contract.WellFormed
import NotaryNetwork.Curve.Edwards25519
import NotaryNetwork.Curve.Modular
import NotaryNetwork.Curve.Standard
import NotaryNetwork.Curve.Weierstrass
import NotaryNetwork.Declaration
import NotaryNetwork.Digest
import NotaryNetwork.Identity.Basic
import NotaryNetwork.Identity.Parser
import NotaryNetwork.Json.Binary64
import NotaryNetwork.Json.Equality
import NotaryNetwork.Json.Literal
import NotaryNetwork.Json.Printer
import NotaryNetwork.Json.Reader
import NotaryNetwork.Json.Value
import NotaryNetwork.Key.Algorithm
import NotaryNetwork.Key.Der
import NotaryNetwork.Key.Domain
import NotaryNetwork.Key.Pem
import NotaryNetwork.Key.Public
import NotaryNetwork.Key.Spki
import NotaryNetwork.Name.Attribute
import NotaryNetwork.Name.Parser
import NotaryNetwork.Name.Separator
import NotaryNetwork.Network.Basic
import NotaryNetwork.Network.Embedded
import NotaryNetwork.Network.Fixture
import NotaryNetwork.Oid
import NotaryNetwork.Proofs.Build.Attempts
import NotaryNetwork.Proofs.Build.Checks
import NotaryNetwork.Proofs.Build.Consecutive
import NotaryNetwork.Proofs.Build.Declaring
import NotaryNetwork.Proofs.Build.Decoding
import NotaryNetwork.Proofs.Build.Encoded
import NotaryNetwork.Proofs.Build.Encoding
import NotaryNetwork.Proofs.Build.Entropy
import NotaryNetwork.Proofs.Build.Generation
import NotaryNetwork.Proofs.Build.Instances
import NotaryNetwork.Proofs.Build.Naming
import NotaryNetwork.Proofs.Build.Network
import NotaryNetwork.Proofs.Build.Parameters
import NotaryNetwork.Proofs.Build.Provisioning
import NotaryNetwork.Proofs.Build.Recipe
import NotaryNetwork.Proofs.Build.Recorded
import NotaryNetwork.Proofs.Build.Refusal
import NotaryNetwork.Proofs.Build.Repeats
import NotaryNetwork.Proofs.Build.Resolution
import NotaryNetwork.Proofs.Build.Rules
import NotaryNetwork.Proofs.Build.Scalar
import NotaryNetwork.Proofs.Build.Seeded
import NotaryNetwork.Proofs.Build.Settling
import NotaryNetwork.Proofs.Build.Stages
import NotaryNetwork.Proofs.Build.Topology
import NotaryNetwork.Proofs.Build.Underivable
import NotaryNetwork.Proofs.Build.Validation
import NotaryNetwork.Proofs.Bytes
import NotaryNetwork.Proofs.Config.Changes
import NotaryNetwork.Proofs.Config.Document
import NotaryNetwork.Proofs.Config.Fields
import NotaryNetwork.Proofs.Config.History
import NotaryNetwork.Proofs.Config.Loading
import NotaryNetwork.Proofs.Config.Update
import NotaryNetwork.Proofs.Contract.Entries
import NotaryNetwork.Proofs.Contract.GroupParameters
import NotaryNetwork.Proofs.Contract.Loads
import NotaryNetwork.Proofs.Contract.NetworkConfig
import NotaryNetwork.Proofs.Contract.Pattern
import NotaryNetwork.Proofs.Contract.Schema
import NotaryNetwork.Proofs.Identity.Parsing
import NotaryNetwork.Proofs.Identity.Rendering
import NotaryNetwork.Proofs.Identity.Reordering
import NotaryNetwork.Proofs.Identity.RoundTrip
import NotaryNetwork.Proofs.Json.Keys
import NotaryNetwork.Proofs.Key.Der
import NotaryNetwork.Proofs.Key.Pem
import NotaryNetwork.Proofs.Key.Spki
import NotaryNetwork.Proofs.Name.Grammar
import NotaryNetwork.Proofs.Name.Pieces
import NotaryNetwork.Proofs.Name.Reading
import NotaryNetwork.Proofs.Name.Replacement
import NotaryNetwork.Proofs.Name.Separator
import NotaryNetwork.Proofs.Name.Types
import NotaryNetwork.Proofs.Name.Units
import NotaryNetwork.Proofs.Name.Value
import NotaryNetwork.Proofs.Outcome
import NotaryNetwork.Proofs.Random.Requests
import NotaryNetwork.Proofs.Random.Seed
import NotaryNetwork.Proofs.Random.Stream
import NotaryNetwork.Proofs.Record
import NotaryNetwork.Proofs.SchemeRegistry
import NotaryNetwork.Proofs.Table
import NotaryNetwork.Proofs.Text.Base64
import NotaryNetwork.Proofs.Text.Decimal
import NotaryNetwork.Proofs.Text.Hex
import NotaryNetwork.Proofs.Text.Utf8
import NotaryNetwork.Random.Choice
import NotaryNetwork.Random.Source
import NotaryNetwork.Record.Fields
import NotaryNetwork.Record.Issue
import NotaryNetwork.Record.Numeral
import NotaryNetwork.Scheme
import NotaryNetwork.Sorting.Merge
import NotaryNetwork.Sorting.Natural
import NotaryNetwork.Sorting.Search
import NotaryNetwork.Table
import NotaryNetwork.Text.Base64
import NotaryNetwork.Text.Decimal
import NotaryNetwork.Text.Hex
import NotaryNetwork.Text.Printable
import NotaryNetwork.Text.Search
import NotaryNetwork.Text.Utf8
