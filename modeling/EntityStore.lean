import EntityStore.Binary64
import EntityStore.Builder
import EntityStore.Codec.Basic
import EntityStore.Codec.Metered
import EntityStore.Codec.Zstd
import EntityStore.Codec.Zstd.Bits
import EntityStore.Codec.Zstd.Block
import EntityStore.Codec.Zstd.Frame
import EntityStore.Codec.Zstd.Literals
import EntityStore.Codec.Zstd.Older
import EntityStore.Codec.Zstd.PrefixCode
import EntityStore.Codec.Zstd.Sequence
import EntityStore.Codec.Zstd.StateTable
import EntityStore.Config
import EntityStore.Container
import EntityStore.Decimal.Digits
import EntityStore.Decimal.Numeral
import EntityStore.Decimal.Shortest
import EntityStore.Digest.Base64
import EntityStore.Digest.Sha256
import EntityStore.Digest.XxHash64
import EntityStore.Doc
import EntityStore.Error
import EntityStore.Etag
import EntityStore.Gate
import EntityStore.Index
import EntityStore.Json.Basic
import EntityStore.Json.Decode
import EntityStore.Json.Number
import EntityStore.Json.Reader
import EntityStore.Json.Shape
import EntityStore.Json.Writer
import EntityStore.Key
import EntityStore.MessagePack.Basic
import EntityStore.MessagePack.Decode
import EntityStore.MessagePack.Reader
import EntityStore.MessagePack.Writer
import EntityStore.Observer
import EntityStore.Policy.Signature
import EntityStore.Policy.Version
import EntityStore.Proofs.Decimal
import EntityStore.Proofs.Etag
import EntityStore.Proofs.Index.Exact
import EntityStore.Proofs.Index.Runs
import EntityStore.Proofs.Interleaving.Basic
import EntityStore.Proofs.Interleaving.Effects
import EntityStore.Proofs.Interleaving.LostUpdate
import EntityStore.Proofs.Ledger.Basic
import EntityStore.Proofs.Ledger.Refinement
import EntityStore.Proofs.SortedMap
import EntityStore.Proofs.Store.Calls
import EntityStore.Proofs.Store.Documents
import EntityStore.Proofs.Store.Memory
import EntityStore.Proofs.Store.Sound
import EntityStore.Proofs.Store.Visits
import EntityStore.Property
import EntityStore.Ranked
import EntityStore.ReadHits
import EntityStore.Reference
import EntityStore.Response
import EntityStore.Search.Algorithm
import EntityStore.Search.PropertyOrder
import EntityStore.Search.Registry
import EntityStore.Search.Request
import EntityStore.Search.Results
import EntityStore.Search.Samples
import EntityStore.Search.Scan
import EntityStore.Serializer
import EntityStore.Settings
import EntityStore.Snapshot
import EntityStore.SortedMap
import EntityStore.Store.Basic
import EntityStore.Store.Candidate
import EntityStore.Store.Read
import EntityStore.Store.Search
import EntityStore.Store.Write
import EntityStore.Target
import EntityStore.Text.Blank
import EntityStore.Text.CaseTable
import EntityStore.Text.Hex
import EntityStore.Text.Lowercase
import EntityStore.Text.PrintTable
import EntityStore.Text.Quoted
import EntityStore.Text.Utf8
import EntityStore.Toml.Basic
import EntityStore.Toml.Document
import EntityStore.Toml.Scalar
import EntityStore.Toml.Text
import EntityStore.Toml.Writer
import EntityStore.Uuid
import EntityStore.Proofs.Store.Decoding
import EntityStore.Proofs.Store.Made
import EntityStore.Proofs.Bare
import EntityStore.Proofs.Failure
import EntityStore.Proofs.Interleaving.Linear
import EntityStore.Proofs.Decimal.Shortest
import EntityStore.Proofs.Doc.Formats
import EntityStore.Proofs.Doc.RoundTrip
import EntityStore.Proofs.Signatures
import EntityStore.Proofs.Doc.ReadModifyWrite
import EntityStore.Proofs.Interleaving.Tokens
import EntityStore.Proofs.VersionQueries
import EntityStore.Proofs.Parts
import EntityStore.Proofs.Search.Inquiry
import EntityStore.Proofs.Interleaving.ReadHits
import EntityStore.Proofs.ReadOnly
import EntityStore.Proofs.Readable
import EntityStore.Proofs.Recoding.Runs
import EntityStore.Proofs.Building.Steps
import EntityStore.Proofs.Search.Outcomes
import EntityStore.Proofs.Search.Pages
import EntityStore.Proofs.Search.Arrangement
import EntityStore.Proofs.ByReference
import EntityStore.Proofs.Tampering.Outcomes
import EntityStore.Proofs.Index.Replacement
import EntityStore.Proofs.Index.Undoing
import EntityStore.Proofs.Index.Commuting
import EntityStore.Proofs.Doc.Encoding
import EntityStore.Proofs.Doc.JsonText
import EntityStore.Proofs.Store.DecodeCache
import EntityStore.Proofs.Search.Respelling
import EntityStore.Proofs.Search.Snapshots
import EntityStore.Proofs.Search.Echo
