import Intranet.Text.Utf8
import Intranet.Text.Blank
import Intranet.Text.Hex
import Intranet.Number.Double
import Intranet.Number.Shortest
import Intranet.Text.Quoted
import Intranet.Json.Printer
import Intranet.Json.Failure
import Intranet.Json.Decoder
import Intranet.Graphql.Document
import Intranet.Time.Reader
import Intranet.Session.Record
import Intranet.Documents.Gateway
import Intranet.Documents.Remote
import Intranet.Filter
import Intranet.Fault
import Intranet.Journal.Collector
import Intranet.Counters
import Intranet.Http.Status
import Intranet.Crypto.Sha256
import Intranet.Crypto.Hmac
import Intranet.Crypto.PasswordHash
import Intranet.Session.Signature
import Intranet.Http.Cookie
import Intranet.Session.Handle
import Intranet.Session.Memory
import Intranet.Session.Shared
import Intranet.Session.Keeper
import Intranet.Session.Guard
import Intranet.Database.Pools
import Intranet.Database.Connection
import Intranet.Database.Identities
import Intranet.Settings.Layers
import Intranet.Settings.Verbosity
import Intranet.Sync.Trigger
import Intranet.Text.Base64
import Intranet.Database.Problem
import Intranet.Portal.Serve
import Intranet.Rehearsal
import Intranet.Proofs.Authority
import Intranet.Proofs.Authentication
import Intranet.Proofs.Graphql.Prefixes
import Intranet.Proofs.Graphql.Comments
import Intranet.Proofs.Graphql.Literals
import Intranet.Proofs.Graphql.Grammar
import Intranet.Proofs.Graphql.Completeness
import Intranet.Proofs.Graphql.Selections
import Intranet.Proofs.Graphql.Writings
import Intranet.Proofs.Stores
import Intranet.Portal.Traffic
import Intranet.Proofs.Traffic
import Intranet.Proofs.Filter
import Intranet.Proofs.Outages
import Intranet.Proofs.Base64
import Intranet.Proofs.Surfaces
import Intranet.Proofs.Graphql.Variables
import Intranet.Proofs.Envelope
import Intranet.Proofs.Books
import Intranet.Proofs.Counting
import Intranet.Proofs.Json.Members
import Intranet.Proofs.Json.Nesting
import Intranet.Proofs.Json.Reading
import Intranet.Proofs.Json.Values
import Intranet.Proofs.Json.Limits
import Intranet.Proofs.Uuid
import Intranet.Proofs.Time
import Intranet.Proofs.Records
import Intranet.Proofs.Mirrors
import Intranet.Proofs.Interchange
import Intranet.Proofs.SavedRecords
import Intranet.Proofs.Signatures
import Intranet.Proofs.CookiePairs
import Intranet.Proofs.CookieNames
import Intranet.Proofs.Decoys
import Intranet.Proofs.Lifetimes
import Intranet.Proofs.Histories
import Intranet.Proofs.Commits
import Intranet.Proofs.FailedCommits
import Intranet.Proofs.TimesToLive
import Intranet.Proofs.Replies
import Intranet.Proofs.SearchPath
import Intranet.Proofs.Credentials
import Intranet.Proofs.Graphql.Continuing
import Intranet.Proofs.Graphql.Appending
import Intranet.Proofs.Graphql.Strings
import Intranet.Proofs.Graphql.Depth
import Intranet.Graphql.Bytewise
import Intranet.Proofs.Graphql.Safety
import Intranet.Proofs.Graphql.Groups
import Intranet.Proofs.Overlays
import Intranet.Proofs.Layering
import Intranet.Proofs.Replicas
import Intranet.Proofs.Rotation
import Intranet.Proofs.Graphql.Numbers
import Intranet.Proofs.Statements
