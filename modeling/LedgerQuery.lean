import LedgerQuery.Backend.Scripted
import LedgerQuery.Query.Notation
import LedgerQuery.Record.Schema
import LedgerQuery.Resolve.Chain
import LedgerQuery.Proofs.Store.Commit
import LedgerQuery.Proofs.Store.Fault
import LedgerQuery.Proofs.Store.Sound
import LedgerQuery.Proofs.Number.Compare
import LedgerQuery.Proofs.Query.Sorting
import LedgerQuery.Proofs.Vault.Journal
import LedgerQuery.Proofs.Query.Builder
import LedgerQuery.Proofs.Query.Predicate
import LedgerQuery.Proofs.Text.Digits
import LedgerQuery.Proofs.Json.Number
import LedgerQuery.Proofs.Record.Reference
import LedgerQuery.Proofs.Time.Rfc3339
import LedgerQuery.Proofs.Json.Read
import LedgerQuery.Proofs.Wire.Binary
import LedgerQuery.Proofs.Wire.Message
import LedgerQuery.Proofs.Wire.Frame
import LedgerQuery.Proofs.Wire.Prefix
import LedgerQuery.Proofs.Record.Chain
import LedgerQuery.Proofs.Record.Lineage
import LedgerQuery.Proofs.Vault.Reachable
import LedgerQuery.Proofs.Vault.History
import LedgerQuery.Proofs.Backend.Loopback
import LedgerQuery.Proofs.Resolve.All
import LedgerQuery.Proofs.Query.Step
import LedgerQuery.Proofs.Query.Like
import LedgerQuery.Proofs.Query.Status
import LedgerQuery.Proofs.Query.Setter
import LedgerQuery.Proofs.Query.Untimed
import LedgerQuery.Proofs.Service.Replay
import LedgerQuery.Proofs.Service.Subscription
import LedgerQuery.Proofs.Resolve.Chain
import LedgerQuery.Proofs.Resolve.Single
import LedgerQuery.Proofs.Vault.Told
import LedgerQuery.Proofs.Vault.Routing
import LedgerQuery.Proofs.Backend.Feeds
import LedgerQuery.Proofs.Backend.Subscribe
import LedgerQuery.Proofs.Backend.Server
import LedgerQuery.Proofs.Vault.Pages
import LedgerQuery.Proofs.Vault.Acceptance
import LedgerQuery.Proofs.Vault.Commute
import LedgerQuery.Proofs.Hash.Crc32
import LedgerQuery.Proofs.Wire.Damage
import LedgerQuery.Proofs.Wire.Stream
import LedgerQuery.Proofs.Number.Whole
import LedgerQuery.Proofs.Query.Projection
import LedgerQuery.Proofs.Text.Order
import LedgerQuery.Proofs.Query.ReferenceOrder
import LedgerQuery.Proofs.Number.Exact
import LedgerQuery.Proofs.Query.Comparison
import LedgerQuery.Proofs.Record.ReferenceText
import LedgerQuery.Proofs.Text.Spelling
import LedgerQuery.Proofs.Query.Register
import LedgerQuery.Proofs.Service.Account
import LedgerQuery.Proofs.Service.Delivery
