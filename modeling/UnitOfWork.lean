import UnitOfWork.Batch.Check
import UnitOfWork.Batch.Limits
import UnitOfWork.Batch.Operation
import UnitOfWork.Batch.Staging
import UnitOfWork.Config.Form
import UnitOfWork.Config.Setting
import UnitOfWork.Config.Store
import UnitOfWork.Digest.Sha256
import UnitOfWork.Duration
import UnitOfWork.Instant
import UnitOfWork.Json.Decimal
import UnitOfWork.Json.Document
import UnitOfWork.Json.Form
import UnitOfWork.Json.Reader
import UnitOfWork.RowFormat.Integer
import UnitOfWork.RowFormat.Row
import UnitOfWork.Script.Action
import UnitOfWork.Script.Bench
import UnitOfWork.Script.Outcome
import UnitOfWork.Session.Accumulator
import UnitOfWork.Session.Error
import UnitOfWork.Session.Lifecycle
import UnitOfWork.Session.Manager
import UnitOfWork.Session.Operation
import UnitOfWork.Session.Partition
import UnitOfWork.Session.SharedBatch
import UnitOfWork.Session.WorkId
import UnitOfWork.Session.World
import UnitOfWork.SortedMap
import UnitOfWork.SortedMap.Lemmas
import UnitOfWork.Store.Basic
import UnitOfWork.Store.Durable
import UnitOfWork.Store.Error
import UnitOfWork.Store.Memory
import UnitOfWork.Store.PhysicalKey
import UnitOfWork.Store.Relay
import UnitOfWork.Table.Entity
import UnitOfWork.Table.Form
import UnitOfWork.Table.Naming
import UnitOfWork.Table.Token
import UnitOfWork.Table.Value
import UnitOfWork.Text.Blank
import UnitOfWork.Text.Hex
import UnitOfWork.Text.Quoted
import UnitOfWork.Text.Unprintable
import UnitOfWork.Text.Utf8
import UnitOfWork.Proofs.Batch.Alike
import UnitOfWork.Proofs.Batch.Check
import UnitOfWork.Proofs.Batch.Fault
import UnitOfWork.Proofs.Batch.Intent
import UnitOfWork.Proofs.Batch.Staging
import UnitOfWork.Proofs.RowFormat.Row
import UnitOfWork.Proofs.RowFormat.Size
import UnitOfWork.Proofs.RowFormat.Spelling
import UnitOfWork.Proofs.Session.Accumulator
import UnitOfWork.Proofs.Session.Alike
import UnitOfWork.Proofs.Session.Apart
import UnitOfWork.Proofs.Session.Beside
import UnitOfWork.Proofs.Session.Bookkeeping
import UnitOfWork.Proofs.Session.Budget
import UnitOfWork.Proofs.Session.Coalescing
import UnitOfWork.Proofs.Session.Enlistment
import UnitOfWork.Proofs.Session.Failure
import UnitOfWork.Proofs.Session.Generations
import UnitOfWork.Proofs.Session.Lifecycle
import UnitOfWork.Proofs.Session.Manager
import UnitOfWork.Proofs.Session.Membership
import UnitOfWork.Proofs.Session.Merging
import UnitOfWork.Proofs.Session.Noninterference
import UnitOfWork.Proofs.Session.Outcome
import UnitOfWork.Proofs.Session.Panic
import UnitOfWork.Proofs.Session.Partition
import UnitOfWork.Proofs.Session.Pending
import UnitOfWork.Proofs.Session.Play
import UnitOfWork.Proofs.Session.Prepared
import UnitOfWork.Proofs.Session.Reachable
import UnitOfWork.Proofs.Session.Recount
import UnitOfWork.Proofs.Session.Registry
import UnitOfWork.Proofs.Session.Resubmission
import UnitOfWork.Proofs.Session.Shares
import UnitOfWork.Proofs.Session.Sharing
import UnitOfWork.Proofs.Session.SingleSubmission
import UnitOfWork.Proofs.Session.StampedToken
import UnitOfWork.Proofs.Session.Twin
import UnitOfWork.Proofs.Session.Undisturbed
import UnitOfWork.Proofs.Session.Verdict
import UnitOfWork.Proofs.SortedMap.Count
import UnitOfWork.Proofs.Store.Agreement
import UnitOfWork.Proofs.Store.Beside
import UnitOfWork.Proofs.Store.Call
import UnitOfWork.Proofs.Store.Carried
import UnitOfWork.Proofs.Store.Decision
import UnitOfWork.Proofs.Store.Durable
import UnitOfWork.Proofs.Store.Effect
import UnitOfWork.Proofs.Store.KeyLayout
import UnitOfWork.Proofs.Store.Ledger
import UnitOfWork.Proofs.Store.Listing
import UnitOfWork.Proofs.Store.Memory
import UnitOfWork.Proofs.Store.OneByOne
import UnitOfWork.Proofs.Store.PhysicalKey
import UnitOfWork.Proofs.Store.Reachable
import UnitOfWork.Proofs.Store.Reading
import UnitOfWork.Proofs.Store.Refusal
import UnitOfWork.Proofs.Store.Reordering
import UnitOfWork.Proofs.Store.Retry
import UnitOfWork.Proofs.Store.Settlement
import UnitOfWork.Proofs.Store.Success
import UnitOfWork.Proofs.Store.TokenFreshness
import UnitOfWork.Proofs.Store.TokenHistory
import UnitOfWork.Proofs.Store.WellFormed
import UnitOfWork.Proofs.Table.Pairing
import UnitOfWork.Proofs.Table.Token
import UnitOfWork.Proofs.Text.Order
import UnitOfWork.Proofs.Text.Utf8
