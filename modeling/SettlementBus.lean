import SettlementBus.Lib.Exec
import SettlementBus.Lib.Heap
import SettlementBus.Lib.Store
import SettlementBus.Lib.OrderedMap
import SettlementBus.Lib.Bytes
import SettlementBus.Lib.Division
import SettlementBus.Lib.Machine
import SettlementBus.Lib.Trace
import SettlementBus.Lib.Retry
import SettlementBus.Lib.Pending
import SettlementBus.Lib.Lifetime
import SettlementBus.Lib.Membership
import SettlementBus.Lib.Framing
import SettlementBus.Lib.Window
import SettlementBus.Lib.Text
import SettlementBus.Lib.Decimal
import SettlementBus.Lib.Wire
import SettlementBus.Lib.Fields
import SettlementBus.Utils.Buffer
import SettlementBus.Utils.Helpers
import SettlementBus.Utils.Constants
import SettlementBus.Messages.Operation
import SettlementBus.Config
import SettlementBus.Utils.Check
import SettlementBus.State.Address
import SettlementBus.Messages.Builder
import SettlementBus.Messages.Director
import SettlementBus.Messages.Json
import SettlementBus.Messages.Strategies
import SettlementBus.Messages.Request
import SettlementBus.State.NodeEntry
import SettlementBus.State.Balance
import SettlementBus.State.Division
import SettlementBus.State.Memory
import SettlementBus.Properties.Balance
import SettlementBus.State.Account
import SettlementBus.State.Setter
import SettlementBus.Lib.View
import SettlementBus.State.EntryMemory
import SettlementBus.Properties.NodeEntry
import SettlementBus.State.Entries
import SettlementBus.State.World
import SettlementBus.State.Ledger
import SettlementBus.State.Common
import SettlementBus.State.Handlers.Admin
import SettlementBus.State.Handlers.Role
import SettlementBus.State.Handlers.Value
import SettlementBus.State.Apply
import SettlementBus.Messages.Preimage
import SettlementBus.Messages.Network
import SettlementBus.Network.PendingRequest
import SettlementBus.Network.Response
import SettlementBus.Network.Commit
import SettlementBus.Network.Pool
import SettlementBus.Messages.Encoding
import SettlementBus.Messages.Decoding
import SettlementBus.Messages.Items
import SettlementBus.Sample
import SettlementBus.Steps.Verified
import SettlementBus.Steps.Fees
import SettlementBus.Steps.Common
import SettlementBus.Steps.Role
import SettlementBus.Steps.Value
import SettlementBus.Steps.Admin
import SettlementBus.Steps.Control
import SettlementBus.Steps.Penalty
import SettlementBus.Steps.Atomic
import SettlementBus.Steps.Event
import SettlementBus.Steps.Frame
import SettlementBus.Steps.Payment
import SettlementBus.Steps.Change
import SettlementBus.Steps.Parties
import SettlementBus.Steps.Effect
import SettlementBus.Invariants.Stake
import SettlementBus.Invariants.Admin
import SettlementBus.Properties.Alias
import SettlementBus.Properties.Conservation
import SettlementBus.Properties.Stake
import SettlementBus.Properties.Identity
import SettlementBus.Properties.Roles
import SettlementBus.Invariants.Membership
import SettlementBus.Properties.Membership
import SettlementBus.Properties.Atomicity
import SettlementBus.Invariants.Record
import SettlementBus.Properties.Replay
import SettlementBus.Lib.Numbering
import SettlementBus.Invariants.Registry
import SettlementBus.Properties.Registry
import SettlementBus.Invariants.Counter
import SettlementBus.Properties.Counter
import SettlementBus.Validators.Partial
import SettlementBus.Validators.Role
import SettlementBus.Validators.Value
import SettlementBus.Invariants.Deployment
import SettlementBus.Properties.Deployment
import SettlementBus.Properties.Authorization
import SettlementBus.Properties.Preimage
import SettlementBus.Properties.Builder
import SettlementBus.Properties.Binding
import SettlementBus.Properties.PendingRequest
import SettlementBus.Properties.Settlement
import SettlementBus.Properties.Pipeline
import SettlementBus.State.History
import SettlementBus.Properties.History
import SettlementBus.Network.Connection
import SettlementBus.Properties.Connection
import SettlementBus.Network.Observer
import SettlementBus.Properties.Observer
import SettlementBus.Messages.Schema
import SettlementBus.Messages.NetworkBuilder
import SettlementBus.Messages.Transport
import SettlementBus.Properties.Signature
import SettlementBus.Utils.DeepEqual
import SettlementBus.Network.BroadcastResponse
import SettlementBus.Network.BroadcastRequest
import SettlementBus.Network.Liveness
import SettlementBus.Network.Broadcast
import SettlementBus.Properties.BroadcastResponse
import SettlementBus.Properties.Exchange
import SettlementBus.Properties.Transport
import SettlementBus.Properties.BroadcastRequest
import SettlementBus.Properties.RequestProgress
import SettlementBus.Properties.Agreement
import SettlementBus.Network.Orchestrator
import SettlementBus.Network.Lifecycle
import SettlementBus.Properties.Attempts
import SettlementBus.Properties.Probe
import SettlementBus.Properties.Lifecycle
import SettlementBus.Properties.Orchestrator
import SettlementBus.Network.Scheduler
import SettlementBus.Properties.Scheduler
import SettlementBus.Network.RateLimiter
import SettlementBus.Properties.RateLimiter
import SettlementBus.Utils.AmountSerialization
import SettlementBus.Properties.AmountSerialization
import SettlementBus.Properties.Transfer
import SettlementBus.Properties.Tx
import SettlementBus.Properties.Penalty
import SettlementBus.Validators.Accepted
import SettlementBus.Properties.Prevalidation
import SettlementBus.Properties.Totality
import SettlementBus.Properties.RolePrevalidation
import SettlementBus.Properties.Race
import SettlementBus.Properties.Encoding
