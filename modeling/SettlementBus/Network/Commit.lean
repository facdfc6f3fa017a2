import SettlementBus.Lib.Pending
import SettlementBus.Utils.Helpers

/-! `TransactionCommitService.js`: promises of the receipts of transactions. -/

namespace SettlementBus

/-- A hash that `assertTxHash` lets pass. -/
structure TxHash where
  hex : Str
  isHexString : isHexString hex
  length : hex.length = 64
  deriving DecidableEq

def assertTxHash (txHash : Str) : Option TxHash :=
  if h : isHexString txHash ∧ txHash.length = 64 then some ⟨txHash, h.1, h.2⟩ else none

/-- Why `appendWithProofOfPublication` has no proof of a block. -/
inductive ProofError
  | missingRawBlock (block start length : ℕ)
  | generationFailed (block start length : ℕ) (message : Str)
  deriving DecidableEq

structure Receipt where
  txHash : TxHash
  completeTx : Buffer
  proof : Option Buffer
  proofError : Option ProofError
  timestamp : ℕ
  blockNumber : ℕ
  deriving DecidableEq

inductive CommitError
  | timeout
  /-- The error of `addTransaction`. -/
  | enqueue (resultCode : ℕ)
  | missingCommitReceipt
  | proofUnavailable (blockNumber : ℕ) (reason : Option ProofError) (timestamp : ℕ)
  | appendFailed
  /-- The service was closed. -/
  | cancelled
  deriving DecidableEq

inductive CommitSettlement
  | resolved (receipt : Receipt)
  | rejected (error : CommitError)
  deriving DecidableEq

abbrev TransactionCommitService := Lib.Pending TxHash Unit CommitSettlement

/-- What the other services call, and the timers, in any order. -/
inductive CommitEvent
  | register (txHash : Str)
  | resolve (txHash : Str) (receipt : Receipt)
  | reject (txHash : Str) (error : CommitError)
  | timeout (timer : ℕ)
  | close

namespace TransactionCommitService

variable (service : TransactionCommitService)

def has (txHash : TxHash) : Bool := (service.find? txHash).isSome

def transactionCommitServiceBufferSize : ℕ := 1500

/-- It throws when the service is full and for a hash that is pending. -/
def registerPendingCommit (txHash : TxHash) : Option TransactionCommitService := do
  guard (service.entries.length < transactionCommitServiceBufferSize)
  guard (!has service txHash)
  return service.register txHash ()

def resolvePendingCommit (txHash : TxHash) (receipt : Receipt) : TransactionCommitService :=
  service.settleId txHash (.resolved receipt)

def rejectPendingCommit (txHash : TxHash) (error : CommitError) : TransactionCommitService :=
  service.settleId txHash (.rejected error)

def close : TransactionCommitService := service.settleAll (.rejected .cancelled)

/-- A call that throws changes nothing. -/
def step : CommitEvent → Option TransactionCommitService
  | .register txHash => some (((assertTxHash txHash).bind service.registerPendingCommit).getD service)
  | .resolve txHash receipt => some
    ((assertTxHash txHash).elim service fun txHash => service.resolvePendingCommit txHash receipt)
  | .reject txHash error => some
    ((assertTxHash txHash).elim service fun txHash => service.rejectPendingCommit txHash error)
  | .timeout timer => service.fire (.rejected .timeout) timer
  | .close => some service.close

end TransactionCommitService

end SettlementBus
