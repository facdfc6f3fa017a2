import Mathlib.Data.Finset.Dedup
import Mathlib.Data.Finset.Erase
import Mathlib.Data.Finset.Insert
import SettlementBus.Lib.Machine
import SettlementBus.Network.Commit
import SettlementBus.Utils.Constants

/-! `TransactionPoolService.js`: the queue of transactions and the worker that appends them. -/

namespace SettlementBus

structure PoolItem where
  txHash : TxHash
  encodedTx : Buffer
  deriving DecidableEq

structure TransactionPoolService where
  txPool : List PoolItem
  queuedTxHashes : Finset TxHash

def resultCodeNodeOverloaded : ℕ := 9

def resultCodeTxAlreadyPending : ℕ := 10

namespace TransactionPoolService

def init : TransactionPoolService := { txPool := [], queuedTxHashes := ∅ }

variable (pool : TransactionPoolService) (txPoolSize : ℕ)

def hasTransaction (txHash : TxHash) : Bool := txHash ∈ pool.queuedTxHashes

def validateEnqueue : Except CommitError Unit :=
  if txPoolSize ≤ pool.txPool.length then .error (.enqueue resultCodeNodeOverloaded) else .ok ()

/-- Its errors are those of `mapTransactionEnqueueError`. That of invalid data is for what is not a
hash and a buffer. -/
def addTransaction (txHash : TxHash) (encodedTx : Buffer) :
    Except CommitError TransactionPoolService := do
  pool.validateEnqueue txPoolSize
  if pool.hasTransaction txHash then throw (.enqueue resultCodeTxAlreadyPending)
  return { txPool := pool.txPool ++ [{ txHash, encodedTx }]
           queuedTxHashes := insert txHash pool.queuedTxHashes }

/-- The loop of `prepareBatch`, which shifts one item after another. -/
def shiftItems : ℕ → TransactionPoolService → List PoolItem × TransactionPoolService
  | 0, pool => ([], pool)
  | n + 1, pool =>
    match pool.txPool with
    | [] => ([], pool)
    | tx :: txPool =>
      let (batch, pool) :=
        shiftItems n { txPool, queuedTxHashes := pool.queuedTxHashes.erase tx.txHash }
      (tx :: batch, pool)

def prepareBatch : List PoolItem × TransactionPoolService :=
  shiftItems (min pool.txPool.length batchSize) pool

end TransactionPoolService

/-- What the snapshot has of a block after an append. -/
inductive BlockProof
  | missing
  | failed (message : Str)
  | proof (proof : Buffer)

/-- `State.appendWithProofOfPublication`, with the `length` of the core after the append. -/
def appendWithProofOfPublication (length : ℕ) (snapshot : ℕ → BlockProof) (timestamp : ℕ)
    (batch : List Buffer) (batchTxHashes : List TxHash) : List Receipt :=
  let start := length - batch.length
  (batch.zip batchTxHashes).mapIdx fun i (completeTx, txHash) =>
    let blockNumber := start + i
    let (proof, proofError) := match snapshot blockNumber with
      | .missing => (none, some (ProofError.missingRawBlock blockNumber start length))
      | .failed message =>
        (none, some (ProofError.generationFailed blockNumber start length message))
      | .proof proof => (some proof, none)
    { txHash, completeTx, proof, proofError, timestamp, blockNumber }

/-- The last receipt of the hash. -/
def receiptsByHash (receipts : List Receipt) (txHash : TxHash) : Option Receipt :=
  receipts.reverse.find? fun receipt => receipt.txHash = txHash

/-- What becomes of the promise of an item that has been appended. -/
def PoolItem.outcome (receipts : List Receipt) (item : PoolItem) : CommitSettlement :=
  match receiptsByHash receipts item.txHash with
  | none => .rejected .missingCommitReceipt
  | some receipt =>
    match receipt.proof with
    | none =>
      .rejected (.proofUnavailable receipt.blockNumber receipt.proofError receipt.timestamp)
    | some _ => .resolved receipt

/-- The services of a validator, with the batch that its worker awaits the append of. -/
structure Pipeline where
  pool : TransactionPoolService
  commits : TransactionCommitService
  appending : Option (List PoolItem)
  /-- All items that have been queued, with the promises of their receipts. -/
  accepted : List (ℕ × PoolItem)
  /-- All batches that have been prepared. -/
  batches : List (List PoolItem)

inductive PipelineEvent
  /-- `dispatchTransaction`, from where it has the `tx` and the encoded complete operation. -/
  | dispatch (tx encodedCompleteTransaction : Buffer)
  /-- The worker has checked the permissions. -/
  | work (canValidate : Bool)
  | appended (length : ℕ) (snapshot : ℕ → BlockProof) (timestamp : ℕ)
  | appendFailed
  | timeout (timer : ℕ)

namespace Pipeline

def init : Pipeline :=
  { pool := .init, commits := .init, appending := none, accepted := [], batches := [] }

variable (txPoolSize : ℕ) (s : Pipeline)

/-- Nothing changes when the registration throws. -/
def dispatchTransaction (tx encodedCompleteTransaction : Buffer) : Pipeline :=
  match assertTxHash (toHex tx) with
  | none => s
  | some txHash =>
    match s.commits.registerPendingCommit txHash with
    | none => s
    | some commits =>
      match s.pool.addTransaction txPoolSize txHash encodedCompleteTransaction with
      | .error error => { s with commits := commits.rejectPendingCommit txHash error }
      | .ok pool =>
        { s with
          pool, commits
          accepted := s.accepted ++
            [(s.commits.nextId, { txHash, encodedTx := encodedCompleteTransaction })] }

/-- `processTransactions` up to the `await` of the append. -/
def prepare (canValidate : Bool) : Pipeline :=
  if !canValidate || s.pool.txPool.length = 0 then s
  else
    let (batch, pool) := s.pool.prepareBatch
    { s with pool, appending := some batch, batches := s.batches ++ [batch] }

/-- One promise after another is resolved or rejected. -/
def settleBatch (batch : List PoolItem) (outcome : PoolItem → CommitSettlement) : Pipeline :=
  { s with
    commits := s.commits.settleEach (batch.map fun item => (item.txHash, outcome item))
    appending := none }

/-- The scheduler does not run the worker before its last run is done. -/
def step : PipelineEvent → Option Pipeline
  | .dispatch tx encodedCompleteTransaction =>
    some (s.dispatchTransaction txPoolSize tx encodedCompleteTransaction)
  | .work canValidate => do
    guard (s.appending = none)
    return s.prepare canValidate
  | .appended length snapshot timestamp => do
    let batch ← s.appending
    let receipts := appendWithProofOfPublication length snapshot timestamp
      (batch.map PoolItem.encodedTx) (batch.map PoolItem.txHash)
    return s.settleBatch batch (PoolItem.outcome receipts)
  | .appendFailed => do
    return s.settleBatch (← s.appending) fun _ => .rejected .appendFailed
  | .timeout timer => do
    return { s with commits := ← s.commits.fire (.rejected .timeout) timer }

end Pipeline

end SettlementBus
