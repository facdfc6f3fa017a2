import SettlementBus.State.Handlers.Admin
import SettlementBus.State.Handlers.Value

/-! `#apply`: the batch, its handlers and the penalty of its author. -/

namespace SettlementBus

open Lib

variable (env : Env)

/-- The stake of a penalized validator that is left. -/
def deductedStakedBalance (stakedBalance penalty : Balance) : Option Balance :=
  if penalty.greaterThanOrEquals stakedBalance then some balanceZero else stakedBalance.sub penalty

/-- What is left of the stake goes to the balance. -/
def releasedEntry (entryBuffer : Buffer) (entry : DecodedNodeEntry) (deducted : Balance) :
    Option Buffer :=
  if deducted.greaterThan balanceZero then do
    let currentBalance ← toBalance entry.balance
    let newBalance ← currentBalance.add deducted
    newBalance.update entryBuffer
  else some entryBuffer

/-- The entry of a penalized validator. -/
def penalizedEntry (entryBuffer : Buffer) (invalidOperations : ℕ) : Option Buffer := do
  let entry ← NodeEntry.decode entryBuffer
  let stakedBalance ← toBalance entry.stakedBalance
  let penalty ← balanceFee.mul (toTerm invalidOperations)
  let deducted ← deductedStakedBalance stakedBalance penalty
  let updated ← releasedEntry entryBuffer entry deducted
  let updated ← NodeEntry.setStakedBalance updated balanceZero.value
  NodeEntry.setRole updated NodeRole.whitelisted.byte

/-- A `failure` here is an early return: nothing has been written. -/
def validatorPenaltyApply (writingKey : Buffer) (invalidOperations : ℕ) : Apply Unit := do
  let adminEntry ← orExit .failure ((← getEntryApply .admin).bind (AdminEntry.decode env))
  require .failure (adminEntry.wk ≠ writingKey)
  let validatorAddress ← orExit .failure (← getEntryApply (.writerAddress writingKey))
  let validator ← party env validatorAddress
  let validatorNodeEntry ← orExit .failure (← getEntryApply (.account validator.address))
  let downgradedNodeEntry ← orExit .failure (penalizedEntry validatorNodeEntry invalidOperations)
  baseRemoveWriter writingKey
  put (.account validator.address) downgradedNodeEntry

def handler : OperationType → Operation → Node → Apply Unit
  | .balanceInitialization => handleApplyInitializeBalanceOperation env
  | .disableInitialization => handleApplyDisableBalanceInitializationOperation env
  | .addAdmin => handleApplyAddAdminOperation env
  | .appendWhitelist => handleApplyAppendWhitelistOperation env
  | .addWriter => handleApplyAddWriterOperation env
  | .removeWriter => handleApplyRemoveWriterOperation env
  | .adminRecovery => handleApplyAdminRecoveryOperation env
  | .addIndexer => handleApplyAddIndexerOperation env
  | .removeIndexer => handleApplyRemoveIndexerOperation env
  | .banValidator => handleApplyBanValidatorOperation env
  | .bootstrapDeployment => handleApplyBootstrapDeploymentOperation env
  | .tx => handleApplyTxOperation env
  | .transfer => handleApplyTransferOperation env

/-- The status a handler returns, or `none` when it throws. -/
def runHandler (x : Apply Unit) (w : World) : Option (Status × World) :=
  match x.exec w with
  | (.ok _, w') => some (.success, w')
  | (.error .failure, w') => some (.failure, w')
  | (.error .ignore, w') => some (.ignore, w')
  | (.error .thrown, _) => none

/-- The operation of a node that has a handler. -/
def decodeNode (node : Node) : Option (OperationType × Operation) :=
  if maximumOperationPayloadSize < node.value.length then none
  else do
    let op ← env.safeDecodeApplyOperation node.value
    let type ← OperationType.ofCode op.type
    return (type, op)

def applyNode (node : Node) (w : World) : Option (Status × World) :=
  match decodeNode env node with
  | some (type, op) => runHandler (handler env type op node) w
  | none => some (.failure, w)

/-- Applies the nodes in order and counts the invalid ones. -/
def applyNodes : List Node → World → Option (ℕ × World)
  | [], w => some (0, w)
  | node :: nodes, w => do
    let (status, w) ← applyNode env node w
    let (invalidOperations, w) ← applyNodes nodes w
    return ((if status = .failure then 1 else 0) + invalidOperations, w)

def penalize (writingKey : Buffer) (invalidOperations : ℕ) (w : World) : World :=
  ((validatorPenaltyApply env writingKey invalidOperations).exec w).2

/-- `none` is an exception: the batch is not flushed. -/
def apply : List Node → World → Option World
  | [], _ => none
  | first :: nodes, w =>
    if batchSize < (first :: nodes).length then some (penalize env first.key batchSize w)
    else do
      let (invalidOperations, w) ← applyNodes env (first :: nodes) w
      return if 0 < invalidOperations then penalize env first.key invalidOperations w else w

/-- Before the first block the view is empty and the bootstrap key is the sole indexer. -/
def genesis : World where
  view := ∅
  base := { writers := [env.config.bootstrap], indexers := [env.config.bootstrap] }

inductive Reachable : World → Prop
  | genesis : Reachable (genesis env)
  | apply {w w' : World} {nodes : List Node} :
      Reachable w → apply env nodes w = some w' → Reachable w'

end SettlementBus
