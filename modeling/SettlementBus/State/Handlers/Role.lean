import SettlementBus.State.Common

/-! Role access: the operations a validator completes. -/

namespace SettlementBus

open Lib

variable (env : Env)

/-- A completed operation whose two signatures were verified. -/
structure Signed (α : Type) where
  address : Buffer
  body : α
  completion : Completion Buffer
  requester : Party
  validator : Party

def roleAccessMessage (type : OperationType) (o : RoleAccessOperation Buffer) : List MessagePart :=
  [.number env.config.networkId, .buffer o.txv, .buffer o.iw, .buffer o.in_, .number type.code]

/-- The checks of the three role access handlers before they read the state. Only `ADD_WRITER`
looks for the zero key, which the schema refuses as well. -/
def verifyRoleAccess (type : OperationType) (op : Operation) :
    Except Exit (Signed (RoleAccessOperation Buffer)) := do
  let (address, o, c) ← orExit .failure (Check.validateRoleAccessOperation env op)
  let c ← orExit .failure c
  distinctSigners address o.in_ o.is c
  let requester ← party env address
  require .failure (type = .addWriter → o.iw ≠ zeroWk)
  verifyRequester env (roleAccessMessage env type o) o.tx o.is requester.publicKey
  let validator ← verifyValidator env type o.tx c
  return { address, body := o, completion := c, requester, validator }

def handleApplyAdminRecoveryOperation (op : Operation) (node : Node) : Apply Unit := do
  let { address, body := o, requester, validator, .. } ← verifyRoleAccess env .adminRecovery op
  require .failure ((← getEntryApply (.writerAddress o.iw)) = none)
  verifyValidity env o.txv
  let validatorEntryBuffer ← validatorEntryApply validator node
  let adminEntry ← orExit .failure ((← getEntryApply .admin).bind (AdminEntry.decode env))
  require .failure
    (requester.publicKey = adminEntry.address.elim nullBuffer env.crypto.decodeSafe)
  requireNotApplied .failure o.tx
  require .failure (isWriterKeyInIndexerListApply adminEntry.wk (← get).base)
  let newAdminEntry := AdminEntry.encode env address o.iw
  require .failure (newAdminEntry.length ≠ 0)
  let adminNodeEntry ← getEntryApply (.account requester.address)
  let newAdminNodeEntry := adminNodeEntry.bind (NodeEntry.setWritingKey · o.iw)
  require .failure (!isWriterKeyInIndexerListApply o.iw (← get).base)
  let newAdminNodeEntry ← orExit .failure newAdminNodeEntry
  let chargedAdminEntry ← chargeFee newAdminNodeEntry .ignore
  let validatorEntryBuffer ← orExit .failure validatorEntryBuffer
  let updatedValidatorNodeEntry ← rewardFee validatorEntryBuffer percent75
  baseRemoveWriter adminEntry.wk
  baseAddWriter o.iw true
  put (.writerAddress o.iw) address
  put .admin newAdminEntry
  put (.account requester.address) chargedAdminEntry
  put (.account validator.address) updatedValidatorNodeEntry
  put (.record o.tx) node.value

/-- The registry gets a key that is not in it. -/
def registerWriterKey (writerKeyHasBeenRegistered : Option Buffer) (wk address : Buffer) :
    Apply Unit :=
  if writerKeyHasBeenRegistered = none then put (.writerAddress wk) address else pure ()

/-- `#addWriter` -/
def addWriter (o : RoleAccessOperation Buffer) (node : Node) (requester : Str) (address : Buffer)
    (validator : Str) (validatorEntryBuffer : Option Buffer) : Apply Unit := do
  let requesterNodeEntry ← orExit .failure (← getEntryApply (.account requester))
  let decodedRequesterNodeEntry ← orExit .failure (NodeEntry.decode requesterNodeEntry)
  -- A registered key must be the one the entry holds and must belong to the requester.
  let writerKeyHasBeenRegistered ← getEntryApply (.writerAddress o.iw)
  require .failure (writerKeyHasBeenRegistered = none ∨
    decodedRequesterNodeEntry.wk = o.iw ∧ writerKeyHasBeenRegistered = some address)
  require .failure (!(decodedRequesterNodeEntry.isIndexer || decodedRequesterNodeEntry.isWriter ||
    !decodedRequesterNodeEntry.isWhitelisted))
  let requesterBalance ← orExit .failure (toBalance decodedRequesterNodeEntry.balance)
  require .ignore (requesterBalance.greaterThanOrEquals balanceFee)
  let updatedBalance ← orExit .failure (requesterBalance.sub balanceFee)
  let updatedRoleRequesterNodeEntry ← orExit .failure
    (NodeEntry.setRoleAndWriterKey requesterNodeEntry NodeRole.writer.byte o.iw)
  let chargedFeeRequesterNodeEntry ← orExit .failure
    (updatedBalance.update updatedRoleRequesterNodeEntry)
  let validatorEntryBuffer ← orExit .failure validatorEntryBuffer
  let updatedValidatorEntry ← rewardFee validatorEntryBuffer percent75
  let finalRequesterNodeEntry ← orExit .failure (stakeBalanceApply chargedFeeRequesterNodeEntry)
  baseAddWriter o.iw false
  put (.account requester) finalRequesterNodeEntry
  registerWriterKey writerKeyHasBeenRegistered o.iw address
  updateWritersIndex address
  put (.account validator) updatedValidatorEntry
  put (.record o.tx) node.value

def handleApplyAddWriterOperation (op : Operation) (node : Node) : Apply Unit := do
  let { address, body := o, requester, validator, .. } ← verifyRoleAccess env .addWriter op
  verifyValidity env o.txv
  let validatorEntryBuffer ← validatorEntryApply validator node
  requireNotApplied .ignore o.tx
  addWriter o node requester.address address validator.address validatorEntryBuffer

/-- `#removeWriter` -/
def removeWriter (o : RoleAccessOperation Buffer) (node : Node) (requester : Str)
    (address : Buffer) (validator : Str) (validatorEntryBuffer : Option Buffer) :
    Apply Unit := do
  let requesterNodeEntry ← orExit .failure (← getEntryApply (.account requester))
  let decodedNodeEntry ← orExit .failure (NodeEntry.decode requesterNodeEntry)
  require .failure (!(decodedNodeEntry.isIndexer || !decodedNodeEntry.isWriter))
  -- The key must be registered, be the one the entry holds and belong to the requester.
  let writerKeyHasBeenRegistered ← getEntryApply (.writerAddress o.iw)
  require .failure (o.iw = decodedNodeEntry.wk ∧ writerKeyHasBeenRegistered = some address)
  let requesterBalance ← orExit .failure (toBalance decodedNodeEntry.balance)
  require .ignore (requesterBalance.greaterThanOrEquals balanceFee)
  let updatedBalance ← orExit .failure (requesterBalance.sub balanceFee)
  let updatedNodeEntry ← orExit .failure
    (NodeEntry.setRole requesterNodeEntry NodeRole.whitelisted.byte)
  let chargedNodeEntry ← orExit .failure (updatedBalance.update updatedNodeEntry)
  let validatorEntryBuffer ← orExit .failure validatorEntryBuffer
  let updateValidatorEntry ← rewardFee validatorEntryBuffer percent75
  let finalRequesterNodeEntry ← orExit .failure (withdrawStakedBalanceApply chargedNodeEntry)
  baseRemoveWriter decodedNodeEntry.wk
  put (.account requester) finalRequesterNodeEntry
  put (.account validator) updateValidatorEntry
  put (.record o.tx) node.value

def handleApplyRemoveWriterOperation (op : Operation) (node : Node) : Apply Unit := do
  let { address, body := o, requester, validator, .. } ← verifyRoleAccess env .removeWriter op
  verifyValidity env o.txv
  let validatorEntryBuffer ← validatorEntryApply validator node
  requireNotApplied .ignore o.tx
  removeWriter o node requester.address address validator.address validatorEntryBuffer

end SettlementBus
