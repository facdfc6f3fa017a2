import SettlementBus.State.Common

/-! The operations of the admin. -/

namespace SettlementBus

open Lib

variable (env : Env)

/-- The recipient's entry with its balance set to the amount. -/
def initializedEntry (amount : Balance) : Option Buffer → Except Exit Buffer
  | none => do
    let nodeEntry := NodeEntry.init zeroWk NodeRole.reader.byte amount.value zeroLicense zeroBalance
    require .failure (nodeEntry.length ≠ 0)
    return nodeEntry
  | some nodeEntry => orExit .failure (amount.update nodeEntry)

def handleApplyInitializeBalanceOperation (op : Operation) (node : Node) : Apply Unit := do
  let (address, o) ← orExit .failure (Check.validateBalanceInitialization env op)
  let requester ← party env address
  let recipient ← party env o.ia
  let amount ← orExit .failure (toBalance o.am)
  require .failure (!(← isApplyInitalizationDisabled))
  requireAdmin env node requester
  verifyRequester env [.number env.config.networkId, .buffer o.txv, .buffer o.ia,
    .buffer amount.value, .buffer o.in_, .number OperationType.balanceInitialization.code]
    o.tx o.is requester.publicKey
  verifyValidity env o.txv
  requireNotApplied .failure o.tx
  let nodeEntry ← initializedEntry amount (← getEntryApply (.account recipient.address))
  put (.account recipient.address) nodeEntry
  put (.record o.tx) node.value

def handleApplyDisableBalanceInitializationOperation (op : Operation) (node : Node) :
    Apply Unit := do
  let (address, o) ← orExit .failure (Check.validateCoreAdminOperation env op)
  require .failure (!(← isApplyInitalizationDisabled))
  let requester ← party env address
  requireAdmin env node requester
  verifyRequester env [.number env.config.networkId, .buffer o.txv, .buffer o.iw, .buffer o.in_,
    .number OperationType.disableInitialization.code] o.tx o.is requester.publicKey
  verifyValidity env o.txv
  requireNotApplied .failure o.tx
  put .initialization (safeWriteUInt32BE 0)
  put (.record o.tx) node.value

/-- Initializes the network. It succeeds once, and its author does not pay a fee. -/
def handleApplyAddAdminOperation (op : Operation) (node : Node) : Apply Unit := do
  let (address, o) ← orExit .failure (Check.validateCoreAdminOperation env op)
  let admin ← party env address
  require .failure (node.key = env.config.bootstrap ∧ o.iw = env.config.bootstrap)
  verifyRequester env [.number env.config.networkId, .buffer o.txv, .buffer o.iw, .buffer o.in_,
    .number OperationType.addAdmin.code] o.tx o.is admin.publicKey
  verifyValidity env o.txv
  require .failure ((← getEntryApply (.writerAddress o.iw)) = none)
  require .failure ((← getEntryApply .admin) = none)
  requireNotApplied .failure o.tx
  let newLicenseLength ← applyAssignNewLicense address
  let initializedNodeEntry := NodeEntry.init o.iw NodeRole.indexer.byte adminInitialBalance
    newLicenseLength adminInitialStakedBalance
  require .failure (initializedNodeEntry.length ≠ 0)
  let newAdminEntry := AdminEntry.encode env address o.iw
  require .failure (newAdminEntry.length ≠ 0)
  put (.account admin.address) initializedNodeEntry
  put (.writerAddress o.iw) address
  updateWritersIndex address
  put .admin newAdminEntry
  put .initialization (safeWriteUInt32BE 1)
  put (.record o.tx) node.value

def adminControlMessage (type : OperationType) (o : AdminControlOperation Buffer) :
    List MessagePart :=
  [.number env.config.networkId, .buffer o.txv, .buffer o.ia, .buffer o.in_, .number type.code]

/-- The entry of a whitelisted node. A license is assigned unless it already has one. -/
def whitelistedEntry (address : Buffer) : Option Buffer → Apply Buffer
  | none => do
    let newLicenseLength ← applyAssignNewLicense address
    let initializedNodeEntry := NodeEntry.init zeroWk NodeRole.whitelisted.byte zeroBalance
      newLicenseLength zeroBalance
    require .failure (initializedNodeEntry.length ≠ 0)
    return initializedNodeEntry
  | some nodeEntry => do
    let decodedNodeEntry ← orExit .failure (NodeEntry.decode nodeEntry)
    let editedNodeEntry ← orExit .failure (NodeEntry.setRole nodeEntry NodeRole.whitelisted.byte)
    if decodedNodeEntry.license ≠ zeroLicense then
      return editedNodeEntry
    else
      let newLicenseLength ← applyAssignNewLicense address
      orExit .thrown (NodeEntry.setLicense editedNodeEntry newLicenseLength)

/-- The fee of `APPEND_WHITELIST`, which the admin pays once the initialization is disabled. -/
def chargeWhitelistFee (requester : Str) (isInitalizationDisabled : Bool) : Apply Unit :=
  if isInitalizationDisabled then do
    let adminNodeEntry ← orExit .failure (← getEntryApply (.account requester))
    let updatedAdminEntry ← chargeFee adminNodeEntry .failure
    put (.account requester) updatedAdminEntry
  else pure ()

def handleApplyAppendWhitelistOperation (op : Operation) (node : Node) : Apply Unit := do
  let (address, o) ← orExit .failure (Check.validateAdminControlOperation env op)
  let requester ← party env address
  requireAdmin env node requester
  let target ← party env o.ia
  verifyRequester env (adminControlMessage env .appendWhitelist o) o.tx o.is requester.publicKey
  verifyValidity env o.txv
  requireNotApplied .failure o.tx
  let nodeEntry ← getEntryApply (.account target.address)
  require .failure (!nodeEntry.any NodeEntry.isWhitelisted)
  chargeWhitelistFee requester.address (← isApplyInitalizationDisabled)
  let updatedNodeEntry ← whitelistedEntry o.ia nodeEntry
  put (.account target.address) updatedNodeEntry
  put (.record o.tx) node.value

/-- `#addIndexer` -/
def addIndexer (tx : Buffer) (node : Node) (pretender requester : Str) : Apply Unit := do
  let pretenderNodeEntry ← orExit .failure (← getEntryApply (.account pretender))
  let decodedPretenderNodeEntry ← orExit .failure (NodeEntry.decode pretenderNodeEntry)
  require .failure
    (NodeEntry.isWriter pretenderNodeEntry && !NodeEntry.isIndexer pretenderNodeEntry)
  let updatedNodeEntry ← orExit .failure
    (NodeEntry.setRole pretenderNodeEntry NodeRole.indexer.byte)
  require .failure (!isWriterKeyInIndexerListApply decodedPretenderNodeEntry.wk (← get).base)
  let adminNodeEntry ← orExit .failure (← getEntryApply (.account requester))
  let updatedAdminNodeEntry ← chargeFee adminNodeEntry .failure
  baseRemoveWriter decodedPretenderNodeEntry.wk
  baseAddWriter decodedPretenderNodeEntry.wk true
  put (.account pretender) updatedNodeEntry
  put (.account requester) updatedAdminNodeEntry
  put (.record tx) node.value

def handleApplyAddIndexerOperation (op : Operation) (node : Node) : Apply Unit := do
  let (address, o) ← orExit .failure (Check.validateAdminControlOperation env op)
  let requester ← party env address
  let pretender ← party env o.ia
  requireAdmin env node requester
  verifyRequester env (adminControlMessage env .addIndexer o) o.tx o.is requester.publicKey
  verifyValidity env o.txv
  requireNotApplied .failure o.tx
  addIndexer o.tx node pretender.address requester.address

/-- `#removeIndexer` -/
def removeIndexer (tx : Buffer) (node : Node) (toRemove : Str) (toRemoveAddress : Buffer)
    (requester : Str) : Apply Unit := do
  let toRemoveNodeEntry ← orExit .failure (← getEntryApply (.account toRemove))
  let decodedNodeEntry ← orExit .failure (NodeEntry.decode toRemoveNodeEntry)
  require .failure (NodeEntry.isIndexer toRemoveNodeEntry)
  let updatedNodeEntry ← orExit .failure
    (NodeEntry.setRoleAndWriterKey toRemoveNodeEntry NodeRole.writer.byte decodedNodeEntry.wk)
  require .failure (isWriterKeyInIndexerListApply decodedNodeEntry.wk (← get).base)
  let adminNodeEntry ← orExit .failure (← getEntryApply (.account requester))
  let updatedAdminNodeEntry ← chargeFee adminNodeEntry .failure
  baseRemoveWriter decodedNodeEntry.wk
  baseAddWriter decodedNodeEntry.wk false
  updateWritersIndex toRemoveAddress
  put (.account toRemove) updatedNodeEntry
  put (.account requester) updatedAdminNodeEntry
  put (.record tx) node.value

def handleApplyRemoveIndexerOperation (op : Operation) (node : Node) : Apply Unit := do
  let (address, o) ← orExit .failure (Check.validateAdminControlOperation env op)
  let requester ← party env address
  let toRemove ← party env o.ia
  requireAdmin env node requester
  verifyRequester env (adminControlMessage env .removeIndexer o) o.tx o.is requester.publicKey
  verifyValidity env o.txv
  requireNotApplied .failure o.tx
  removeIndexer o.tx node toRemove.address o.ia requester.address

/-- A banned writer gets its stake back and leaves the base. -/
def putBanned (target : Str) (isWriter : Bool) (updatedToBanNodeEntry wk : Buffer) : Apply Unit :=
  if isWriter then do
    let finalNodeEntry ← orExit .failure (withdrawStakedBalanceApply updatedToBanNodeEntry)
    baseRemoveWriter wk
    put (.account target) finalNodeEntry
  else put (.account target) updatedToBanNodeEntry

def handleApplyBanValidatorOperation (op : Operation) (node : Node) : Apply Unit := do
  let (address, o) ← orExit .failure (Check.validateAdminControlOperation env op)
  let requester ← party env address
  requireAdmin env node requester
  verifyRequester env (adminControlMessage env .banValidator o) o.tx o.is requester.publicKey
  verifyValidity env o.txv
  requireNotApplied .failure o.tx
  -- The public key of the target is not decoded here.
  let target ← orExit .failure (bufferToAddress env o.ia)
  let toBanNodeEntry ← orExit .failure (← getEntryApply (.account target))
  let isWhitelisted := NodeEntry.isWhitelisted toBanNodeEntry
  let isWriter := NodeEntry.isWriter toBanNodeEntry
  let isIndexer := NodeEntry.isIndexer toBanNodeEntry
  require .failure (!((!isWhitelisted && !isWriter) || isIndexer))
  let updatedToBanNodeEntry ← orExit .failure
    (NodeEntry.setRole toBanNodeEntry NodeRole.reader.byte)
  let decodedToBanNodeEntry ← orExit .failure (NodeEntry.decode updatedToBanNodeEntry)
  let adminNodeEntry ← orExit .failure (← getEntryApply (.account requester.address))
  let updatedAdminNodeEntry ← chargeFee adminNodeEntry .failure
  putBanned target isWriter updatedToBanNodeEntry decodedToBanNodeEntry.wk
  put (.account requester.address) updatedAdminNodeEntry
  put (.record o.tx) node.value

end SettlementBus
