import SettlementBus.State.Handlers.Role

/-! Deployments, transactions of subnetworks and transfers. -/

namespace SettlementBus

open Lib

variable (env : Env)

def bootstrapDeploymentMessage (o : BootstrapDeploymentOperation Buffer) : List MessagePart :=
  [.number env.config.networkId, .buffer o.txv, .buffer o.bs, .buffer o.ic, .buffer o.in_,
    .number OperationType.bootstrapDeployment.code]

def verifyBootstrapDeployment (op : Operation) :
    Except Exit (Signed (BootstrapDeploymentOperation Buffer)) := do
  let (address, o, c) ← orExit .failure (Check.validateBootstrapDeploymentOperation env op)
  let c ← orExit .failure c
  require .failure (o.bs ≠ env.config.bootstrap)
  distinctSigners address o.in_ o.is c
  let requester ← party env address
  verifyRequester env (bootstrapDeploymentMessage env o) o.tx o.is requester.publicKey
  let validator ← verifyValidator env .bootstrapDeployment o.tx c
  return { address, body := o, completion := c, requester, validator }

def handleApplyBootstrapDeploymentOperation (op : Operation) (node : Node) : Apply Unit := do
  let { address, body := o, requester, validator, .. } ← verifyBootstrapDeployment env op
  verifyValidity env o.txv
  let validatorEntryBuffer ← validatorEntryApply validator node
  requireNotApplied .ignore o.tx
  require .ignore ((← getEntryApply (.deployment o.bs)) = none)
  let deploymentEntry := DeploymentEntry.encode env o.tx address
  require .failure (deploymentEntry.length ≠ 0)
  let requesterNodeEntry ← orExit .failure (← getEntryApply (.account requester.address))
  let updatedRequesterNodeEntry ← chargeFee requesterNodeEntry .ignore
  let validatorEntryBuffer ← orExit .failure validatorEntryBuffer
  let updatedValidatorNodeEntry ← rewardFee validatorEntryBuffer percent75
  put (.deployment o.bs) deploymentEntry
  put (.account requester.address) updatedRequesterNodeEntry
  put (.account validator.address) updatedValidatorNodeEntry
  put (.record o.tx) node.value

def txMessage (o : TxOperation Buffer) : List MessagePart :=
  [.number env.config.networkId, .buffer o.txv, .buffer o.iw, .buffer o.ch, .buffer o.bs,
    .buffer env.config.bootstrap, .buffer o.in_, .number OperationType.tx.code]

def verifyTx (op : Operation) : Except Exit (Signed (TxOperation Buffer)) := do
  let (address, o, c) ← orExit .failure (Check.validateTransactionOperation env op)
  let c ← orExit .failure c
  distinctSigners address o.in_ o.is c
  require .failure (o.bs ≠ o.mbs)
  require .failure (o.mbs = env.config.bootstrap)
  let requester ← party env address
  verifyRequester env (txMessage env o) o.tx o.is requester.publicKey
  let validator ← verifyValidator env .tx o.tx c
  return { address, body := o, completion := c, requester, validator }

structure TransferFeeTxResult where
  requesterEntry : Buffer
  validatorEntry : Buffer
  subnetworkCreatorEntry : Option Buffer

/-- The validator gets 50% of the fee, the creator of the subnetwork 25% unless it is the
requester. The rest is burned. -/
def transferFeeTxOperation (requester validator : Str) (validatorEntryBuffer : Option Buffer)
    (subnetworkCreator : Str) : Apply TransferFeeTxResult := do
  let validatorEntryBuffer ← orExit .failure validatorEntryBuffer
  let requesterNodeEntry ← orExit .failure (← getEntryApply (.account requester))
  let requesterEntry ← chargeFee requesterNodeEntry .ignore
  let validatorEntry ← rewardFee validatorEntryBuffer percent50
  if requester = subnetworkCreator then
    return { requesterEntry, validatorEntry, subnetworkCreatorEntry := none }
  else if validator = subnetworkCreator then
    -- `update` has already written the new balance to the validator's entry.
    let validatorEntry ← rewardFee validatorEntry percent25
    return { requesterEntry, validatorEntry, subnetworkCreatorEntry := none }
  else
    let subnetworkCreatorNodeEntry ← orExit .failure
      (← getEntryApply (.account subnetworkCreator))
    let subnetworkCreatorEntry ← rewardFee subnetworkCreatorNodeEntry percent25
    return { requesterEntry, validatorEntry, subnetworkCreatorEntry }

def putEntry (address : Str) : Option Buffer → Apply Unit
  | some entry => put (.account address) entry
  | none => pure ()

def handleApplyTxOperation (op : Operation) (node : Node) : Apply Unit := do
  let { body := o, requester, validator, .. } ← verifyTx env op
  verifyValidity env o.txv
  let validatorEntryBuffer ← validatorEntryApply validator node
  requireNotApplied .ignore o.tx
  let bootstrapHasBeenRegistered ← orExit .failure (← getEntryApply (.deployment o.bs))
  let deploymentEntry ← orExit .failure
    (DeploymentEntry.decode bootstrapHasBeenRegistered env.config.addressLength)
  let subnetworkCreator ← orExit .failure (bufferToAddress env deploymentEntry.address)
  let result ← transferFeeTxOperation requester.address validator.address validatorEntryBuffer
    subnetworkCreator
  put (.account requester.address) result.requesterEntry
  put (.account validator.address) result.validatorEntry
  putEntry subnetworkCreator result.subnetworkCreatorEntry
  put (.record o.tx) node.value

def transferMessage (o : TransferOperation Buffer) : List MessagePart :=
  [.number env.config.networkId, .buffer o.txv, .buffer o.to_, .buffer o.am, .buffer o.in_,
    .number OperationType.transfer.code]

def verifyTransfer (op : Operation) : Except Exit (Signed (TransferOperation Buffer)) := do
  let (address, o, c) ← orExit .failure (Check.validateTransferOperation env op)
  let c ← orExit .failure c
  distinctSigners address o.in_ o.is c
  let requester ← party env address
  verifyRequester env (transferMessage env o) o.tx o.is requester.publicKey
  let validator ← verifyValidator env .transfer o.tx c
  return { address, body := o, completion := c, requester, validator }

/-- The recipient's entry with the amount added, or a new reader that holds it. -/
def creditedEntry (transferAmount : Balance) : Option Buffer → Except Exit Buffer
  | none => do
    let newRecipientEntry := NodeEntry.init zeroWk NodeRole.reader.byte transferAmount.value
      zeroLicense zeroBalance
    require .failure (newRecipientEntry.length ≠ 0)
    return newRecipientEntry
  | some recipientEntryBuffer => do
    let recipientEntry ← orExit .failure (NodeEntry.decode recipientEntryBuffer)
    let recipientBalance ← orExit .failure (toBalance recipientEntry.balance)
    let newRecipientBalance ← orExit .failure (recipientBalance.add transferAmount)
    orExit .failure (newRecipientBalance.update recipientEntryBuffer)

/-- Only a recipient that is neither sender nor validator is credited on its own. -/
def otherRecipientEntry (transferAmount : Balance) (recipientEntryBuffer : Option Buffer)
    (isOther : Bool) : Except Exit (Option Buffer) :=
  if isOther then some <$> creditedEntry transferAmount recipientEntryBuffer else pure none

/-- `validatorBalance.add(transferAmount).add(validatorReward)` when the validator is the
recipient: an overflow of the first sum is `null`, whose `add` throws. -/
def rewardedBalance (validatorBalance transferAmount validatorReward : Balance)
    (isRecipientValidator : Bool) : Except Exit Balance :=
  if isRecipientValidator then do
    let sum ← orExit .thrown (validatorBalance.add transferAmount)
    orExit .failure (sum.add validatorReward)
  else orExit .failure (validatorBalance.add validatorReward)

structure TransferResult where
  senderEntry : Buffer
  recipientEntry : Option Buffer
  validatorEntry : Buffer

def transfer (sender recipient : Str) (validatorEntryBuffer : Option Buffer) (amount : Buffer)
    (isSelfTransfer isRecipientValidator : Bool) : Apply TransferResult := do
  let validatorEntryBuffer ← orExit .failure validatorEntryBuffer
  let transferAmount ← orExit .failure (toBalance amount)
  let totalDeductedAmount ← orExit .failure
    (if isSelfTransfer then some balanceFee else transferAmount.add balanceFee)
  let senderEntryBuffer ← orExit .failure (← getEntryApply (.account sender))
  let senderEntry ← orExit .failure (NodeEntry.decode senderEntryBuffer)
  let senderBalance ← orExit .failure (toBalance senderEntry.balance)
  require .ignore (senderBalance.greaterThanOrEquals totalDeductedAmount)
  let newSenderBalance ← orExit .failure (senderBalance.sub totalDeductedAmount)
  let updatedSenderEntry ← orExit .failure (newSenderBalance.update senderEntryBuffer)
  let recipientEntryBuffer ← getEntryApply (.account recipient)
  let recipientEntry ← otherRecipientEntry transferAmount recipientEntryBuffer
    (!isSelfTransfer && !isRecipientValidator)
  let validatorEntry ← orExit .failure (NodeEntry.decode validatorEntryBuffer)
  let validatorBalance ← orExit .failure (toBalance validatorEntry.balance)
  let validatorReward ← orExit .failure (balanceFee.percentage percent75)
  let newValidatorBalance ← rewardedBalance validatorBalance transferAmount validatorReward
    isRecipientValidator
  let updatedValidatorEntry ← orExit .failure (newValidatorBalance.update validatorEntryBuffer)
  return {
    senderEntry := updatedSenderEntry
    recipientEntry := if isRecipientValidator then some updatedValidatorEntry else recipientEntry
    validatorEntry := updatedValidatorEntry }

def putRecipient (recipient : Str) (result : TransferResult) (isSelfTransfer : Bool) :
    Apply Unit :=
  if !isSelfTransfer then do
    let recipientEntry ← orExit .failure result.recipientEntry
    put (.account recipient) recipientEntry
  else pure ()

def putRecipientAgain (recipient : Str) (result : TransferResult)
    (isSelfTransfer isRecipientValidator : Bool) : Apply Unit :=
  if !isSelfTransfer && !isRecipientValidator then putEntry recipient result.recipientEntry
  else pure ()

def isSelfTransfer (address : Buffer) (o : TransferOperation Buffer) : Bool := address = o.to_

def isRecipientValidator (o : TransferOperation Buffer) (c : Completion Buffer) : Bool :=
  o.to_ = c.va

def handleApplyTransferOperation (op : Operation) (node : Node) : Apply Unit := do
  let { address, body := o, completion := c, requester, validator } ← verifyTransfer env op
  verifyValidity env o.txv
  let validatorEntryBuffer ← validatorEntryApply validator node
  requireNotApplied .ignore o.tx
  let recipient ← party env o.to_
  let isSelfTransfer := isSelfTransfer address o
  let isRecipientValidator := isRecipientValidator o c
  let result ← transfer requester.address recipient.address validatorEntryBuffer o.am
    isSelfTransfer isRecipientValidator
  putRecipient recipient.address result isSelfTransfer
  put (.account requester.address) result.senderEntry
  put (.account validator.address) result.validatorEntry
  putRecipientAgain recipient.address result isSelfTransfer isRecipientValidator
  put (.record o.tx) node.value

end SettlementBus
