import SettlementBus.Validators.Partial

/-! `PartialBootstrapDeploymentValidator.js`, `PartialTransactionValidator.js` and
`PartialTransferValidator.js`. -/

namespace SettlementBus

open Lib

variable (env : Env) (state : LocalState) (selfAddress : Option Str)

namespace PartialBootstrapDeployment

def validateBootstrapRegistration (payload : PartialPayload) : Except Rejection Unit :=
  match payload.body with
  | .bdo o => require (.code .bootstrapAlreadyExists)
      (state.getRegisteredBootstrapEntryUnsigned o.bs = none)
  | _ => throw .typeError

def validate (op : Operation) : Except Rejection PartialPayload := do
  let (payload, address) ← validateCommon env state selfAddress op
  validateRequesterBalance state address false
  validateRequesterBalance state address true
  validateSubnetworkBootstrapEquality env payload
  validateBootstrapRegistration state payload
  return payload

end PartialBootstrapDeployment

namespace PartialTransaction

def validateMsbBootstrap (o : TxOperation Buffer) : Except Rejection Unit :=
  require (.code .msbBootstrapMismatch) (env.config.bootstrap = o.mbs)

/-- `bdo.bs` of the operation recorded for a deployment. Reading it off `null` throws. -/
def deployedBootstrap (record : Buffer) : Option Buffer :=
  match (env.safeDecodeApplyOperation record).bind Operation.value with
  | some (.bdo o _) => o.bs.bytes?
  | _ => none

def validateIfExternalBootstrapHasBeenDeployed (bs : Buffer) : Except Rejection Unit := do
  let externalBootstrapResult ← orExit (.code .externalBootstrapNotDeployed)
    (state.getRegisteredBootstrapEntry bs)
  let decodedPayload ← orExit .typeError
    (DeploymentEntry.decode externalBootstrapResult env.config.addressLength)
  let getBootstrapTransactionTxPayload ← orExit (.code .externalBootstrapTxMissing)
    (state.get (.record decodedPayload.txHash))
  let deployed ← orExit .typeError (deployedBootstrap env getBootstrapTransactionTxPayload)
  require (.code .externalBootstrapMismatch) (deployed = bs)

def txo (payload : PartialPayload) : Except Rejection (TxOperation Buffer) :=
  match payload.body with
  | .txo o => pure o
  | _ => throw .typeError

def validate (op : Operation) : Except Rejection PartialPayload := do
  let (payload, address) ← validateCommon env state selfAddress op
  validateRequesterBalance state address false
  validateRequesterBalance state address true
  validateSubnetworkBootstrapEquality env payload
  let o ← txo payload
  validateMsbBootstrap env o
  validateIfExternalBootstrapHasBeenDeployed env state o.bs
  return payload

end PartialTransaction

namespace PartialTransfer

def maxAmount : ℕ := 2 ^ 128 - 1

def validateRecipientAddress (o : TransferOperation Buffer) : Except Rejection Str := do
  let incomingAddress ← orExit (.code .transferRecipientAddressInvalid)
    (bufferToAddress env o.to_)
  require (.code .transferRecipientPublicKeyInvalid)
    (env.crypto.decodeSafe incomingAddress ≠ nullBuffer)
  return incomingAddress

def validateStateBalances (senderAddress recipientAddress : Str) (o : TransferOperation Buffer) :
    Except Rejection Unit := do
  let transferAmount := Bytes.toNat o.am
  require (.code .transferAmountTooLarge) (transferAmount ≤ maxAmount)
  let isSelfTransfer := senderAddress = recipientAddress
  let totalDeductedAmount := if isSelfTransfer then feeBigInt else transferAmount + feeBigInt
  let senderEntry ← orExit (.code .transferSenderNotFound)
    (state.getNodeEntryUnsigned senderAddress)
  require (.code .transferInsufficientBalance)
    (totalDeductedAmount ≤ Bytes.toNat senderEntry.balance)
  require (.code .transferRecipientBalanceOverflow) (¬isSelfTransfer →
    ∀ recipientEntry ∈ state.getNodeEntryUnsigned recipientAddress,
      Bytes.toNat recipientEntry.balance + transferAmount ≤ maxAmount)

def tro (payload : PartialPayload) : Except Rejection (TransferOperation Buffer) :=
  match payload.body with
  | .tro o => pure o
  | _ => throw .typeError

def validate (op : Operation) : Except Rejection PartialPayload := do
  let (payload, address) ← validateCommon env state selfAddress op
  let o ← tro payload
  let recipientAddress ← validateRecipientAddress env o
  validateStateBalances state address recipientAddress o
  return payload

end PartialTransfer

end SettlementBus
