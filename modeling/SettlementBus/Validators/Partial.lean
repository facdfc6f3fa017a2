import SettlementBus.Messages.Builder
import SettlementBus.State.Common

/-! `PartialOperationValidator.js`: what a validator checks of an operation before it completes
it. -/

namespace SettlementBus

open Lib

inductive ResultCode
  | txInvalidPayload
  | schemaValidationFailed
  | operationTypeUnknown
  | requesterAddressInvalid
  | requesterPublicKeyInvalid
  | txHashMismatch
  | txSignatureInvalid
  | txExpired
  | txAlreadyExists
  | operationAlreadyCompleted
  | requesterNotFound
  | insufficientFeeBalance
  | externalBootstrapEqualsMsbBootstrap
  | selfValidationForbidden
  | roleNodeEntryNotFound
  | roleNodeAlreadyWriter
  | roleNodeNotWhitelisted
  | roleNodeNotWriter
  | roleNodeIsIndexer
  | roleAdminEntryMissing
  | roleInvalidRecoveryCase
  | roleUnknownOperation
  | roleInvalidWriterKey
  | roleInsufficientFeeBalance
  | msbBootstrapMismatch
  | externalBootstrapNotDeployed
  | externalBootstrapTxMissing
  | externalBootstrapMismatch
  | bootstrapAlreadyExists
  | transferRecipientAddressInvalid
  | transferRecipientPublicKeyInvalid
  | transferAmountTooLarge
  | transferSenderNotFound
  | transferInsufficientBalance
  | transferRecipientBalanceOverflow
  deriving DecidableEq, Repr

/-- A `V1ProtocolError` with its result code, or another exception. -/
inductive Rejection
  | code : ResultCode → Rejection
  | typeError
  deriving DecidableEq, Repr

/-- The methods of `State.js` above `#apply` read the signed view, the view and the base. -/
structure LocalState where
  signed : View
  view : View
  base : Base

namespace LocalState

variable (env : Env) (state : LocalState)

def getSigned (key : EntryKey) : Option Buffer := state.signed.get key

def get (key : EntryKey) : Option Buffer := state.view.get key

def getNodeEntry (address : Str) : Option DecodedNodeEntry :=
  (state.getSigned (.account address)).bind NodeEntry.decode

def getNodeEntryUnsigned (address : Str) : Option DecodedNodeEntry :=
  (state.get (.account address)).bind NodeEntry.decode

def getAdminEntry : Option DecodedAdminEntry :=
  (state.getSigned .admin).bind (AdminEntry.decode env)

def getRegisteredBootstrapEntry (bootstrap : Buffer) : Option Buffer :=
  state.getSigned (.deployment bootstrap)

def getRegisteredBootstrapEntryUnsigned (bootstrap : Buffer) : Option Buffer :=
  state.get (.deployment bootstrap)

/-- `addressToBuffer` of a buffer returns a copy of a valid address. -/
def getRegisteredWriterKey (writingKey : Buffer) : Option Buffer :=
  (state.get (.writerAddress writingKey)).map fun entry =>
    if isAddressBufferValid env entry then entry else nullBuffer

def getIndexerSequenceState : Buffer := env.crypto.blake3Safe state.base.indexers.flatten

end LocalState

/-- `bs`, which deployments and transactions have. -/
def PartialBody.bs : PartialBody → Option Buffer
  | bdo o => some o.bs
  | txo o => some o.bs
  | _ => none

structure PartialPayload where
  type : OperationType
  address : Buffer
  body : PartialBody
  completion : Option (Completion Buffer)

variable (env : Env) (state : LocalState) (selfAddress : Option Str)

def isPayloadSchemaValid (op : Operation) : Except Rejection PartialPayload := do
  require (.code .txInvalidPayload) (op.type ≠ 0)
  let type ← orExit (.code .operationTypeUnknown) (OperationType.ofCode op.type)
  match type with
  | .addWriter | .removeWriter | .adminRecovery =>
    let (address, o, c) ← orExit (.code .schemaValidationFailed)
      (Check.validateRoleAccessOperation env op)
    return { type, address, body := .rao o, completion := c }
  | .bootstrapDeployment =>
    let (address, o, c) ← orExit (.code .schemaValidationFailed)
      (Check.validateBootstrapDeploymentOperation env op)
    return { type, address, body := .bdo o, completion := c }
  | .tx =>
    let (address, o, c) ← orExit (.code .schemaValidationFailed)
      (Check.validateTransactionOperation env op)
    return { type, address, body := .txo o, completion := c }
  | .transfer =>
    let (address, o, c) ← orExit (.code .schemaValidationFailed)
      (Check.validateTransferOperation env op)
    return { type, address, body := .tro o, completion := c }
  | _ => throw (.code .operationTypeUnknown)

/-- A node does not validate its own operations. -/
def validateNoSelfValidation (payload : PartialPayload) : Except Rejection Unit :=
  require (.code .selfValidationForbidden)
    (selfAddress = none ∨ selfAddress ≠ bufferToAddress env payload.address)

def publicKeyLength : ℕ := 32

def validateRequesterAddress (payload : PartialPayload) : Except Rejection Str := do
  let incomingAddress ← orExit (.code .requesterAddressInvalid)
    (bufferToAddress env payload.address)
  require (.code .requesterPublicKeyInvalid)
    ((env.crypto.decodeSafe incomingAddress).length = publicKeyLength)
  return incomingAddress

def validateTransactionUniqueness (payload : PartialPayload) : Except Rejection Unit :=
  require (.code .txAlreadyExists) (state.get (.record payload.body.tx) = none)

def messageComponents (payload : PartialPayload) : List MessagePart :=
  match payload.body with
  | .rao o => [.number env.config.networkId, .buffer o.txv, .buffer o.iw, .buffer o.in_,
      .number payload.type.code]
  | .bdo o => [.number env.config.networkId, .buffer o.txv, .buffer o.bs, .buffer o.ic,
      .buffer o.in_, .number OperationType.bootstrapDeployment.code]
  | .txo o => [.number env.config.networkId, .buffer o.txv, .buffer o.iw, .buffer o.ch,
      .buffer o.bs, .buffer o.mbs, .buffer o.in_, .number OperationType.tx.code]
  | .tro o => [.number env.config.networkId, .buffer o.txv, .buffer o.to_, .buffer o.am,
      .buffer o.in_, .number OperationType.transfer.code]

/-- The message is never empty, and there `blake3` and `blake3Safe` agree. -/
def validateSignature (payload : PartialPayload) (incomingAddress : Str) :
    Except Rejection Unit := do
  let messageHash := env.crypto.blake3Safe (createMessage (messageComponents env payload))
  require (.code .txHashMismatch) (payload.body.tx = messageHash)
  require (.code .txSignatureInvalid)
    (env.crypto.verify payload.body.is messageHash (env.crypto.decodeSafe incomingAddress))

def validateTransactionValidity (payload : PartialPayload) : Except Rejection Unit :=
  require (.code .txExpired) (state.getIndexerSequenceState env = payload.body.txv)

def isOperationNotCompleted (payload : PartialPayload) : Except Rejection Unit :=
  require (.code .operationAlreadyCompleted) (payload.completion = none)

/-- The checks that all validators make first. They pass on the payload and the requester's
address. -/
def validateCommon (op : Operation) : Except Rejection (PartialPayload × Str) := do
  let payload ← isPayloadSchemaValid env op
  validateNoSelfValidation env selfAddress payload
  let incomingAddress ← validateRequesterAddress env payload
  validateTransactionUniqueness state payload
  validateSignature env payload incomingAddress
  validateTransactionValidity env state payload
  isOperationNotCompleted payload
  return (payload, incomingAddress)

def feeBigInt : ℕ := Bytes.toNat fee

/-- The requester has an entry whose balance is at least `required`. -/
def requireBalance (requesterEntry : Option DecodedNodeEntry) (required : ℕ)
    (insufficient : ResultCode) : Except Rejection Unit := do
  let requesterEntry ← orExit (.code .requesterNotFound) requesterEntry
  require (.code insufficient) (required ≤ Bytes.toNat requesterEntry.balance)

def validateRequesterBalance (requesterAddress : Str) (signed : Bool) : Except Rejection Unit :=
  requireBalance (if signed then state.getNodeEntry requesterAddress
    else state.getNodeEntryUnsigned requesterAddress) feeBigInt .insufficientFeeBalance

/-- Only deployments and transactions have `bs`. -/
def validateSubnetworkBootstrapEquality (payload : PartialPayload) : Except Rejection Unit := do
  let bs ← orExit .typeError payload.body.bs
  require (.code .externalBootstrapEqualsMsbBootstrap) (env.config.bootstrap ≠ bs)

end SettlementBus
