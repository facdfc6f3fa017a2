import SettlementBus.Messages.Encoding
import SettlementBus.Messages.Json
import SettlementBus.Messages.NetworkBuilder
import SettlementBus.Messages.Strategies
import SettlementBus.Network.BroadcastResponse
import SettlementBus.Network.Pool

/-! `V1BroadcastTransactionOperationHandler.js`: the requests that a validator works on, in any order
of their steps. -/

namespace SettlementBus

open Lib

def resultCodeTimeout : ℕ := 6

def resultCodeNodeHasNoWriteAccess : ℕ := 7

def resultCodeTxHashInvalidFormat : ℕ := 45

def resultCodeTxInvalidPayload : ℕ := 61

/-- The numbers of the codes that the validators of partial operations throw. -/
def ResultCode.code : ResultCode → ℕ
  | operationTypeUnknown => 11
  | schemaValidationFailed => 12
  | requesterAddressInvalid => 13
  | requesterPublicKeyInvalid => 14
  | txHashMismatch => 15
  | txSignatureInvalid => 16
  | txExpired => 17
  | txAlreadyExists => 18
  | operationAlreadyCompleted => 19
  | requesterNotFound => 20
  | insufficientFeeBalance => 21
  | externalBootstrapEqualsMsbBootstrap => 22
  | selfValidationForbidden => 23
  | roleNodeEntryNotFound => 24
  | roleNodeAlreadyWriter => 25
  | roleNodeNotWhitelisted => 26
  | roleNodeNotWriter => 27
  | roleNodeIsIndexer => 28
  | roleAdminEntryMissing => 29
  | roleInvalidRecoveryCase => 30
  | roleUnknownOperation => 31
  | roleInvalidWriterKey => 32
  | roleInsufficientFeeBalance => 33
  | msbBootstrapMismatch => 34
  | externalBootstrapNotDeployed => 35
  | externalBootstrapTxMissing => 36
  | externalBootstrapMismatch => 37
  | bootstrapAlreadyExists => 38
  | transferRecipientAddressInvalid => 39
  | transferRecipientPublicKeyInvalid => 40
  | transferAmountTooLarge => 41
  | transferSenderNotFound => 42
  | transferInsufficientBalance => 43
  | transferRecipientBalanceOverflow => 44
  | txInvalidPayload => 61

/-- The set of `connectionPolicies.js`, with the codes of the shared validators. -/
def validatorSideEndConnectionCodes : List ℕ :=
  [0, resultCodeInvalidPayload, resultCodeRateLimited, resultCodeSignatureInvalid,
    resultCodeUnexpectedError, resultCodeNodeHasNoWriteAccess, resultCodeNodeOverloaded] ++
    List.range' 11 34 ++ [resultCodeTxInvalidPayload]

def shouldEndConnection (resultCode : ℕ) : Bool := resultCode ∈ validatorSideEndConnectionCodes

/-! ### Errors -/

/-- A `V1ProtocolError`, with the time that it may carry, or another error. -/
inductive HandlerError
  | protocol (resultCode timestamp : ℕ)
  | other
  deriving DecidableEq

def RequestError.toHandlerError : RequestError → HandlerError
  | .protocol resultCode => .protocol resultCode 0
  | _ => .other

def Rejection.toHandlerError : Rejection → HandlerError
  | .code resultCode => .protocol resultCode.code 0
  | .typeError => .other

/-- `mapTransactionEnqueueError`: the errors of the queue have the code that they are mapped to. -/
def mapTransactionEnqueueError : CommitError → HandlerError
  | .enqueue resultCode => .protocol resultCode 0
  | _ => .other

/-- A `V1ProtocolError` stays as it is. -/
def mapPendingCommitResolutionError : CommitError → HandlerError
  | .proofUnavailable _ _ timestamp =>
    .protocol resultCodeTxAcceptedProofUnavailable
      (if timestamp ≤ maxSafeInteger then timestamp else 0)
  | .missingCommitReceipt => .protocol resultCodeTxCommittedReceiptMissing 0
  | .timeout => .protocol resultCodeTimeout 0
  | .enqueue resultCode => .protocol resultCode 0
  | .appendFailed | .cancelled => .other

/-- `#validateTxPoolAvailability`, which maps the error of the queue. -/
def validateTxPoolAvailability (pool : TransactionPoolService) (txPoolSize : ℕ) :
    Except HandlerError Unit :=
  match pool.validateEnqueue txPoolSize with
  | .error _ => .error (.protocol resultCodeNodeOverloaded 0)
  | .ok _ => .ok ()

/-- What `dispatchTransaction` throws before it awaits the pending commit. -/
def Pipeline.dispatchError (txPoolSize : ℕ) (s : Pipeline) (tx encodedTx : Buffer) :
    Option HandlerError :=
  match assertTxHash (toHex tx) with
  | none => some (.protocol resultCodeTxHashInvalidFormat 0)
  | some txHash =>
    if TransactionCommitService.transactionCommitServiceBufferSize ≤ s.commits.entries.length then
      some (.protocol resultCodeNodeOverloaded 0)
    else if s.commits.has txHash then some (.protocol resultCodeTxAlreadyPending 0)
    else
      match s.pool.addTransaction txPoolSize txHash encodedTx with
      | .error error => some (mapTransactionEnqueueError error)
      | .ok _ => none

/-! ### One request -/

/-- `V1BroadcastTransactionRequest.validate` -/
def BroadcastTransactionRequest.validate (env : Env) (payload : NetworkMessage)
    (signature remotePublicKey : Buffer) : Except RequestError Unit := do
  BroadcastTransactionResponse.orReject resultCodeInvalidPayload (payload.isSchemaValid signature)
  match payload.payload with
  | .broadcastTransactionRequest data _ =>
    BroadcastTransactionResponse.orReject resultCodeInvalidPayload
      (data.length ≤ maxPartialTxPayloadByteSize)
    BroadcastTransactionResponse.validateSignature env payload signature remotePublicKey
  | _ => throw (.protocol resultCodeUnexpectedError)

/-- What is answered to a request. -/
structure RequestOutcome where
  endConnection : Bool
  proof : Option Buffer
  resultCode : ℕ
  timestamp : ℕ
  deriving DecidableEq

def buildFailedRequestOutcome (error : HandlerError) : RequestOutcome :=
  let (resultCode, time) := match error with
    | .protocol resultCode time => (resultCode, time)
    | .other => (resultCodeUnexpectedError, 0)
  { endConnection := shouldEndConnection resultCode
    proof := none
    resultCode
    timestamp :=
      if resultCode = resultCodeTxAcceptedProofUnavailable ∧ time ≤ maxSafeInteger then time
      else 0 }

/-- What becomes of a request whose pending commit is settled. -/
def CommitSettlement.toOutcome : CommitSettlement → RequestOutcome
  | .resolved receipt =>
    { endConnection := false
      proof := receipt.proof
      resultCode := resultCodeOk
      timestamp := receipt.timestamp }
  | .rejected error => buildFailedRequestOutcome (mapPendingCommitResolutionError error)

/-- The types that have a strategy. -/
def operationStrategies : List OperationType :=
  [.addWriter, .removeWriter, .adminRecovery, .tx, .bootstrapDeployment, .transfer]

/-- The decoded and sanitized transaction of the data, with its type. -/
def decodeRequest (env : Env) (data : Buffer) : Except HandlerError (OperationType × Operation) :=
  match env.safeDecodeApplyOperation data with
  | none => .error (.protocol resultCodeUnexpectedError 0)
  | some decodedTransaction =>
    let decodedTransaction := sanitizeDecodedPartialTransaction decodedTransaction
    match OperationType.ofCode decodedTransaction.type with
    | none => .error (.protocol resultCodeTxInvalidPayload 0)
    | some type =>
      if type ∈ operationStrategies then .ok (type, decodedTransaction)
      else .error (.protocol resultCodeTxInvalidPayload 0)

/-- The `tx` under the payload key of the strategy. -/
def getTxHashFromDecodedTransaction (type : OperationType) (decodedTransaction : Operation) :
    Option Buffer :=
  match type, decodedTransaction.value with
  | .addWriter, some (.rao o _) | .removeWriter, some (.rao o _)
  | .adminRecovery, some (.rao o _) => o.tx.bytes?
  | .tx, some (.txo o _) => o.tx.bytes?
  | .bootstrapDeployment, some (.bdo o _) => o.tx.bytes?
  | .transfer, some (.tro o _) => o.tx.bytes?
  | _, _ => none

/-- The hash and the encoded complete operation, or the error, after the validator of the strategy
is done. -/
def buildTransaction (env : Env) (wallet : Wallet) (type : OperationType)
    (decodedTransaction : Operation) (rejection : Option Rejection) (nonce : Buffer) :
    Except HandlerError (Buffer × Buffer) :=
  match rejection with
  | some rejection => .error rejection.toHandlerError
  | none =>
    match buildCompleteOperation env wallet nonce decodedTransaction,
      getTxHashFromDecodedTransaction type decodedTransaction with
    | some complete, some tx => .ok (tx, encodeOperation (complete.toOperation CompleteBody.toBody))
    | _, _ => .error .other

/-- Where the handler of a request awaits. -/
inductive HandlerStage
  /-- the validator of the request -/
  | validating
  /-- what the state says of the write access -/
  | authorizing
  /-- the strategy's `build` -/
  | building (type : OperationType) (decodedTransaction : Operation)
  /-- the pending commit -/
  | committing
  /-- the signed response -/
  | responding (outcome : RequestOutcome)
  | done
  deriving DecidableEq

/-- A request and how far it has come. -/
structure RequestHandler where
  connection : ℕ
  remotePublicKey : Buffer
  message : NetworkMessage
  signature : Buffer
  /-- The promise of the pending commit, once the transaction is queued. -/
  pendingCommit : Option ℕ
  stage : HandlerStage

/-- The data of the request. -/
def RequestHandler.data (h : RequestHandler) : Buffer :=
  (PendingRequestService.extractRequestTxData h.message).getD []

/-! ### All requests -/

/-- A response that was sent. -/
structure Answer where
  /-- The place of the request. -/
  handler : ℕ
  connection : ℕ
  message : NetworkMessage
  signature : Buffer
  deriving DecidableEq

structure BroadcastServer where
  pipeline : Pipeline
  handlers : List RequestHandler
  sent : List Answer
  /-- The requests whose handlers ended their connection. -/
  ended : List ℕ

inductive ServerEvent
  /-- A request arrives. The rate limiter lets it pass, or not. -/
  | request (connection : ℕ) (remotePublicKey : Buffer) (message : NetworkMessage)
    (signature : Buffer) (limited : Bool)
  /-- The validator of the request is done. -/
  | validated (handler : ℕ)
  | authorized (handler : ℕ) (canValidate : Bool)
  /-- The strategy's validator is done, and a nonce is drawn. -/
  | built (handler : ℕ) (rejection : Option Rejection) (nonce : Buffer)
  /-- The worker, the append and the timers. -/
  | pipeline (event : PipelineEvent)
  /-- The handler goes on after its pending commit has been settled. -/
  | settled (handler : ℕ)
  /-- The response is signed and sent, or something throws. -/
  | responded (handler now : ℕ) (nonce : Buffer) (sent : Bool)

namespace BroadcastServer

def init : BroadcastServer := { pipeline := .init, handlers := [], sent := [], ended := [] }

variable (env : Env) (wallet : Wallet) (txPoolSize : ℕ) (s : BroadcastServer)

def setStage (handler : ℕ) (h : RequestHandler) (stage : HandlerStage) : BroadcastServer :=
  { s with handlers := s.handlers.set handler { h with stage } }

def fail (handler : ℕ) (h : RequestHandler) (error : HandlerError) : BroadcastServer :=
  s.setStage handler h (.responding (buildFailedRequestOutcome error))

/-- After the write access up to the `await` of the strategy. -/
def decodeTransaction (handler : ℕ) (h : RequestHandler) : BroadcastServer :=
  match validateTxPoolAvailability s.pipeline.pool txPoolSize with
  | .error error => s.fail handler h error
  | .ok () =>
    match decodeRequest env h.data with
    | .error error => s.fail handler h error
    | .ok (type, decodedTransaction) => s.setStage handler h (.building type decodedTransaction)

/-- After the strategy up to the `await` of the pending commit. -/
def dispatch (handler : ℕ) (h : RequestHandler) (tx encodedTx : Buffer) : BroadcastServer :=
  let s' := { s with pipeline := s.pipeline.dispatchTransaction txPoolSize tx encodedTx }
  match s.pipeline.dispatchError txPoolSize tx encodedTx with
  | some error => s'.fail handler h error
  | none =>
    s'.setStage handler { h with pendingCommit := some s.pipeline.commits.nextId } .committing

/-- `#sendBroadcastTransactionResponse`. A builder that throws ends the connection. -/
def respond (handler : ℕ) (h : RequestHandler) (outcome : RequestOutcome) (now : ℕ)
    (nonce : Buffer) (sent : Bool) : BroadcastServer :=
  let s' := s.setStage handler h .done
  let response := NetworkMessageDirector.buildBroadcastTransactionResponse env wallet now nonce
    h.message.id networkCapabilities outcome.resultCode outcome.proof outcome.timestamp
  match response, sent with
  | some (message, signature), true =>
    { s' with
      sent := s.sent ++ [{ handler, connection := h.connection, message, signature }]
      ended := if outcome.endConnection then s.ended ++ [handler] else s.ended }
  | _, _ => { s' with ended := s.ended ++ [handler] }

def step : ServerEvent → Option BroadcastServer
  | .request connection remotePublicKey message signature limited => do
    guard (message.payload.type = .broadcastTransactionRequest)
    let stage : HandlerStage :=
      if limited then .responding (buildFailedRequestOutcome (.protocol resultCodeRateLimited 0))
      else .validating
    return { s with
      handlers := s.handlers ++
        [{ connection, remotePublicKey, message, signature, pendingCommit := none, stage }] }
  | .validated handler => do
    let h ← s.handlers[handler]?
    guard (h.stage = .validating)
    match BroadcastTransactionRequest.validate env h.message h.signature h.remotePublicKey with
    | .error error => return s.fail handler h error.toHandlerError
    | .ok () => return s.setStage handler h .authorizing
  | .authorized handler canValidate => do
    let h ← s.handlers[handler]?
    guard (h.stage = .authorizing)
    if canValidate then return s.decodeTransaction env txPoolSize handler h
    else return s.fail handler h (.protocol resultCodeNodeHasNoWriteAccess 0)
  | .built handler rejection nonce => do
    let h ← s.handlers[handler]?
    match h.stage with
    | .building type decodedTransaction =>
      match buildTransaction env wallet type decodedTransaction rejection nonce with
      | .error error => return s.fail handler h error
      | .ok (tx, encodedTx) => return s.dispatch txPoolSize handler h tx encodedTx
    | _ => none
  | .pipeline event => do
    match event with
    | .dispatch _ _ => none
    | event => return { s with pipeline := ← s.pipeline.step txPoolSize event }
  | .settled handler => do
    let h ← s.handlers[handler]?
    guard (h.stage = .committing)
    let settlement ← s.pipeline.commits.settlement (← h.pendingCommit)
    return s.setStage handler h (.responding settlement.toOutcome)
  | .responded handler now nonce sent => do
    let h ← s.handlers[handler]?
    match h.stage with
    | .responding outcome => return s.respond env wallet handler h outcome now nonce sent
    | _ => none

end BroadcastServer

end SettlementBus
