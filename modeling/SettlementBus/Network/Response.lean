import SettlementBus.Lib.Machine
import SettlementBus.Network.PendingRequest

/-! The requests of a node and the responses of its peers, in any order. -/

namespace SettlementBus

def resultCodeInvalidPayload : ℕ := 2

def resultCodeRateLimited : ℕ := 3

def resultCodeUnexpectedError : ℕ := 5

/-- `validateResponseType` -/
def validateResponseType (payload : NetworkMessage) (entry : PendingRequestEntry) :
    Except RequestError Unit :=
  let check (expectedResponseType : NetworkOperationType) : Except RequestError Unit :=
    if payload.payload.type = expectedResponseType then .ok ()
    else .error (.protocol resultCodeInvalidPayload)
  match entry.data.requestType with
  | .livenessRequest => check .livenessResponse
  | .broadcastTransactionRequest => check .broadcastTransactionResponse
  | _ => .error (.protocol resultCodeUnexpectedError)

def validatePeerCorrectness (remotePublicKey : Buffer) (entry : PendingRequestEntry) :
    Except RequestError Unit :=
  if toHex remotePublicKey = entry.data.requestedTo then .ok ()
  else .error (.protocol resultCodeInvalidPayload)

/-- What both response validators check, with `schema` for the schemas of `V1ValidationSchema.js`.
`verdict` is the error that the rest throws, which awaits hashes, proofs and the state. -/
def validateResponse (schema : NetworkMessage → Bool) (payload : NetworkMessage)
    (remotePublicKey : Buffer) (entry : PendingRequestEntry) (verdict : Option ℕ) :
    Except RequestError Unit := do
  if !schema payload then throw (.protocol resultCodeInvalidPayload)
  validateResponseType payload entry
  validatePeerCorrectness remotePublicKey entry
  match verdict with
  | none => return
  | some resultCode => throw (.protocol resultCode)

/-- `extractResultCode` of the two handlers. Only responses have a result. -/
def NetworkMessage.result (m : NetworkMessage) : ℕ :=
  match m.payload with
  | .livenessResponse _ result | .broadcastTransactionResponse _ _ _ result => result
  | _ => 0

/-- A call of `resolvePendingResponse` that awaits its validator. -/
structure Validation where
  message : NetworkMessage
  remotePublicKey : Buffer
  entry : PendingRequestEntry

structure Requests where
  service : PendingRequestService
  validations : List Validation

def Requests.init : Requests := { service := .init, validations := [] }

inductive RequestEvent
  /-- `V1Protocol.send`, which may fail to write to the session. -/
  | send (remotePublicKey : Buffer) (message : NetworkMessage) (sent : Bool)
  /-- `handleResponse`. The rate limiter lets a message pass, or not. -/
  | response (remotePublicKey : Buffer) (message : NetworkMessage) (limited : Bool)
  /-- The validator of the call is done. -/
  | validated (call : ℕ) (verdict : Option ℕ)
  | timeout (timer : ℕ)
  | connectionClosed (remotePublicKey : Buffer)
  | connectionError (remotePublicKey : Buffer)
  | close

namespace Requests

variable (maxPendingRequests : ℕ) (schema : NetworkMessage → Bool) (s : Requests)

/-- The promise of a registration that throws rejects without the service. -/
def send (remotePublicKey : Buffer) (message : NetworkMessage) (sent : Bool) : Requests :=
  match s.service.registerPendingRequest maxPendingRequests (toHex remotePublicKey) message with
  | none => s
  | some service =>
    if sent then { s with service }
    else { s with service := service.rejectPendingRequest message.id .sendFailed }

/-- Up to the `await` of the validator. -/
def handleResponse (remotePublicKey : Buffer) (message : NetworkMessage) (limited : Bool) :
    Requests :=
  if limited then
    { s with service := s.service.rejectPendingRequest message.id (.protocol resultCodeRateLimited) }
  else
    match s.service.getPendingRequest message.id with
    | none => s
    | some entry =>
      { service := s.service.stopPendingRequestTimeout message.id
        validations := s.validations ++ [{ message, remotePublicKey, entry }] }

/-- After the `await`. -/
def finish (v : Validation) (verdict : Option ℕ) : PendingRequestService :=
  match validateResponse schema v.message v.remotePublicKey v.entry verdict with
  | .ok () => s.service.resolvePendingRequest v.message.id v.message.result
  | .error error => s.service.rejectPendingRequest v.message.id error

def step : RequestEvent → Option Requests
  | .send remotePublicKey message sent => some (s.send maxPendingRequests remotePublicKey message sent)
  | .response remotePublicKey message limited => do
    guard (message.payload.type ∈
      [NetworkOperationType.livenessResponse, .broadcastTransactionResponse])
    return s.handleResponse remotePublicKey message limited
  | .validated call verdict => do
    let v ← s.validations[call]?
    return { service := s.finish schema v verdict, validations := s.validations.eraseIdx call }
  | .timeout timer => do
    return { s with service := ← s.service.fire (.rejected .timeout) timer }
  | .connectionClosed remotePublicKey =>
    some { s with service :=
            s.service.rejectPendingRequestsForPeer (toHex remotePublicKey) .connectionClosed }
  | .connectionError remotePublicKey =>
    some { s with service :=
            s.service.rejectPendingRequestsForPeer (toHex remotePublicKey) .connectionError }
  | .close => some { s with service := s.service.close }

end Requests

end SettlementBus
