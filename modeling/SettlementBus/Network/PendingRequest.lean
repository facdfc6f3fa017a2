import SettlementBus.Lib.Pending
import SettlementBus.Messages.Network
import SettlementBus.Utils.Helpers

/-! `PendingRequestService.js`: requests that wait for a response. -/

namespace SettlementBus

/-- Why a request is rejected. A `V1ProtocolError` has its result code. -/
inductive RequestError
  | timeout
  | connectionClosed
  | connectionError
  | sendFailed
  | shutdown
  | protocol (resultCode : ℕ)
  deriving DecidableEq, Repr

inductive Settlement
  | resolved (resultCode : ℕ)
  | rejected (error : RequestError)
  deriving DecidableEq, Repr

/-- What an entry has besides its id, its timer and its promise. -/
structure PendingRequest where
  requestType : NetworkOperationType
  requestTxData : Option Buffer
  requestedTo : Str
  deriving DecidableEq

abbrev PendingRequestEntry := Lib.Pending.Entry Str PendingRequest

abbrev PendingRequestService := Lib.Pending Str PendingRequest Settlement

namespace PendingRequestService

variable (service : PendingRequestService)

def getPendingRequest (id : Str) : Option PendingRequestEntry := service.find? id

def resolvePendingRequest (id : Str) (resultCode : ℕ) : PendingRequestService :=
  service.settleId id (.resolved resultCode)

def rejectPendingRequest (id : Str) (error : RequestError) : PendingRequestService :=
  service.settleId id (.rejected error)

def rejectPendingRequestsForPeer (peerPubKeyHex : Str) (error : RequestError) :
    PendingRequestService :=
  let idsToReject := (service.entries.filter fun entry =>
    entry.data.requestedTo = peerPubKeyHex).map Lib.Pending.Entry.id
  service.settleEach (idsToReject.map fun id => (id, .rejected error))

def stopPendingRequestTimeout (id : Str) : PendingRequestService := service.stopTimeout id

def close : PendingRequestService := service.settleAll (.rejected .shutdown)

def peerPublicKeyHexLength : ℕ := 64

def validateRegisterInput (peerPubKeyHex : Str) (message : NetworkMessage) : Bool :=
  isHexString peerPubKeyHex ∧ peerPubKeyHex.length = peerPublicKeyHexLength ∧ message.id ≠ [] ∧
    message.payload.type ∈
      [NetworkOperationType.livenessRequest, .broadcastTransactionRequest]

def extractRequestTxData (message : NetworkMessage) : Option Buffer :=
  match message.payload with
  | .broadcastTransactionRequest data _ => some data
  | _ => none

/-- It throws for invalid input, when the service is full and for an id that is pending. -/
def registerPendingRequest (maxPendingRequests : ℕ) (peerPubKeyHex : Str)
    (message : NetworkMessage) : Option PendingRequestService := do
  guard (validateRegisterInput peerPubKeyHex message)
  guard (service.entries.length < maxPendingRequests)
  guard (service.find? message.id = none)
  return service.register message.id
    { requestType := message.payload.type
      requestTxData := extractRequestTxData message
      requestedTo := peerPubKeyHex }

end PendingRequestService

end SettlementBus
