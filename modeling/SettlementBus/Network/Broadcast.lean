import SettlementBus.Network.BroadcastRequest
import SettlementBus.Network.Liveness

/-! A node that broadcasts transactions and a validator, with the messages between them:
`V1Protocol.js` on both sides of their connections. -/

namespace SettlementBus

/-- What the validator of a response throws, whose state is the one that it reads. -/
def responseVerdict (env : Env) (api : CoreApi) (state : LocalState) (payload : NetworkMessage)
    (signature remotePublicKey : Buffer) (entry : PendingRequestEntry) : Option ℕ :=
  let result := match payload.payload with
    | .broadcastTransactionResponse _ _ _ _ =>
      BroadcastTransactionResponse.validate env api state payload signature remotePublicKey entry
    | _ => LivenessResponse.validate env payload signature remotePublicKey entry
  match result with
  | .ok () => none
  | .error error => some error.resultCode

/-- A request that the node has written to a session. -/
structure Asked where
  promise : ℕ
  remotePublicKey : Buffer
  message : NetworkMessage
  signature : Buffer
  deriving DecidableEq

/-- The ends of the connections between the two. -/
structure Parties where
  node : Buffer
  validator : Buffer

structure Broadcast where
  client : Requests
  /-- The signatures of the responses whose validations are awaited. -/
  signatures : List Buffer
  asked : List Asked
  server : BroadcastServer
  /-- The requests that have reached the validator. -/
  delivered : List Asked

inductive BroadcastEvent
  /-- `V1Protocol.send` to any peer. Ids are those of `generateUUID`. -/
  | send (remotePublicKey : Buffer) (message : NetworkMessage) (signature : Buffer) (sent : Bool)
  /-- A request of the node reaches the validator. -/
  | deliver (place connection : ℕ) (limited : Bool)
  /-- The validator goes on, or another node asks it. -/
  | server (event : ServerEvent)
  /-- A response of the validator reaches the node. -/
  | answer (place : ℕ) (limited : Bool)
  /-- A response of another kind, or of another peer. -/
  | response (remotePublicKey : Buffer) (message : NetworkMessage) (signature : Buffer)
    (limited : Bool)
  /-- The validator of a response is done. -/
  | validated (call : ℕ) (state : LocalState)
  /-- A timer of the node, or one of its connections. -/
  | client (event : RequestEvent)

namespace Broadcast

def init : Broadcast :=
  { client := .init, signatures := [], asked := [], server := .init, delivered := [] }

variable (env : Env) (api : CoreApi) (wallet : Wallet) (txPoolSize maxPendingRequests : ℕ)
  (parties : Parties) (s : Broadcast)

/-- The signature is kept with the validation, if there is one. -/
def receive (remotePublicKey : Buffer) (message : NetworkMessage) (signature : Buffer)
    (limited : Bool) : Option Broadcast := do
  let client ← s.client.step maxPendingRequests (fun payload => payload.isSchemaValid signature)
    (.response remotePublicKey message limited)
  return { s with
    client
    signatures := (s.signatures ++ [signature]).take client.validations.length }

/-- Sessions deliver what is written to them at most once, and only to the other end. -/
def step : BroadcastEvent → Option Broadcast
  | .send remotePublicKey message signature sent => do
    guard (∀ x ∈ s.asked, x.message.id ≠ message.id)
    let promise := s.client.service.nextId
    let registered := s.client.service.registerPendingRequest maxPendingRequests
      (toHex remotePublicKey) message
    return { s with
      client := s.client.send maxPendingRequests remotePublicKey message sent
      asked :=
        if sent && registered.isSome then
          s.asked ++ [{ promise, remotePublicKey, message, signature }]
        else s.asked }
  | .deliver place connection limited => do
    let x ← s.asked[place]?
    guard (x.remotePublicKey = parties.validator ∧ x ∉ s.delivered)
    let server ← s.server.step env wallet txPoolSize
      (.request connection parties.node x.message x.signature limited)
    return { s with server, delivered := s.delivered ++ [x] }
  | .server event => do
    match event with
    | .request _ remotePublicKey _ _ _ => guard (remotePublicKey ≠ parties.node)
    | _ => pure ()
    return { s with server := ← s.server.step env wallet txPoolSize event }
  | .answer place limited => do
    let a ← s.server.sent[place]?
    let h ← s.server.handlers[a.handler]?
    guard (h.remotePublicKey = parties.node)
    s.receive maxPendingRequests parties.validator a.message a.signature limited
  | .response remotePublicKey message signature limited => do
    guard (remotePublicKey = parties.validator →
      message.payload.type ≠ .broadcastTransactionResponse)
    s.receive maxPendingRequests remotePublicKey message signature limited
  | .validated call state => do
    let v ← s.client.validations[call]?
    let signature ← s.signatures[call]?
    let verdict := responseVerdict env api state v.message signature v.remotePublicKey v.entry
    let client ← s.client.step maxPendingRequests (fun payload => payload.isSchemaValid signature)
      (.validated call verdict)
    return { s with client, signatures := s.signatures.eraseIdx call }
  | .client event => do
    match event with
    | .send .. | .response .. | .validated .. => none
    | event =>
      return { s with client := ← s.client.step maxPendingRequests (fun _ => true) event }

end Broadcast

end SettlementBus
