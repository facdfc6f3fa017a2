import SettlementBus.Messages.NetworkBuilder
import SettlementBus.Network.BroadcastResponse

/-! The liveness messages, by which a node finds out what its peer speaks: `V1LivenessRequest.js`,
`V1LivenessResponse.js` and `V1LivenessOperationHandler.js`. -/

namespace SettlementBus

variable (env : Env)

def LivenessRequest.validate (payload : NetworkMessage) (signature remotePublicKey : Buffer) :
    Except RequestError Unit := do
  BroadcastTransactionResponse.orReject resultCodeInvalidPayload (payload.isSchemaValid signature)
  BroadcastTransactionResponse.validateSignature env payload signature remotePublicKey

def LivenessResponse.validate (payload : NetworkMessage) (signature remotePublicKey : Buffer)
    (entry : PendingRequestEntry) : Except RequestError Unit := do
  BroadcastTransactionResponse.orReject resultCodeInvalidPayload (payload.isSchemaValid signature)
  validateResponseType payload entry
  validatePeerCorrectness remotePublicKey entry
  BroadcastTransactionResponse.validateSignature env payload signature remotePublicKey

/-- `getResultCode` -/
def RequestError.resultCode : RequestError → ℕ
  | .protocol resultCode => resultCode
  | _ => resultCodeUnexpectedError

/-- The result of `handleRequest`, which it answers with. The rate limiter lets the request pass, or
not. -/
def LivenessRequest.result (limited : Bool) (payload : NetworkMessage)
    (signature remotePublicKey : Buffer) : ℕ :=
  if limited then resultCodeRateLimited
  else
    match LivenessRequest.validate env payload signature remotePublicKey with
    | .ok () => resultCodeOk
    | .error error => error.resultCode

end SettlementBus
