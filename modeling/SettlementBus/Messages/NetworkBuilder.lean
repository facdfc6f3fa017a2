import SettlementBus.Messages.Builder
import SettlementBus.Messages.Schema

/-! `NetworkMessageBuilder.js` and `NetworkMessageDirector.js`: how a wallet makes the messages of
the V1 protocol. -/

namespace SettlementBus

deriving instance DecidableEq for NetworkPayload, NetworkMessage

def networkCapabilities : List Str := ["protocols:v1:legacy".toList]

namespace NetworkMessageDirector

variable (env : Env) (wallet : Wallet) (now : ℕ) (nonce : Buffer) (id : Str)
  (capabilities : List Str)

/-- What the constructor and `#setHeader` check, the message and its signature. The clock and the
nonce are `Date.now` and `nonce.generate`. -/
def buildPayload (payload : NetworkPayload) : Option (NetworkMessage × Buffer) := do
  guard (isAddressValid env wallet.address)
  guard (id ≠ [] ∧ now ≠ 0)
  let message : NetworkMessage := { id, timestamp := now, capabilities, payload }
  let parts ← message.parts
  return (message, wallet.sign (env.crypto.blake3Safe (createMessage parts)))

def buildLivenessRequest : Option (NetworkMessage × Buffer) :=
  buildPayload env wallet now id capabilities (.livenessRequest nonce)

/-- `setResultCode` throws for another code. -/
def buildLivenessResponse (statusCode : ℕ) : Option (NetworkMessage × Buffer) := do
  guard (statusCode ∈ allowedResultCodes)
  buildPayload env wallet now id capabilities (.livenessResponse nonce statusCode)

/-- `setData` reads `null` as an empty buffer. -/
def buildBroadcastTransactionRequest (data : Option Buffer) : Option (NetworkMessage × Buffer) :=
  buildPayload env wallet now id capabilities
    (.broadcastTransactionRequest (data.getD []) nonce)

/-- `setProof` reads `null` as an empty buffer, and `setTimestampLedger` throws unless the timestamp
is a safe integer. -/
def buildBroadcastTransactionResponse (resultCode : ℕ) (proof : Option Buffer) (timestamp : ℕ) :
    Option (NetworkMessage × Buffer) := do
  guard (timestamp ≤ maxSafeInteger)
  guard (resultCode ∈ allowedResultCodes)
  buildPayload env wallet now id capabilities
    (.broadcastTransactionResponse nonce (proof.getD []) timestamp resultCode)

variable {env wallet now nonce id capabilities} {message : NetworkMessage} {signature : Buffer}

theorem buildPayload_eq_some {payload : NetworkPayload} :
    buildPayload env wallet now id capabilities payload = some (message, signature) ↔
      isAddressValid env wallet.address ∧ (id ≠ [] ∧ now ≠ 0) ∧
        message = { id, timestamp := now, capabilities, payload } ∧
        ∃ parts, message.parts = some parts ∧
          wallet.sign (env.crypto.blake3Safe (createMessage parts)) = signature := by
  simp only [buildPayload, Option.bind_eq_bind, Option.bind_eq_some_iff, Option.guard_eq_some',
    exists_const, Option.pure_def, Option.some.injEq, Prod.mk.injEq]
  refine and_congr_right fun _ => and_congr_right fun _ => ?_
  constructor
  · rintro ⟨parts, hparts, rfl, hsignature⟩
    exact ⟨rfl, parts, hparts, hsignature⟩
  · rintro ⟨rfl, parts, hparts, hsignature⟩
    exact ⟨parts, hparts, rfl, hsignature⟩

theorem buildLivenessResponse_eq_some {statusCode : ℕ} :
    buildLivenessResponse env wallet now nonce id capabilities statusCode =
        some (message, signature) ↔
      statusCode ∈ allowedResultCodes ∧
        buildPayload env wallet now id capabilities (.livenessResponse nonce statusCode) =
          some (message, signature) := by
  simp only [buildLivenessResponse, Option.bind_eq_bind, Option.bind_eq_some_iff,
    Option.guard_eq_some', exists_const]

theorem buildBroadcastTransactionResponse_eq_some {resultCode timestamp : ℕ}
    {proof : Option Buffer} :
    buildBroadcastTransactionResponse env wallet now nonce id capabilities resultCode proof
        timestamp = some (message, signature) ↔
      timestamp ≤ maxSafeInteger ∧ resultCode ∈ allowedResultCodes ∧
        buildPayload env wallet now id capabilities
          (.broadcastTransactionResponse nonce (proof.getD []) timestamp resultCode) =
            some (message, signature) := by
  simp only [buildBroadcastTransactionResponse, Option.bind_eq_bind, Option.bind_eq_some_iff,
    Option.guard_eq_some', exists_const]

end NetworkMessageDirector

end SettlementBus
