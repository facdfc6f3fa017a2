import SettlementBus.Messages.Network
import SettlementBus.Utils.Constants

/-! `V1ValidationSchema.js`: the schemas of the messages of the V1 protocol. -/

namespace SettlementBus

def maxPartialTxPayloadByteSize : ℕ := 3072

/-- The codes of `ResultCode` are the numbers from 0 to 61. -/
def allowedResultCodes : List ℕ := List.range 62

/-- The rule `buffer` with a length. -/
def validateBuffer (length : ℕ) (b : Buffer) : Bool := b.length = length ∧ ∃ x ∈ b, x ≠ 0

/-- The rules that the four schemas share. Strings are as long as their code units. -/
def validateHeader (m : NetworkMessage) : Bool :=
  let length := (utf16 m.id).length
  1 ≤ length ∧ length ≤ 64 ∧ 1 ≤ m.timestamp ∧ m.timestamp ≤ maxSafeInteger

def validateV1LivenessRequest (m : NetworkMessage) (nonce signature : Buffer) : Bool :=
  validateHeader m ∧ validateBuffer nonceByteLength nonce ∧
    validateBuffer signatureByteLength signature

def validateV1LivenessResponse (m : NetworkMessage) (nonce signature : Buffer) (result : ℕ) : Bool :=
  validateHeader m ∧ validateBuffer nonceByteLength nonce ∧
    validateBuffer signatureByteLength signature ∧ result ∈ allowedResultCodes

def validateV1BroadcastTransactionRequest (m : NetworkMessage) (data nonce signature : Buffer) :
    Bool :=
  validateHeader m ∧ 1 ≤ data.length ∧ data.length ≤ maxPartialTxPayloadByteSize ∧
    validateBuffer nonceByteLength nonce ∧ validateBuffer signatureByteLength signature

/-- The proof is any buffer. A timestamp that is absent is read as zero. -/
def validateV1BroadcastTransactionResponse (m : NetworkMessage) (nonce signature : Buffer)
    (timestamp result : ℕ) : Bool :=
  validateHeader m ∧ validateBuffer nonceByteLength nonce ∧
    validateBuffer signatureByteLength signature ∧ timestamp ≤ maxSafeInteger ∧
    result ∈ allowedResultCodes

/-- `#selectCheckSchemaValidator` takes the schema of the message's type. -/
def NetworkMessage.isSchemaValid (m : NetworkMessage) (signature : Buffer) : Bool :=
  match m.payload with
  | .livenessRequest nonce => validateV1LivenessRequest m nonce signature
  | .livenessResponse nonce result => validateV1LivenessResponse m nonce signature result
  | .broadcastTransactionRequest data nonce =>
    validateV1BroadcastTransactionRequest m data nonce signature
  | .broadcastTransactionResponse nonce _ timestamp result =>
    validateV1BroadcastTransactionResponse m nonce signature timestamp result

end SettlementBus
