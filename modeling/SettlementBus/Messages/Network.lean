import SettlementBus.Utils.Buffer
import Mathlib.Data.List.Lex

/-! The messages of the V1 protocol, as far as their senders sign them. -/

namespace SettlementBus

open Lib

inductive NetworkOperationType
  | livenessRequest
  | livenessResponse
  | broadcastTransactionRequest
  | broadcastTransactionResponse
  deriving DecidableEq, Repr

def NetworkOperationType.code : NetworkOperationType → ℕ
  | livenessRequest => 1
  | livenessResponse => 2
  | broadcastTransactionRequest => 3
  | broadcastTransactionResponse => 4

/-- The payload of a message without its signature. -/
inductive NetworkPayload
  | livenessRequest (nonce : Buffer)
  | livenessResponse (nonce : Buffer) (result : ℕ)
  | broadcastTransactionRequest (data nonce : Buffer)
  | broadcastTransactionResponse (nonce proof : Buffer) (timestamp result : ℕ)

def NetworkPayload.type : NetworkPayload → NetworkOperationType
  | livenessRequest .. => .livenessRequest
  | livenessResponse .. => .livenessResponse
  | broadcastTransactionRequest .. => .broadcastTransactionRequest
  | broadcastTransactionResponse .. => .broadcastTransactionResponse

structure NetworkMessage where
  id : Str
  timestamp : ℕ
  capabilities : List Str
  payload : NetworkPayload

/-- `b4a.from(string, 'utf8')`. -/
def fromUtf8 (s : Str) : Buffer := s.flatMap String.utf8EncodeChar

/-- The code units by which JavaScript orders strings. -/
def utf16 (s : Str) : List ℕ := s.flatMap fun c =>
  if c.toNat < 0x10000 then [c.toNat]
  else [0xD800 + (c.toNat - 0x10000) / 0x400, 0xDC00 + (c.toNat - 0x10000) % 0x400]

def maxSafeInteger : ℕ := 2 ^ 53 - 1

/-- It throws unless the timestamp is a safe integer. -/
def timestampToBuffer (timestamp : ℕ) : Option Buffer :=
  if timestamp ≤ maxSafeInteger then some (Bytes.ofNat 8 timestamp) else none

/-- `writeUInt16BE` throws when the length does not fit. -/
def encodeCapability (capability : Str) : Option Buffer :=
  let capabilityBuffer := fromUtf8 capability
  if capabilityBuffer.length ≤ 0xFFFF then
    some (Bytes.ofNat 2 capabilityBuffer.length ++ capabilityBuffer)
  else none

def encodeCapabilities (capabilities : List Str) : Option Buffer := do
  let parts ← (capabilities.mergeSort fun a b => utf16 a ≤ utf16 b).mapM encodeCapability
  return parts.flatten

def resultCodeOk : ℕ := 1

def resultCodeTxAcceptedProofUnavailable : ℕ := 8

/-- What a response may say of the proof and its time. -/
def isResultConsistent (proof : Buffer) (timestamp result : ℕ) : Bool :=
  let hasProof := 0 < proof.length
  let hasTimestamp := 0 < timestamp
  if result = resultCodeOk then hasProof ∧ hasTimestamp
  else if result = resultCodeTxAcceptedProofUnavailable then ¬hasProof ∧ hasTimestamp
  else ¬hasProof ∧ timestamp = 0

/-- The arguments of `createMessage` for a message that its builder accepts. The sender signs the
hash of the result. -/
def NetworkMessage.parts (m : NetworkMessage) : Option (List MessagePart) := do
  let idBuf := fromUtf8 m.id
  let tsBuf ← timestampToBuffer m.timestamp
  let capsBuf ← encodeCapabilities m.capabilities
  let type := MessagePart.number m.payload.type.code
  match m.payload with
  | .livenessRequest nonce =>
    return [type, .buffer idBuf, .buffer tsBuf, .buffer nonce, .buffer capsBuf]
  | .livenessResponse nonce result =>
    return [type, .buffer idBuf, .buffer tsBuf, .buffer nonce,
      .buffer (safeWriteUInt32BE result), .buffer capsBuf]
  | .broadcastTransactionRequest data nonce =>
    return [type, .buffer idBuf, .buffer tsBuf, .buffer data, .buffer nonce, .buffer capsBuf]
  | .broadcastTransactionResponse nonce proof timestamp result =>
    guard (isResultConsistent proof timestamp result)
    let ledgerBuf ← timestampToBuffer timestamp
    return [type, .buffer idBuf, .buffer tsBuf, .buffer nonce, .buffer proof, .buffer ledgerBuf,
      .buffer (safeWriteUInt32BE result), .buffer capsBuf]

/-- A signed message begins with the code of its type. -/
theorem NetworkMessage.parts_head {m : NetworkMessage} {parts : List MessagePart}
    (h : m.parts = some parts) :
    ∃ rest, parts = MessagePart.number m.payload.type.code :: rest := by
  simp only [NetworkMessage.parts, Option.bind_eq_bind, Option.bind_eq_some_iff] at h
  obtain ⟨tsBuf, -, capsBuf, -, h⟩ := h
  cases hp : m.payload with
  | broadcastTransactionResponse nonce proof timestamp result =>
    simp only [hp, Option.bind_eq_some_iff, Option.pure_def, Option.some.injEq] at h
    obtain ⟨-, -, ledgerBuf, -, rfl⟩ := h
    exact ⟨_, rfl⟩
  | _ =>
    simp only [hp, Option.pure_def, Option.some.injEq] at h
    exact ⟨_, h.symm⟩

end SettlementBus
