import SettlementBus.Lib.Fields
import SettlementBus.Messages.Items
import SettlementBus.Messages.NetworkBuilder

/-! `networkV1.generated.cjs` and `NetworkMessageRouter.js`: the bytes of the messages of the V1
protocol, and what becomes of the bytes that a peer sends. -/

namespace SettlementBus

open Lib Lib.Wire

def v1ProtocolPayloadMaxSize : ℕ := 4096

/-! ### Writing -/

/-- A number with the type `uint64`. -/
def encodeUint64 (number n : ℕ) : Buffer := varint 5 (8 * number) ++ varint 10 n

/-- A number with the type `int32` that is not negative. -/
def encodeInt32 (number n : ℕ) : Buffer := varint 5 (8 * number) ++ varint 5 n

/-- The member of the `oneof`, with the signature that its builder adds. Every property is written,
also if it is empty or zero. -/
def NetworkPayload.encode (signature : Buffer) : NetworkPayload → Buffer
  | livenessRequest nonce => encodeBytes 4 (encodeBytes 1 nonce ++ encodeBytes 2 signature)
  | livenessResponse nonce result =>
    encodeBytes 5 (encodeBytes 1 nonce ++ (encodeBytes 2 signature ++ encodeInt32 3 result))
  | broadcastTransactionRequest data nonce =>
    encodeBytes 6 (encodeBytes 1 data ++ (encodeBytes 2 nonce ++ encodeBytes 3 signature))
  | broadcastTransactionResponse nonce proof timestamp result =>
    encodeBytes 7 (encodeBytes 1 nonce ++ (encodeBytes 2 signature ++ (encodeBytes 3 proof ++
      (encodeUint64 4 timestamp ++ encodeInt32 5 result))))

/-- `encodeV1networkOperation` -/
def NetworkMessage.encode (m : NetworkMessage) (signature : Buffer) : Buffer :=
  encodeInt32 1 m.payload.type.code ++ (encodeBytes 2 (fromUtf8 m.id) ++
    (encodeUint64 3 m.timestamp ++ (m.payload.encode signature ++
      m.capabilities.flatMap fun capability => encodeBytes 8 (fromUtf8 capability))))

/-! ### Reading -/

/-- The methods of the `Reader` of `protobufjs`, with what they return and the position they move
to. A number with the type `uint64` is what `toNumber` makes of it. -/
structure Protobuf where
  uint32 : Reader UInt8 ℕ
  int32 : Reader UInt8 ℤ
  uint64 : Reader UInt8 ℕ
  bytes : Reader UInt8 Buffer
  string : Reader UInt8 Str
  skipType : ℕ → Buffer → ℕ → Option ℕ
  lt_uint32 : ∀ {buf offset d}, uint32 buf offset = some d → offset < d.2
  int32_forward : int32.Forward
  uint64_forward : uint64.Forward
  bytes_forward : bytes.Forward
  string_forward : string.Forward
  le_skipType : ∀ {wire buf offset offset'},
    skipType wire buf offset = some offset' → offset ≤ offset'

namespace Protobuf

variable (R : Protobuf)

/-- `tag >>> 3` and `tag & 7` -/
def format : Format UInt8 where
  header buf offset := (R.uint32 buf offset).map fun d => ((tagOf d.1, d.1 % 8), d.2)
  skip := R.skipType
  lt_header h := by
    obtain ⟨d, hd, rfl⟩ := Option.map_eq_some_iff.mp h
    exact R.lt_uint32 hd
  le_skip := R.le_skipType

end Protobuf

/-! ### The messages of `network.v1`, with their defaults -/

namespace NetworkV1

structure LivenessRequest where
  nonce : Buffer := []
  signature : Buffer := []
  deriving DecidableEq

structure LivenessResponse where
  nonce : Buffer := []
  signature : Buffer := []
  result : ℤ := 0
  deriving DecidableEq

structure BroadcastTransactionRequest where
  data : Buffer := []
  nonce : Buffer := []
  signature : Buffer := []
  deriving DecidableEq

structure BroadcastTransactionResponse where
  nonce : Buffer := []
  signature : Buffer := []
  proof : Buffer := []
  timestamp : ℕ := 0
  result : ℤ := 0
  deriving DecidableEq

/-- What `toObject` returns. A member of the `oneof` is absent unless it was read, and one that is
read does not remove another. -/
structure MessageHeader where
  type : ℤ := 0
  id : Str := []
  timestamp : ℕ := 0
  livenessRequest : Option LivenessRequest := none
  livenessResponse : Option LivenessResponse := none
  broadcastTransactionRequest : Option BroadcastTransactionRequest := none
  broadcastTransactionResponse : Option BroadcastTransactionResponse := none
  capabilities : List Str := []
  deriving DecidableEq

variable (R : Protobuf)

def LivenessRequest.fields : ℕ → Option (FieldReader UInt8 LivenessRequest)
  | 1 => some (R.bytes.field fun nonce m => { m with nonce })
  | 2 => some (R.bytes.field fun signature m => { m with signature })
  | _ => none

def LivenessResponse.fields : ℕ → Option (FieldReader UInt8 LivenessResponse)
  | 1 => some (R.bytes.field fun nonce m => { m with nonce })
  | 2 => some (R.bytes.field fun signature m => { m with signature })
  | 3 => some (R.int32.field fun result m => { m with result })
  | _ => none

def BroadcastTransactionRequest.fields :
    ℕ → Option (FieldReader UInt8 BroadcastTransactionRequest)
  | 1 => some (R.bytes.field fun data m => { m with data })
  | 2 => some (R.bytes.field fun nonce m => { m with nonce })
  | 3 => some (R.bytes.field fun signature m => { m with signature })
  | _ => none

def BroadcastTransactionResponse.fields :
    ℕ → Option (FieldReader UInt8 BroadcastTransactionResponse)
  | 1 => some (R.bytes.field fun nonce m => { m with nonce })
  | 2 => some (R.bytes.field fun signature m => { m with signature })
  | 3 => some (R.bytes.field fun proof m => { m with proof })
  | 4 => some (R.uint64.field fun timestamp m => { m with timestamp })
  | 5 => some (R.int32.field fun result m => { m with result })
  | _ => none

/-- The `decode` of a member, behind its length. It starts from an empty message. -/
def member {σ : Type} (fields : ℕ → Option (FieldReader UInt8 σ)) (init : σ) : Reader UInt8 σ :=
  R.format.delimited fields R.uint32 init

namespace MessageHeader

def fields : ℕ → Option (FieldReader UInt8 MessageHeader)
  | 1 => some (R.int32.field fun type m => { m with type })
  | 2 => some (R.string.field fun id m => { m with id })
  | 3 => some (R.uint64.field fun timestamp m => { m with timestamp })
  | 4 => some ((member R (LivenessRequest.fields R) {}).field fun x m =>
      { m with livenessRequest := some x })
  | 5 => some ((member R (LivenessResponse.fields R) {}).field fun x m =>
      { m with livenessResponse := some x })
  | 6 => some ((member R (BroadcastTransactionRequest.fields R) {}).field fun x m =>
      { m with broadcastTransactionRequest := some x })
  | 7 => some ((member R (BroadcastTransactionResponse.fields R) {}).field fun x m =>
      { m with broadcastTransactionResponse := some x })
  | 8 => some (R.string.field fun capability m =>
      { m with capabilities := m.capabilities ++ [capability] })
  | _ => none

/-- `decodeV1networkOperation`. `none` is an exception. -/
def decode (buf : Buffer) : Option MessageHeader := R.format.decode (fields R) {} buf

/-- The member of a message. -/
def withPayload (payload : NetworkPayload) (signature : Buffer) (header : MessageHeader) :
    MessageHeader :=
  match payload with
  | .livenessRequest nonce => { header with livenessRequest := some { nonce, signature } }
  | .livenessResponse nonce result =>
    { header with livenessResponse := some { nonce, signature, result } }
  | .broadcastTransactionRequest data nonce =>
    { header with broadcastTransactionRequest := some { data, nonce, signature } }
  | .broadcastTransactionResponse nonce proof timestamp result =>
    { header with
      broadcastTransactionResponse := some { nonce, signature, proof, timestamp, result } }

/-- The object of a message and its signature. -/
def of (m : NetworkMessage) (signature : Buffer) : MessageHeader :=
  withPayload m.payload signature
    { type := m.payload.type.code, id := m.id, timestamp := m.timestamp,
      capabilities := m.capabilities }

/-! ### The schemas -/

variable (m : MessageHeader)

/-- The rules that the four schemas share. -/
def validateHeader (type : NetworkOperationType) : Bool :=
  let length := (utf16 m.id).length
  m.type = type.code ∧ 1 ≤ length ∧ length ≤ 64 ∧ 1 ≤ m.timestamp ∧ m.timestamp ≤ maxSafeInteger

/-- `$$strict`: of the members of the `oneof` there may only be the one that the schema names. -/
def isStrict (type : NetworkOperationType) : Bool :=
  (m.livenessRequest.isSome → type = .livenessRequest) ∧
    (m.livenessResponse.isSome → type = .livenessResponse) ∧
    (m.broadcastTransactionRequest.isSome → type = .broadcastTransactionRequest) ∧
    (m.broadcastTransactionResponse.isSome → type = .broadcastTransactionResponse)

/-- The rule `enum` of a result code. -/
def validateResult (result : ℤ) : Bool := 0 ≤ result ∧ result.toNat ∈ allowedResultCodes

def validateV1LivenessRequest : Bool :=
  m.validateHeader .livenessRequest ∧ m.isStrict .livenessRequest ∧
    m.livenessRequest.any fun x =>
      validateBuffer nonceByteLength x.nonce ∧ validateBuffer signatureByteLength x.signature

def validateV1LivenessResponse : Bool :=
  m.validateHeader .livenessResponse ∧ m.isStrict .livenessResponse ∧
    m.livenessResponse.any fun x =>
      validateBuffer nonceByteLength x.nonce ∧ validateBuffer signatureByteLength x.signature ∧
        validateResult x.result

def validateV1BroadcastTransactionRequest : Bool :=
  m.validateHeader .broadcastTransactionRequest ∧ m.isStrict .broadcastTransactionRequest ∧
    m.broadcastTransactionRequest.any fun x =>
      1 ≤ x.data.length ∧ x.data.length ≤ maxPartialTxPayloadByteSize ∧
        validateBuffer nonceByteLength x.nonce ∧ validateBuffer signatureByteLength x.signature

def validateV1BroadcastTransactionResponse : Bool :=
  m.validateHeader .broadcastTransactionResponse ∧ m.isStrict .broadcastTransactionResponse ∧
    m.broadcastTransactionResponse.any fun x =>
      validateBuffer nonceByteLength x.nonce ∧ validateBuffer signatureByteLength x.signature ∧
        x.timestamp ≤ maxSafeInteger ∧ validateResult x.result

/-- `isPayloadSchemaValid` of a message that was routed to the handler of its type. -/
def isPayloadSchemaValid : NetworkOperationType → Bool
  | .livenessRequest => m.validateV1LivenessRequest
  | .livenessResponse => m.validateV1LivenessResponse
  | .broadcastTransactionRequest => m.validateV1BroadcastTransactionRequest
  | .broadcastTransactionResponse => m.validateV1BroadcastTransactionResponse

end MessageHeader

end NetworkV1

/-! ### The router -/

open NetworkV1

/-- The type with a code. -/
def NetworkOperationType.ofCode (code : ℤ) : Option NetworkOperationType :=
  [livenessRequest, livenessResponse, broadcastTransactionRequest,
    broadcastTransactionResponse].find? fun type => type.code = code

/-- What becomes of the bytes that a peer sends. -/
inductive Routed
  /-- The connection is ended. Its session may speak V1 since this message. -/
  | disconnected (preferred : Bool)
  /-- The handler of the type gets the message. -/
  | handled (type : NetworkOperationType) (message : MessageHeader)
  deriving DecidableEq

/-- `#preValidate` -/
def preValidate (incomingMessage : Buffer) : Bool :=
  incomingMessage.length ≠ 0 ∧ incomingMessage.length ≤ v1ProtocolPayloadMaxSize

/-- `NetworkMessageRouterV1.route`, up to the call of a handler. -/
def route (R : Protobuf) (incomingMessage : Buffer) : Routed :=
  if preValidate incomingMessage then
    match MessageHeader.decode R incomingMessage with
    | none => .disconnected false
    | some decodedMessage =>
      if decodedMessage.type ≤ 0 then .disconnected false
      else
        match NetworkOperationType.ofCode decodedMessage.type with
        | some type => .handled type decodedMessage
        | none => .disconnected true
  else .disconnected false

end SettlementBus
