import SettlementBus.State.Address
import SettlementBus.Utils.Helpers

/-! `ApplyStateMessageBuilder.js`: how a wallet makes operations. -/

namespace SettlementBus

structure Wallet where
  address : Str
  sign : Buffer → Buffer

/-- The body of an operation that its requester has signed, without the validator's fields. -/
inductive PartialBody
  | rao : RoleAccessOperation Buffer → PartialBody
  | bdo : BootstrapDeploymentOperation Buffer → PartialBody
  | txo : TxOperation Buffer → PartialBody
  | tro : TransferOperation Buffer → PartialBody
  deriving DecidableEq

namespace PartialBody

def tx : PartialBody → Buffer
  | rao o => o.tx
  | bdo o => o.tx
  | txo o => o.tx
  | tro o => o.tx

def txv : PartialBody → Buffer
  | rao o => o.txv
  | bdo o => o.txv
  | txo o => o.txv
  | tro o => o.txv

def is : PartialBody → Buffer
  | rao o => o.is
  | bdo o => o.is
  | txo o => o.is
  | tro o => o.is

end PartialBody

/-- A body with all fields of its type. -/
inductive CompleteBody
  | cao : CoreAdminOperation Buffer → CompleteBody
  | aco : AdminControlOperation Buffer → CompleteBody
  | bio : BalanceInitializationOperation Buffer → CompleteBody
  | completed : PartialBody → Completion Buffer → CompleteBody
  deriving DecidableEq

namespace CompleteBody

def tx : CompleteBody → Buffer
  | cao o => o.tx
  | aco o => o.tx
  | bio o => o.tx
  | completed o _ => o.tx

def is : CompleteBody → Buffer
  | cao o => o.is
  | aco o => o.is
  | bio o => o.is
  | completed o _ => o.is

end CompleteBody

/-- The fields of an object that does not have `va`, `vn` and `vs`. -/
def Completion.absent : Completion Field := { va := .undefined, vn := .undefined, vs := .undefined }

def PartialBody.toBody (c : Completion Field) : PartialBody → Body
  | rao o => .rao o.toField c
  | bdo o => .bdo o.toField c
  | txo o => .txo o.toField c
  | tro o => .tro o.toField c

def CompleteBody.toBody : CompleteBody → Body
  | cao o => .cao o.toField
  | aco o => .aco o.toField
  | bio o => .bio o.toField
  | completed o c => o.toBody c.toField

structure Payload (β : Type) where
  type : OperationType
  address : Buffer
  body : β
  deriving DecidableEq

/-- The object the builder returns in buffer form. -/
def Payload.toOperation {β : Type} (toBody : β → Body) (p : Payload β) : Operation where
  type := p.type.code
  address := .buffer p.address
  value := some (toBody p.body)

/-- The fields the setters fill. -/
structure Builder where
  operationType : Option OperationType := none
  address : Option Buffer := none
  amount : Option Buffer := none
  channel : Option Buffer := none
  contentHash : Option Buffer := none
  externalBootstrap : Option Buffer := none
  incomingAddress : Option Buffer := none
  incomingNonce : Option Buffer := none
  incomingSignature : Option Buffer := none
  incomingWriterKey : Option Buffer := none
  msbBootstrap : Option Buffer := none
  txHash : Option Buffer := none
  txValidity : Option Buffer := none
  writingKey : Option Buffer := none

def normalizeHexBuffer (expectedBytes : ℕ) : Input → Option Buffer
  | .buffer value => if value.length = expectedBytes then some value else none
  | .string value =>
    if isHexString value ∧ value.length = expectedBytes * 2 then some (fromHex value) else none

def normalizeAddress (env : Env) : Input → Option Buffer
  | .buffer address => (bufferToAddress env address).map fun _ => address
  | .string address =>
    if isAddressValid env address then some (addressToBuffer env address) else none

namespace Builder

variable (env : Env) (wallet : Wallet) (nonce : Buffer) (value : Input) (b : Builder)

/-! ### The setters, which throw for a value of another size -/

def setOperationType (operationType : OperationType) : Builder :=
  { b with operationType := some operationType }

def setAddress : Option Builder := do
  return { b with address := some (← normalizeAddress env value) }

def setWriterKey : Option Builder := do
  return { b with writingKey := some (← normalizeHexBuffer 32 value) }

def setTxHash : Option Builder := do
  return { b with txHash := some (← normalizeHexBuffer 32 value) }

def setIncomingAddress : Option Builder := do
  return { b with incomingAddress := some (← normalizeAddress env value) }

def setIncomingWriterKey : Option Builder := do
  return { b with incomingWriterKey := some (← normalizeHexBuffer 32 value) }

def setIncomingNonce : Option Builder := do
  return { b with incomingNonce := some (← normalizeHexBuffer 32 value) }

def setContentHash : Option Builder := do
  return { b with contentHash := some (← normalizeHexBuffer 32 value) }

def setIncomingSignature : Option Builder := do
  return { b with incomingSignature := some (← normalizeHexBuffer 64 value) }

def setExternalBootstrap : Option Builder := do
  return { b with externalBootstrap := some (← normalizeHexBuffer 32 value) }

def setMsbBootstrap : Option Builder := do
  return { b with msbBootstrap := some (← normalizeHexBuffer 32 value) }

def setChannel : Option Builder := do
  return { b with channel := some (← normalizeHexBuffer 32 value) }

def setTxValidity : Option Builder := do
  return { b with txValidity := some (← normalizeHexBuffer 32 value) }

def setAmount : Option Builder := do
  return { b with amount := some (← normalizeHexBuffer 16 value) }

/-! ### The bodies -/

/-- The wallet signs the hash of a message, which is never empty. -/
def signMessage (args : List MessagePart) : Buffer × Buffer :=
  let tx := env.crypto.blake3Safe (createMessage args)
  (tx, wallet.sign tx)

/-- `nonce` is what `nonce.generate` returns. -/
def buildPartialBody (type : OperationType) : Option PartialBody := do
  let networkId := env.config.networkId
  match type with
  | .addWriter | .removeWriter | .adminRecovery =>
    let txv ← b.txValidity
    let iw ← b.writingKey
    let (tx, is) := signMessage env wallet [.number networkId, .buffer txv, .buffer iw,
      .buffer nonce, .number type.code]
    return .rao { tx, txv, iw, in_ := nonce, is }
  | .bootstrapDeployment =>
    let txv ← b.txValidity
    let bs ← b.externalBootstrap
    let ic ← b.channel
    let (tx, is) := signMessage env wallet [.number networkId, .buffer txv, .buffer bs, .buffer ic,
      .buffer nonce, .number OperationType.bootstrapDeployment.code]
    return .bdo { tx, txv, bs, ic, in_ := nonce, is }
  | .tx =>
    let txv ← b.txValidity
    let iw ← b.writingKey
    let ch ← b.contentHash
    let bs ← b.externalBootstrap
    let mbs ← b.msbBootstrap
    let (tx, is) := signMessage env wallet [.number networkId, .buffer txv, .buffer iw, .buffer ch,
      .buffer bs, .buffer mbs, .buffer nonce, .number OperationType.tx.code]
    return .txo { tx, txv, iw, ch, bs, mbs, in_ := nonce, is }
  | .transfer =>
    let txv ← b.txValidity
    let to_ ← b.incomingAddress
    let am ← b.amount
    let (tx, is) := signMessage env wallet [.number networkId, .buffer txv, .buffer to_, .buffer am,
      .buffer nonce, .number OperationType.transfer.code]
    return .tro { tx, txv, to_, am, in_ := nonce, is }
  | _ => none

/-- The fields the validator's wallet adds to an operation with the hash `txHash`. -/
def complete (type : OperationType) (txHash : Buffer) : Completion Buffer :=
  let (_, vs) := signMessage env wallet [.number env.config.networkId, .buffer txHash,
    .buffer nonce, .number type.code]
  { va := addressToBuffer env wallet.address, vn := nonce, vs }

def buildCompleteBody (type : OperationType) : Option CompleteBody := do
  let networkId := env.config.networkId
  match type with
  | .addAdmin | .disableInitialization =>
    let txv ← b.txValidity
    let iw ← b.writingKey
    let (tx, is) := signMessage env wallet [.number networkId, .buffer txv, .buffer iw,
      .buffer nonce, .number type.code]
    return .cao { tx, txv, iw, in_ := nonce, is }
  | .balanceInitialization =>
    let txv ← b.txValidity
    let ia ← b.incomingAddress
    let am ← b.amount
    let (tx, is) := signMessage env wallet [.number networkId, .buffer txv, .buffer ia, .buffer am,
      .buffer nonce, .number type.code]
    return .bio { tx, txv, ia, am, in_ := nonce, is }
  | .appendWhitelist | .addIndexer | .removeIndexer | .banValidator =>
    let txv ← b.txValidity
    let ia ← b.incomingAddress
    guard (bufferToAddress env ia ≠ some wallet.address)
    let (tx, is) := signMessage env wallet [.number networkId, .buffer txv, .buffer ia,
      .buffer nonce, .number type.code]
    return .aco { tx, txv, ia, in_ := nonce, is }
  | .addWriter | .removeWriter | .adminRecovery =>
    let tx ← b.txHash
    let txv ← b.txValidity
    let iw ← b.incomingWriterKey
    let in_ ← b.incomingNonce
    let is ← b.incomingSignature
    return .completed (.rao { tx, txv, iw, in_, is }) (complete env wallet nonce type tx)
  | .bootstrapDeployment =>
    let tx ← b.txHash
    let txv ← b.txValidity
    let bs ← b.externalBootstrap
    let ic ← b.channel
    let in_ ← b.incomingNonce
    let is ← b.incomingSignature
    return .completed (.bdo { tx, txv, bs, ic, in_, is }) (complete env wallet nonce type tx)
  | .tx =>
    let tx ← b.txHash
    let txv ← b.txValidity
    let iw ← b.incomingWriterKey
    let in_ ← b.incomingNonce
    let is ← b.incomingSignature
    let ch ← b.contentHash
    let bs ← b.externalBootstrap
    let mbs ← b.msbBootstrap
    return .completed (.txo { tx, txv, iw, ch, bs, mbs, in_, is })
      (complete env wallet nonce type tx)
  | .transfer =>
    let tx ← b.txHash
    let txv ← b.txValidity
    let to_ ← b.incomingAddress
    let am ← b.amount
    let in_ ← b.incomingNonce
    let is ← b.incomingSignature
    return .completed (.tro { tx, txv, to_, am, in_, is }) (complete env wallet nonce type tx)

/-- `build` and `getPayload` in the partial phase. -/
def buildPartial : Option (Payload PartialBody) := do
  let type ← b.operationType
  let address ← b.address
  let body ← b.buildPartialBody env wallet nonce type
  return { type, address, body }

/-- `build` and `getPayload` in the complete phase. -/
def buildComplete : Option (Payload CompleteBody) := do
  let type ← b.operationType
  let address ← b.address
  let body ← b.buildCompleteBody env wallet nonce type
  return { type, address, body }

end Builder

/-! ### The accepted values -/

variable {env : Env}

theorem normalizeHexBuffer_length {n : ℕ} {value : Input} {b : Buffer}
    (h : normalizeHexBuffer n value = some b) : b.length = n := by
  cases value with
  | buffer value =>
    simp only [normalizeHexBuffer, Option.ite_none_right_eq_some, Option.some.injEq] at h
    exact h.2 ▸ h.1
  | string value =>
    simp only [normalizeHexBuffer, Option.ite_none_right_eq_some, Option.some.injEq] at h
    obtain ⟨⟨-, hlen⟩, rfl⟩ := h
    rw [length_fromHex (by omega), hlen, Nat.mul_div_cancel n two_pos]

theorem normalizeAddress_ascii {value : Input} {b : Buffer}
    (h : normalizeAddress env value = some b) (hascii : value.Ascii) : AsciiAddress env b := by
  cases value with
  | buffer address =>
    simp only [normalizeAddress, Option.map_eq_some_iff] at h
    obtain ⟨s, hs, rfl⟩ := h
    obtain ⟨hvalid, rfl⟩ := bufferToAddress_eq_some.mp hs
    exact ⟨hascii, hvalid⟩
  | string address =>
    simp only [normalizeAddress, Option.ite_none_right_eq_some, Option.some.injEq] at h
    obtain ⟨hvalid, rfl⟩ := h
    rw [addressToBuffer, if_pos hvalid]
    exact .of_string hascii hvalid

theorem normalizeHexBuffer_buffer {n : ℕ} {b : Buffer} (h : b.length = n) :
    normalizeHexBuffer n (.buffer b) = some b := if_pos h

theorem normalizeAddress_buffer {b : Buffer} (h : AsciiAddress env b) :
    normalizeAddress env (.buffer b) = some b := by
  rw [normalizeAddress, h.bufferToAddress, Option.map_some]

end SettlementBus
