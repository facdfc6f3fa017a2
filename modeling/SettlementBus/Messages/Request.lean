import SettlementBus.Messages.Json
import SettlementBus.Messages.Strategies

/-! What users and the admin ask a director for. -/

namespace SettlementBus

/-- The values of an operation that a user requests. -/
inductive Request (α : Type)
  | addWriter (iw : α)
  | removeWriter (iw : α)
  | adminRecovery (iw : α)
  | bootstrapDeployment (bs ic : α)
  | tx (iw ch bs mbs : α)
  | transfer (to_ am : α)
  deriving DecidableEq

/-- The values of an operation of the admin. -/
inductive AdminRequest (α : Type)
  | addAdmin (iw : α)
  | disableInitialization (iw : α)
  | balanceInitialization (ia am : α)
  | appendWhitelist (ia : α)
  | addIndexer (ia : α)
  | removeIndexer (ia : α)
  | banValidator (ia : α)

namespace Request

variable (env : Env) (wallet : Wallet) (nonce : Buffer)

def type {α : Type} : Request α → OperationType
  | addWriter _ => .addWriter
  | removeWriter _ => .removeWriter
  | adminRecovery _ => .adminRecovery
  | bootstrapDeployment _ _ => .bootstrapDeployment
  | tx _ _ _ _ => .tx
  | transfer _ _ => .transfer

/-- The values have the right lengths, as buffers or as strings, and their buffers are these. -/
def normalize : Request Input → Option (Request Buffer)
  | .addWriter iw => return .addWriter (← normalizeHexBuffer 32 iw)
  | .removeWriter iw => return .removeWriter (← normalizeHexBuffer 32 iw)
  | .adminRecovery iw => return .adminRecovery (← normalizeHexBuffer 32 iw)
  | .bootstrapDeployment bs ic =>
    return .bootstrapDeployment (← normalizeHexBuffer 32 bs) (← normalizeHexBuffer 32 ic)
  | .tx iw ch bs mbs =>
    return .tx (← normalizeHexBuffer 32 iw) (← normalizeHexBuffer 32 ch)
      (← normalizeHexBuffer 32 bs) (← normalizeHexBuffer 32 mbs)
  | .transfer to_ am => return .transfer (← normalizeAddress env to_) (← normalizeHexBuffer 16 am)

def build (invokerAddress txValidity : Input) : Request Input → Option (Payload PartialBody)
  | .addWriter iw =>
    Director.buildPartialAddWriterMessage env wallet nonce invokerAddress iw txValidity
  | .removeWriter iw =>
    Director.buildPartialRemoveWriterMessage env wallet nonce invokerAddress iw txValidity
  | .adminRecovery iw =>
    Director.buildPartialAdminRecoveryMessage env wallet nonce invokerAddress iw txValidity
  | .bootstrapDeployment bs ic =>
    Director.buildPartialBootstrapDeploymentMessage env wallet nonce invokerAddress bs ic txValidity
  | .tx iw ch bs mbs =>
    Director.buildPartialTransactionOperationMessage env wallet nonce invokerAddress iw txValidity
      ch bs mbs
  | .transfer to_ am =>
    Director.buildPartialTransferOperationMessage env wallet nonce invokerAddress to_ am txValidity

/-- The body with a hash and a signature. -/
def body (txv tx is : Buffer) : Request Buffer → PartialBody
  | .addWriter iw | .removeWriter iw | .adminRecovery iw => .rao { tx, txv, iw, in_ := nonce, is }
  | .bootstrapDeployment bs ic => .bdo { tx, txv, bs, ic, in_ := nonce, is }
  | .tx iw ch bs mbs => .txo { tx, txv, iw, ch, bs, mbs, in_ := nonce, is }
  | .transfer to_ am => .tro { tx, txv, to_, am, in_ := nonce, is }

/-- The message whose hash the builder signs. -/
def message (txv : Buffer) : Request Buffer → List MessagePart
  | .addWriter iw => [.number env.config.networkId, .buffer txv, .buffer iw, .buffer nonce,
      .number OperationType.addWriter.code]
  | .removeWriter iw => [.number env.config.networkId, .buffer txv, .buffer iw, .buffer nonce,
      .number OperationType.removeWriter.code]
  | .adminRecovery iw => [.number env.config.networkId, .buffer txv, .buffer iw, .buffer nonce,
      .number OperationType.adminRecovery.code]
  | .bootstrapDeployment bs ic => [.number env.config.networkId, .buffer txv, .buffer bs,
      .buffer ic, .buffer nonce, .number OperationType.bootstrapDeployment.code]
  | .tx iw ch bs mbs => [.number env.config.networkId, .buffer txv, .buffer iw, .buffer ch,
      .buffer bs, .buffer mbs, .buffer nonce, .number OperationType.tx.code]
  | .transfer to_ am => [.number env.config.networkId, .buffer txv, .buffer to_, .buffer am,
      .buffer nonce, .number OperationType.transfer.code]

def payload (address txv : Buffer) (r : Request Buffer) : Payload PartialBody :=
  let signed := Builder.signMessage env wallet (r.message env nonce txv)
  { type := r.type, address, body := r.body nonce txv signed.1 signed.2 }

/-- The addresses are 7-bit. -/
def Ascii : Request Input → Prop
  | .transfer to_ _ => to_.Ascii
  | _ => True

/-- The buffers have the lengths of their fields. -/
def Sized : Request Buffer → Prop
  | .addWriter iw | .removeWriter iw | .adminRecovery iw => iw.length = 32
  | .bootstrapDeployment bs ic => bs.length = 32 ∧ ic.length = 32
  | .tx iw ch bs mbs => iw.length = 32 ∧ ch.length = 32 ∧ bs.length = 32 ∧ mbs.length = 32
  | .transfer to_ am => AsciiAddress env to_ ∧ am.length = 16

end Request

namespace AdminRequest

variable (env : Env) (wallet : Wallet) (nonce : Buffer)

def build (invokerAddress txValidity : Input) : AdminRequest Input → Option (Payload CompleteBody)
  | .addAdmin iw =>
    Director.buildCompleteAddAdminMessage env wallet nonce invokerAddress iw txValidity
  | .disableInitialization iw =>
    Director.buildCompleteDisableInitializationMessage env wallet nonce invokerAddress iw txValidity
  | .balanceInitialization ia am =>
    Director.buildCompleteBalanceInitializationMessage env wallet nonce invokerAddress ia am
      txValidity
  | .appendWhitelist ia =>
    Director.buildCompleteAppendWhitelistMessage env wallet nonce invokerAddress ia txValidity
  | .addIndexer ia =>
    Director.buildCompleteAddIndexerMessage env wallet nonce invokerAddress ia txValidity
  | .removeIndexer ia =>
    Director.buildCompleteRemoveIndexerMessage env wallet nonce invokerAddress ia txValidity
  | .banValidator ia =>
    Director.buildCompleteBanWriterMessage env wallet nonce invokerAddress ia txValidity

end AdminRequest

/-! ### The payload of a request -/

variable {env : Env} {wallet : Wallet} {nonce : Buffer}

theorem Request.normalize_sized {r : Request Input} {v : Request Buffer}
    (h : r.normalize env = some v) (hascii : r.Ascii) : v.Sized env := by
  cases r <;> simp only [normalize, Option.bind_eq_bind, Option.bind_eq_some_iff, Option.pure_def,
    Option.some.injEq] at h
  case addWriter | removeWriter | adminRecovery =>
    obtain ⟨_, hiw, rfl⟩ := h
    exact normalizeHexBuffer_length hiw
  case bootstrapDeployment =>
    obtain ⟨_, hbs, _, hic, rfl⟩ := h
    exact ⟨normalizeHexBuffer_length hbs, normalizeHexBuffer_length hic⟩
  case tx =>
    obtain ⟨_, hiw, _, hch, _, hbs, _, hmbs, rfl⟩ := h
    exact ⟨normalizeHexBuffer_length hiw, normalizeHexBuffer_length hch,
      normalizeHexBuffer_length hbs, normalizeHexBuffer_length hmbs⟩
  case transfer =>
    obtain ⟨_, hto, _, ham, rfl⟩ := h
    exact ⟨normalizeAddress_ascii hto hascii, normalizeHexBuffer_length ham⟩

section

variable {invokerAddress txValidity : Input} {address txv : Buffer}

theorem Request.build_eq {r : Request Input} {v : Request Buffer}
    (ha : normalizeAddress env invokerAddress = some address)
    (ht : normalizeHexBuffer 32 txValidity = some txv) (hr : r.normalize env = some v) :
    r.build env wallet nonce invokerAddress txValidity =
      some (v.payload env wallet nonce address txv) := by
  cases r <;> simp only [normalize, Option.bind_eq_bind, Option.bind_eq_some_iff, Option.pure_def,
    Option.some.injEq] at hr
  case addWriter | removeWriter | adminRecovery =>
    obtain ⟨_, hiw, rfl⟩ := hr
    exact buildPartialRoleAccessMessage_eq (by simp) ha ht hiw
  case bootstrapDeployment =>
    obtain ⟨_, hbs, _, hic, rfl⟩ := hr
    simp [build, Director.buildPartialBootstrapDeploymentMessage, Builder.setOperationType,
      Builder.setAddress, Builder.setTxValidity, Builder.setExternalBootstrap, Builder.setChannel,
      Builder.buildPartial, Builder.buildPartialBody, ha, ht, hbs, hic, payload, message, body, type]
  case tx =>
    obtain ⟨_, hiw, _, hch, _, hbs, _, hmbs, rfl⟩ := hr
    simp [build, Director.buildPartialTransactionOperationMessage, Builder.setOperationType,
      Builder.setAddress, Builder.setTxValidity, Builder.setWriterKey, Builder.setContentHash,
      Builder.setExternalBootstrap, Builder.setMsbBootstrap, Builder.buildPartial,
      Builder.buildPartialBody, ha, ht, hiw, hch, hbs, hmbs, payload, message, body, type]
  case transfer =>
    obtain ⟨_, hto, _, ham, rfl⟩ := hr
    simp [build, Director.buildPartialTransferOperationMessage, Builder.setOperationType,
      Builder.setAddress, Builder.setTxValidity, Builder.setIncomingAddress, Builder.setAmount,
      Builder.buildPartial, Builder.buildPartialBody, ha, ht, hto, ham, payload, message, body, type]

end

end SettlementBus
