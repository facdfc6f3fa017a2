import SettlementBus.Messages.Builder

/-! `ApplyStateMessageDirector.js`: which setters a builder needs for a type. -/

namespace SettlementBus.Director

open Builder

variable (env : Env) (wallet : Wallet) (nonce : Buffer) (invokerAddress : Input)

/-! ### Partial messages -/

def buildPartialRoleAccessMessage (type : OperationType) (writingKey txValidity : Input) :
    Option (Payload PartialBody) := do
  let b := ({} : Builder).setOperationType type
  let b ← b.setAddress env invokerAddress
  let b ← b.setTxValidity txValidity
  let b ← b.setWriterKey writingKey
  b.buildPartial env wallet nonce

def buildPartialAddWriterMessage :=
  buildPartialRoleAccessMessage env wallet nonce invokerAddress .addWriter

def buildPartialRemoveWriterMessage :=
  buildPartialRoleAccessMessage env wallet nonce invokerAddress .removeWriter

def buildPartialAdminRecoveryMessage :=
  buildPartialRoleAccessMessage env wallet nonce invokerAddress .adminRecovery

def buildPartialTransactionOperationMessage (incomingWritingKey txValidity contentHash
    externalBootstrap msbBootstrap : Input) : Option (Payload PartialBody) := do
  let b := ({} : Builder).setOperationType .tx
  let b ← b.setAddress env invokerAddress
  let b ← b.setTxValidity txValidity
  let b ← b.setWriterKey incomingWritingKey
  let b ← b.setContentHash contentHash
  let b ← b.setExternalBootstrap externalBootstrap
  let b ← b.setMsbBootstrap msbBootstrap
  b.buildPartial env wallet nonce

def buildPartialBootstrapDeploymentMessage (bootstrap channel txValidity : Input) :
    Option (Payload PartialBody) := do
  let b := ({} : Builder).setOperationType .bootstrapDeployment
  let b ← b.setAddress env invokerAddress
  let b ← b.setTxValidity txValidity
  let b ← b.setExternalBootstrap bootstrap
  let b ← b.setChannel channel
  b.buildPartial env wallet nonce

def buildPartialTransferOperationMessage (recipientAddress amount txValidity : Input) :
    Option (Payload PartialBody) := do
  let b := ({} : Builder).setOperationType .transfer
  let b ← b.setAddress env invokerAddress
  let b ← b.setTxValidity txValidity
  let b ← b.setIncomingAddress env recipientAddress
  let b ← b.setAmount amount
  b.buildPartial env wallet nonce

/-! ### Complete messages of the admin -/

def buildCompleteCoreAdminMessage (type : OperationType) (writingKey txValidity : Input) :
    Option (Payload CompleteBody) := do
  let b := ({} : Builder).setOperationType type
  let b ← b.setAddress env invokerAddress
  let b ← b.setWriterKey writingKey
  let b ← b.setTxValidity txValidity
  b.buildComplete env wallet nonce

def buildCompleteAddAdminMessage :=
  buildCompleteCoreAdminMessage env wallet nonce invokerAddress .addAdmin

def buildCompleteDisableInitializationMessage :=
  buildCompleteCoreAdminMessage env wallet nonce invokerAddress .disableInitialization

def buildCompleteBalanceInitializationMessage (recipientAddress amount txValidity : Input) :
    Option (Payload CompleteBody) := do
  let b := ({} : Builder).setOperationType .balanceInitialization
  let b ← b.setAddress env invokerAddress
  let b ← b.setIncomingAddress env recipientAddress
  let b ← b.setAmount amount
  let b ← b.setTxValidity txValidity
  b.buildComplete env wallet nonce

def buildCompleteAdminControlMessage (type : OperationType) (incomingAddress txValidity : Input) :
    Option (Payload CompleteBody) := do
  let b := ({} : Builder).setOperationType type
  let b ← b.setAddress env invokerAddress
  let b ← b.setTxValidity txValidity
  let b ← b.setIncomingAddress env incomingAddress
  b.buildComplete env wallet nonce

def buildCompleteAppendWhitelistMessage :=
  buildCompleteAdminControlMessage env wallet nonce invokerAddress .appendWhitelist

def buildCompleteAddIndexerMessage :=
  buildCompleteAdminControlMessage env wallet nonce invokerAddress .addIndexer

def buildCompleteRemoveIndexerMessage :=
  buildCompleteAdminControlMessage env wallet nonce invokerAddress .removeIndexer

def buildCompleteBanWriterMessage :=
  buildCompleteAdminControlMessage env wallet nonce invokerAddress .banValidator

/-! ### Complete messages of a validator -/

def buildCompleteRoleAccessMessage (type : OperationType) (txHash txValidity incomingWritingKey
    incomingNonce incomingSignature : Input) : Option (Payload CompleteBody) := do
  let b := ({} : Builder).setOperationType type
  let b ← b.setAddress env invokerAddress
  let b ← b.setTxHash txHash
  let b ← b.setTxValidity txValidity
  let b ← b.setIncomingWriterKey incomingWritingKey
  let b ← b.setIncomingNonce incomingNonce
  let b ← b.setIncomingSignature incomingSignature
  b.buildComplete env wallet nonce

def buildCompleteAddWriterMessage :=
  buildCompleteRoleAccessMessage env wallet nonce invokerAddress .addWriter

def buildCompleteRemoveWriterMessage :=
  buildCompleteRoleAccessMessage env wallet nonce invokerAddress .removeWriter

def buildCompleteAdminRecoveryMessage :=
  buildCompleteRoleAccessMessage env wallet nonce invokerAddress .adminRecovery

def buildCompleteTransactionOperationMessage (txHash txValidity incomingWriterKey incomingNonce
    contentHash incomingSignature externalBootstrap msbBootstrap : Input) :
    Option (Payload CompleteBody) := do
  let b := ({} : Builder).setOperationType .tx
  let b ← b.setAddress env invokerAddress
  let b ← b.setTxHash txHash
  let b ← b.setTxValidity txValidity
  let b ← b.setIncomingWriterKey incomingWriterKey
  let b ← b.setIncomingNonce incomingNonce
  let b ← b.setContentHash contentHash
  let b ← b.setIncomingSignature incomingSignature
  let b ← b.setExternalBootstrap externalBootstrap
  let b ← b.setMsbBootstrap msbBootstrap
  b.buildComplete env wallet nonce

def buildCompleteBootstrapDeploymentMessage (transactionHash txValidity externalBootstrap channel
    incomingNonce incomingSignature : Input) : Option (Payload CompleteBody) := do
  let b := ({} : Builder).setOperationType .bootstrapDeployment
  let b ← b.setAddress env invokerAddress
  let b ← b.setTxHash transactionHash
  let b ← b.setTxValidity txValidity
  let b ← b.setExternalBootstrap externalBootstrap
  let b ← b.setChannel channel
  let b ← b.setIncomingNonce incomingNonce
  let b ← b.setIncomingSignature incomingSignature
  b.buildComplete env wallet nonce

def buildCompleteTransferOperationMessage (transactionHash txValidity incomingNonce recipientAddress
    amount incomingSignature : Input) : Option (Payload CompleteBody) := do
  let b := ({} : Builder).setOperationType .transfer
  let b ← b.setAddress env invokerAddress
  let b ← b.setTxHash transactionHash
  let b ← b.setTxValidity txValidity
  let b ← b.setIncomingNonce incomingNonce
  let b ← b.setIncomingAddress env recipientAddress
  let b ← b.setAmount amount
  let b ← b.setIncomingSignature incomingSignature
  b.buildComplete env wallet nonce

end SettlementBus.Director

namespace SettlementBus

/-! ### What the directors build -/

section

variable {env : Env} {wallet : Wallet} {nonce : Buffer} {invokerAddress txValidity : Input}
  {address txv : Buffer}

theorem buildPartialRoleAccessMessage_eq {type : OperationType} {writingKey : Input} {iw : Buffer}
    (htype : type ∈ [OperationType.addWriter, .removeWriter, .adminRecovery])
    (ha : normalizeAddress env invokerAddress = some address)
    (ht : normalizeHexBuffer 32 txValidity = some txv)
    (hiw : normalizeHexBuffer 32 writingKey = some iw) :
    Director.buildPartialRoleAccessMessage env wallet nonce invokerAddress type writingKey
        txValidity =
      let (tx, is) := Builder.signMessage env wallet [.number env.config.networkId, .buffer txv,
        .buffer iw, .buffer nonce, .number type.code]
      some { type, address, body := .rao { tx, txv, iw, in_ := nonce, is } } := by
  simp only [List.mem_cons, List.not_mem_nil, or_false] at htype
  obtain rfl | rfl | rfl := htype <;>
    simp [Director.buildPartialRoleAccessMessage, Builder.setOperationType, Builder.setAddress,
      Builder.setTxValidity, Builder.setWriterKey, Builder.buildPartial, Builder.buildPartialBody,
      ha, ht, hiw]

end

section

variable {env : Env} {wallet : Wallet} {address tx txv in_ is vn : Buffer}
  {invokerAddress txHash txValidity incomingNonce incomingSignature : Input}
  (ha : normalizeAddress env invokerAddress = some address)
  (htx : normalizeHexBuffer 32 txHash = some tx)
  (htxv : normalizeHexBuffer 32 txValidity = some txv)
  (hin : normalizeHexBuffer 32 incomingNonce = some in_)
  (his : normalizeHexBuffer 64 incomingSignature = some is)

include ha htx htxv hin his

theorem buildCompleteRoleAccessMessage_eq {type : OperationType} {incomingWritingKey : Input}
    {iw : Buffer} (htype : type ∈ [OperationType.addWriter, .removeWriter, .adminRecovery])
    (hiw : normalizeHexBuffer 32 incomingWritingKey = some iw) :
    Director.buildCompleteRoleAccessMessage env wallet vn invokerAddress type txHash txValidity
        incomingWritingKey incomingNonce incomingSignature =
      some { type, address, body := .completed (.rao { tx, txv, iw, in_, is })
              (Builder.complete env wallet vn type tx) } := by
  simp only [Director.buildCompleteRoleAccessMessage, Builder.setOperationType, Builder.setAddress,
    Builder.setTxHash, Builder.setTxValidity, Builder.setIncomingWriterKey,
    Builder.setIncomingNonce, Builder.setIncomingSignature, Builder.buildComplete, ha, htx, htxv,
    hiw, hin, his, Option.bind_eq_bind, Option.bind_some, Option.pure_def]
  simp only [List.mem_cons, List.not_mem_nil, or_false] at htype
  obtain rfl | rfl | rfl := htype <;> rfl

theorem buildCompleteTransactionOperationMessage_eq {incomingWriterKey contentHash
      externalBootstrap msbBootstrap : Input} {iw ch bs mbs : Buffer}
    (hiw : normalizeHexBuffer 32 incomingWriterKey = some iw)
    (hch : normalizeHexBuffer 32 contentHash = some ch)
    (hbs : normalizeHexBuffer 32 externalBootstrap = some bs)
    (hmbs : normalizeHexBuffer 32 msbBootstrap = some mbs) :
    Director.buildCompleteTransactionOperationMessage env wallet vn invokerAddress txHash
        txValidity incomingWriterKey incomingNonce contentHash incomingSignature externalBootstrap
        msbBootstrap =
      some { type := .tx, address, body := .completed (.txo { tx, txv, iw, ch, bs, mbs, in_, is })
              (Builder.complete env wallet vn .tx tx) } := by
  simp only [Director.buildCompleteTransactionOperationMessage, Builder.setOperationType,
    Builder.setAddress, Builder.setTxHash, Builder.setTxValidity, Builder.setIncomingWriterKey,
    Builder.setIncomingNonce, Builder.setContentHash, Builder.setIncomingSignature,
    Builder.setExternalBootstrap, Builder.setMsbBootstrap, Builder.buildComplete, ha, htx, htxv,
    hiw, hch, hbs, hmbs, hin, his, Option.bind_eq_bind, Option.bind_some, Option.pure_def]
  rfl

theorem buildCompleteBootstrapDeploymentMessage_eq {externalBootstrap channel : Input}
    {bs ic : Buffer} (hbs : normalizeHexBuffer 32 externalBootstrap = some bs)
    (hic : normalizeHexBuffer 32 channel = some ic) :
    Director.buildCompleteBootstrapDeploymentMessage env wallet vn invokerAddress txHash txValidity
        externalBootstrap channel incomingNonce incomingSignature =
      some { type := .bootstrapDeployment, address,
             body := .completed (.bdo { tx, txv, bs, ic, in_, is })
              (Builder.complete env wallet vn .bootstrapDeployment tx) } := by
  simp only [Director.buildCompleteBootstrapDeploymentMessage, Builder.setOperationType,
    Builder.setAddress, Builder.setTxHash, Builder.setTxValidity, Builder.setExternalBootstrap,
    Builder.setChannel, Builder.setIncomingNonce, Builder.setIncomingSignature,
    Builder.buildComplete, ha, htx, htxv, hbs, hic, hin, his, Option.bind_eq_bind,
    Option.bind_some, Option.pure_def]
  rfl

theorem buildCompleteTransferOperationMessage_eq {recipientAddress amount : Input}
    {to_ am : Buffer} (hto : normalizeAddress env recipientAddress = some to_)
    (ham : normalizeHexBuffer 16 amount = some am) :
    Director.buildCompleteTransferOperationMessage env wallet vn invokerAddress txHash txValidity
        incomingNonce recipientAddress amount incomingSignature =
      some { type := .transfer, address, body := .completed (.tro { tx, txv, to_, am, in_, is })
              (Builder.complete env wallet vn .transfer tx) } := by
  simp only [Director.buildCompleteTransferOperationMessage, Builder.setOperationType,
    Builder.setAddress, Builder.setTxHash, Builder.setTxValidity, Builder.setIncomingNonce,
    Builder.setIncomingAddress, Builder.setAmount, Builder.setIncomingSignature,
    Builder.buildComplete, ha, htx, htxv, hto, ham, hin, his, Option.bind_eq_bind,
    Option.bind_some, Option.pure_def]
  rfl

end

end SettlementBus
