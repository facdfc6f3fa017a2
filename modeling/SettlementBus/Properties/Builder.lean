import SettlementBus.Messages.Preimage
import SettlementBus.Messages.Request
import SettlementBus.Sample
import SettlementBus.Steps.Verified
import SettlementBus.Validators.Partial

/-! What a builder makes passes the pre-validator and the signature checks of `#apply`. -/

namespace SettlementBus

open Lib

section

variable {env : Env} {wallet : Wallet} {nonce txv : Buffer}

/-- The wallet's address is a valid one of 7 bits, and its key verifies its signatures of hashes. -/
structure Wallet.Correct (env : Env) (wallet : Wallet) : Prop where
  ascii : ∀ c ∈ wallet.address, c.toNat < 128
  valid : isAddressValid env wallet.address
  publicKey : env.crypto.decodeSafe wallet.address ≠ nullBuffer
  length_sign : ∀ hash, (wallet.sign hash).length = signatureByteLength
  verify_sign : ∀ message, env.crypto.verify (wallet.sign (env.crypto.blake3Safe message))
    (env.crypto.blake3Safe message) (env.crypto.decodeSafe wallet.address)

/-- `blake3` returns 32 bytes for every message that is not empty. -/
def TracCryptoApi.HashSized (crypto : TracCryptoApi) : Prop :=
  ∀ message, message ≠ [] → (crypto.blake3Safe message).length = hashByteLength

/-- What the pre-validator sees of a payload without the validator's fields. -/
def Payload.toPartial (p : Payload PartialBody) : PartialPayload :=
  { type := p.type, address := p.address, body := p.body, completion := none }

/-- The operation of a payload without the validator's fields. -/
def Payload.toPartialOperation (p : Payload PartialBody) : Operation :=
  p.toOperation (PartialBody.toBody .absent)

/-- As the decoder returns it. -/
def Payload.toDecodedOperation (p : Payload PartialBody) : Operation :=
  p.toOperation (PartialBody.toBody Completion.absent.decoded)

/-- The handler finds the requester, recomputes the hash and accepts the signature. -/
def Payload.RequesterAccepted (env : Env) (p : Payload CompleteBody) : Prop :=
  ∃ requester, party env p.address = .ok requester ∧
    verifyRequester env (p.body.message env p.type) p.body.tx p.body.is requester.publicKey = .ok ()

/-- The handler finds the validator and accepts its signature. -/
def ValidatorAccepted (env : Env) (type : OperationType) (tx : Buffer) (c : Completion Buffer) :
    Prop := ∃ validator, verifyValidator env type tx c = .ok validator

/-- A transaction names the bootstrap key of the network. -/
def Request.NetworkBootstrap (env : Env) : Request Buffer → Prop
  | .tx _ _ _ mbs => mbs = env.config.bootstrap
  | _ => True

namespace Wallet.Correct

variable (h : wallet.Correct env)

include h

theorem address : AsciiAddress env (fromAscii wallet.address) := .of_string h.ascii h.valid

theorem bufferToAddress : bufferToAddress env (fromAscii wallet.address) = some wallet.address := by
  rw [h.address.bufferToAddress, toAscii_fromAscii h.ascii]

theorem party : party env (fromAscii wallet.address) =
    .ok { address := wallet.address, publicKey := env.crypto.decodeSafe wallet.address } :=
  party_eq_ok.mpr ⟨h.bufferToAddress, rfl, h.publicKey⟩

theorem addressToBuffer : addressToBuffer env wallet.address = fromAscii wallet.address :=
  if_pos h.valid

/-- A hash of a message that the wallet has signed is accepted as the requester's. -/
theorem verifyRequester {args : List MessagePart} (hne : createMessage args ≠ []) :
    SettlementBus.verifyRequester env args (Builder.signMessage env wallet args).1
      (Builder.signMessage env wallet args).2 (env.crypto.decodeSafe wallet.address) = .ok () :=
  verifyRequester_eq_ok.mpr ⟨hne, rfl, h.verify_sign _⟩

end Wallet.Correct

theorem createMessage_ne_nil {args : List MessagePart} {b : Buffer} (hb : b ≠ [])
    (h : .buffer b ∈ args) : createMessage args ≠ [] := by
  intro hnil
  rw [createMessage, List.flatten_eq_nil_iff] at hnil
  exact hb (hnil b (List.mem_filterMap.mpr ⟨_, h, rfl⟩))

theorem ne_nil_of_length {b : Buffer} {n : ℕ} (h : b.length = n + 1) : b ≠ [] :=
  List.ne_nil_of_length_eq_add_one h

/-! ### The partial payload -/

section

variable {v : Request Buffer} {address tx is : Buffer}

/-- Emitting a payload as JSON and reading it back gives its buffer form. -/
theorem Request.normalize_encodePayloadJson (hv : v.Sized env) (ha : AsciiAddress env address)
    (htxv : txv.length = 32) (hnonce : nonce.length = 32) (htx : tx.length = 32)
    (his : is.length = 64) :
    (encodePayloadJson env { type := v.type, address, body := v.body nonce txv tx is }).bind
        (normalizeMessageByOperationType env) =
      some (Payload.toPartialOperation
        { type := v.type, address, body := v.body nonce txv tx is }) := by
  have htxv := normalizeHexField_jsonHex (ne_nil_of_length htxv)
  have hnonce := normalizeHexField_jsonHex (ne_nil_of_length hnonce)
  have htx := normalizeHexField_jsonHex (ne_nil_of_length htx)
  have his := normalizeHexField_jsonHex (ne_nil_of_length his)
  cases v
  case addWriter iw | removeWriter iw | adminRecovery iw =>
    have hiw := normalizeHexField_jsonHex (ne_nil_of_length hv)
    simp [encodePayloadJson, ha.bufferToAddress, normalizeMessageByOperationType, type, body,
      normalizeRoleAccessOperation, PartialBody.encodeJson, normalizeAddressField_string ha, htxv,
      hnonce, htx, his, hiw, Payload.toPartialOperation, Payload.toOperation, PartialBody.toBody,
      RoleAccessOperation.toField]
  case bootstrapDeployment bs ic =>
    have hbs := normalizeHexField_jsonHex (ne_nil_of_length hv.1)
    have hic := normalizeHexField_jsonHex (ne_nil_of_length hv.2)
    simp [encodePayloadJson, ha.bufferToAddress, normalizeMessageByOperationType, type, body,
      normalizeBootstrapDeploymentOperation, PartialBody.encodeJson,
      normalizeAddressField_string ha, htxv, hnonce, htx, his, hbs, hic,
      Payload.toPartialOperation, Payload.toOperation, PartialBody.toBody,
      BootstrapDeploymentOperation.toField]
  case tx iw ch bs mbs =>
    obtain ⟨hiw, hch, hbs, hmbs⟩ := hv
    have hiw := normalizeHexField_jsonHex (ne_nil_of_length hiw)
    have hch := normalizeHexField_jsonHex (ne_nil_of_length hch)
    have hbs := normalizeHexField_jsonHex (ne_nil_of_length hbs)
    have hmbs := normalizeHexField_jsonHex (ne_nil_of_length hmbs)
    simp [encodePayloadJson, ha.bufferToAddress, normalizeMessageByOperationType, type, body,
      normalizeTransactionOperation, PartialBody.encodeJson, normalizeAddressField_string ha, htxv,
      hnonce, htx, his, hiw, hch, hbs, hmbs, Payload.toPartialOperation, Payload.toOperation,
      PartialBody.toBody, TxOperation.toField]
  case transfer to_ am =>
    obtain ⟨hto, ham⟩ := hv
    have ham := normalizeHexField_jsonHex (ne_nil_of_length ham)
    simp [encodePayloadJson, ha.bufferToAddress, normalizeMessageByOperationType, type, body,
      normalizeTransferOperation, PartialBody.encodeJson, normalizeAddressField_string ha,
      jsonAddress_eq hto, normalizeAddressField_string hto, htxv, hnonce, htx, his, ham,
      Payload.toPartialOperation, Payload.toOperation, PartialBody.toBody,
      TransferOperation.toField]

/-- The `null` fields of a decoded partial operation are removed. -/
theorem Request.sanitize_decoded :
    sanitizeDecodedPartialTransaction (Payload.toDecodedOperation
        { type := v.type, address, body := v.body nonce txv tx is }) =
      Payload.toPartialOperation { type := v.type, address, body := v.body nonce txv tx is } := by
  cases v <;> rfl

theorem Request.messageComponents_eq :
    messageComponents env (Payload.toPartial
        { type := v.type, address, body := v.body nonce txv tx is }) = v.message env nonce txv := by
  cases v <;> rfl

theorem Request.body_tx : (v.body nonce txv tx is).tx = tx := by
  cases v <;> rfl

theorem Request.body_is : (v.body nonce txv tx is).is = is := by
  cases v <;> rfl

theorem Request.validateSignature_ok (h : wallet.Correct env) :
    validateSignature env (v.payload env wallet nonce address txv).toPartial wallet.address =
      .ok () := by
  rw [validateSignature, Request.payload, messageComponents_eq]
  simp only [Payload.toPartial, body_tx, body_is, Builder.signMessage, bind_eq_ok, require_eq_ok]
  exact ⟨(), trivial, h.verify_sign _⟩

/-- The strategy of the type keeps the requester's fields and adds the validator's. -/
theorem Request.buildCompleteOperation_eq {vn : Buffer} (hv : v.Sized env)
    (ha : AsciiAddress env address) (htxv : txv.length = 32) (hnonce : nonce.length = 32)
    (htx : tx.length = 32) (his : is.length = 64) :
    buildCompleteOperation env wallet vn (Payload.toPartialOperation
        { type := v.type, address, body := v.body nonce txv tx is }) =
      some { type := v.type, address, body := .completed (v.body nonce txv tx is)
              (Builder.complete env wallet vn v.type tx) } := by
  have ha := normalizeAddress_buffer ha
  have htxv := normalizeHexBuffer_buffer htxv
  have hnonce := normalizeHexBuffer_buffer hnonce
  have htx := normalizeHexBuffer_buffer htx
  have his := normalizeHexBuffer_buffer his
  cases v
  case addWriter iw | removeWriter iw | adminRecovery iw =>
    exact buildCompleteRoleAccessMessage_eq ha htx htxv hnonce his (by simp)
      (normalizeHexBuffer_buffer hv)
  case bootstrapDeployment bs ic =>
    exact buildCompleteBootstrapDeploymentMessage_eq ha htx htxv hnonce his
      (normalizeHexBuffer_buffer hv.1) (normalizeHexBuffer_buffer hv.2)
  case tx iw ch bs mbs =>
    obtain ⟨hiw, hch, hbs, hmbs⟩ := hv
    exact buildCompleteTransactionOperationMessage_eq ha htx htxv hnonce his
      (normalizeHexBuffer_buffer hiw) (normalizeHexBuffer_buffer hch)
      (normalizeHexBuffer_buffer hbs) (normalizeHexBuffer_buffer hmbs)
  case transfer to_ am =>
    exact buildCompleteTransferOperationMessage_eq ha htx htxv hnonce his
      (normalizeAddress_buffer hv.1) (normalizeHexBuffer_buffer hv.2)

/-- The handler recreates the message of the builder, for a transaction of its own network. -/
theorem Request.message_eq {c : Completion Buffer} (h : v.NetworkBootstrap env) :
    (CompleteBody.completed (v.body nonce txv tx is) c).message env v.type =
      v.message env nonce txv := by
  cases v with
  | tx iw ch bs mbs =>
    cases h
    rfl
  | _ => rfl

theorem Request.message_ne (htxv : txv ≠ []) : createMessage (v.message env nonce txv) ≠ [] := by
  apply createMessage_ne_nil htxv
  cases v <;> simp [message]

end

/-! ### The complete payload -/

section

variable {invokerAddress txValidity : Input} {tx vn : Buffer} {p : Payload CompleteBody}

theorem validatorAccepted_complete {type : OperationType} (h : wallet.Correct env) (htx : tx ≠ []) :
    ValidatorAccepted env type tx (Builder.complete env wallet vn type tx) := by
  have hparty : party env (Builder.complete env wallet vn type tx).va = .ok
      { address := wallet.address, publicKey := env.crypto.decodeSafe wallet.address } :=
    (congrArg (party env) h.addressToBuffer).trans h.party
  refine ⟨_, verifyValidator_eq_ok.mpr ⟨hparty, ?_, h.verify_sign _⟩⟩
  exact createMessage_ne_nil htx (by simp [validatorMessage])

/-- The wallet signed the hash of the message that the handler recreates. -/
structure Payload.SignedWith (env : Env) (wallet : Wallet) (invokerAddress txValidity : Input)
    (p : Payload CompleteBody) : Prop where
  address : normalizeAddress env invokerAddress = some p.address
  txv : ∃ txv, normalizeHexBuffer 32 txValidity = some txv ∧
    .buffer txv ∈ p.body.message env p.type
  signed : (p.body.tx, p.body.is) = Builder.signMessage env wallet (p.body.message env p.type)

theorem buildCompleteCoreAdminMessage_signed {type : OperationType} {writingKey : Input}
    (htype : type ∈ [OperationType.addAdmin, .disableInitialization])
    (h : Director.buildCompleteCoreAdminMessage env wallet nonce invokerAddress type writingKey
      txValidity = some p) : p.SignedWith env wallet invokerAddress txValidity := by
  simp only [Director.buildCompleteCoreAdminMessage, Builder.setOperationType, Builder.setAddress,
    Builder.setTxValidity, Builder.setWriterKey, Builder.buildComplete, Option.bind_eq_bind,
    Option.pure_def, Option.bind_eq_some_iff, Option.some.injEq] at h
  obtain ⟨_, ⟨a, ha, rfl⟩, _, ⟨i, hi, rfl⟩, _, ⟨t, ht, rfl⟩, _, ⟨⟩, _, ⟨⟩, body, hbody, rfl⟩ := h
  simp only [List.mem_cons, List.not_mem_nil, or_false] at htype
  obtain rfl | rfl := htype <;> cases hbody <;>
    exact ⟨ha, ⟨t, ht, by simp [CompleteBody.message, coreAdminMessage]⟩, rfl⟩

theorem buildCompleteBalanceInitializationMessage_signed {recipientAddress amount : Input}
    (h : Director.buildCompleteBalanceInitializationMessage env wallet nonce invokerAddress
      recipientAddress amount txValidity = some p) :
    p.SignedWith env wallet invokerAddress txValidity := by
  simp only [Director.buildCompleteBalanceInitializationMessage, Builder.setOperationType,
    Builder.setAddress, Builder.setTxValidity, Builder.setIncomingAddress, Builder.setAmount,
    Builder.buildComplete, Option.bind_eq_bind, Option.pure_def, Option.bind_eq_some_iff,
    Option.some.injEq] at h
  obtain ⟨_, ⟨a, ha, rfl⟩, _, ⟨i, hi, rfl⟩, _, ⟨m, hm, rfl⟩, _, ⟨t, ht, rfl⟩, _, ⟨⟩, _, ⟨⟩, body,
    hbody, rfl⟩ := h
  cases hbody
  exact ⟨ha, ⟨t, ht, by simp [CompleteBody.message, balanceInitializationMessage]⟩, rfl⟩

theorem buildCompleteAdminControlMessage_signed {type : OperationType} {incomingAddress : Input}
    (htype : type ∈ [OperationType.appendWhitelist, .addIndexer, .removeIndexer, .banValidator])
    (h : Director.buildCompleteAdminControlMessage env wallet nonce invokerAddress type
      incomingAddress txValidity = some p) : p.SignedWith env wallet invokerAddress txValidity := by
  simp only [Director.buildCompleteAdminControlMessage, Builder.setOperationType,
    Builder.setAddress, Builder.setTxValidity, Builder.setIncomingAddress, Builder.buildComplete,
    Option.bind_eq_bind, Option.pure_def, Option.bind_eq_some_iff, Option.some.injEq] at h
  obtain ⟨_, ⟨a, ha, rfl⟩, _, ⟨t, ht, rfl⟩, _, ⟨i, hi, rfl⟩, _, ⟨⟩, _, ⟨⟩, body, hbody, rfl⟩ := h
  simp only [List.mem_cons, List.not_mem_nil, or_false] at htype
  obtain rfl | rfl | rfl | rfl := htype <;>
    simp only [Builder.buildCompleteBody, Option.bind_eq_bind, Option.bind_some, Option.pure_def,
      Option.bind_eq_some_iff] at hbody <;>
    obtain ⟨_, -, hbody⟩ := hbody <;> cases hbody <;>
    exact ⟨ha, ⟨t, ht, by simp [CompleteBody.message, adminControlMessage]⟩, rfl⟩

theorem AdminRequest.build_signed {r : AdminRequest Input}
    (h : r.build env wallet nonce invokerAddress txValidity = some p) :
    p.SignedWith env wallet invokerAddress txValidity := by
  cases r with
  | addAdmin iw => exact buildCompleteCoreAdminMessage_signed (by simp) h
  | disableInitialization iw => exact buildCompleteCoreAdminMessage_signed (by simp) h
  | balanceInitialization ia am => exact buildCompleteBalanceInitializationMessage_signed h
  | appendWhitelist ia => exact buildCompleteAdminControlMessage_signed (by simp) h
  | addIndexer ia => exact buildCompleteAdminControlMessage_signed (by simp) h
  | removeIndexer ia => exact buildCompleteAdminControlMessage_signed (by simp) h
  | banValidator ia => exact buildCompleteAdminControlMessage_signed (by simp) h

theorem Payload.SignedWith.accepted (h : p.SignedWith env wallet invokerAddress txValidity)
    (hwallet : wallet.Correct env)
    (hinvoker : normalizeAddress env invokerAddress = some (fromAscii wallet.address)) :
    p.RequesterAccepted env := by
  obtain ⟨txv, htxv, hmem⟩ := h.txv
  have hne := createMessage_ne_nil (ne_nil_of_length (normalizeHexBuffer_length htxv)) hmem
  obtain ⟨htx, his⟩ := Prod.mk.inj h.signed
  have haddress : p.address = fromAscii wallet.address :=
    Option.some.inj (h.address.symm.trans hinvoker)
  refine ⟨_, haddress ▸ hwallet.party, ?_⟩
  rw [htx, his]
  exact hwallet.verifyRequester hne

end

/-- The six user operations: what the partial builder makes, emitted as JSON, normalized, encoded,
decoded and sanitized, is its buffer form and passes the pre-validator's signature check; completing
it keeps the requester's body, and `#apply` accepts both signatures, of a transaction if it names
the network's own bootstrap key. The seven operations of the admin: `#apply` accepts the signature
of what the complete builder makes. -/
theorem builders_accepted {r : Request Input} {v : Request Buffer} {requester validator : Wallet}
    {vn : Buffer} {invokerAddress txValidity : Input} (hhash : env.crypto.HashSized)
    (hrequester : requester.Correct env) (hvalidator : validator.Correct env)
    (hnonce : nonce.length = nonceByteLength)
    (hinvoker : normalizeAddress env invokerAddress = some (fromAscii requester.address))
    (htxv : normalizeHexBuffer 32 txValidity = some txv) (hr : r.normalize env = some v)
    (hascii : r.Ascii)
    (hdecode : ∀ p : Payload PartialBody,
      r.build env requester nonce invokerAddress txValidity = some p →
        env.safeDecodeApplyOperation (encodeOperation p.toPartialOperation) =
          some p.toDecodedOperation) :
    (∃ p c, r.build env requester nonce invokerAddress txValidity = some p ∧
      (encodePayloadJson env p).bind (normalizeMessageByOperationType env) =
        some p.toPartialOperation ∧
      (env.safeDecodeApplyOperation (encodeOperation p.toPartialOperation)).map
        sanitizeDecodedPartialTransaction = some p.toPartialOperation ∧
      bufferToAddress env p.address = some requester.address ∧
      validateSignature env p.toPartial requester.address = .ok () ∧
      buildCompleteOperation env validator vn p.toPartialOperation =
        some { type := p.type, address := p.address, body := .completed p.body c } ∧
      ValidatorAccepted env p.type p.body.tx c ∧
      (v.NetworkBootstrap env → Payload.RequesterAccepted env
        { type := p.type, address := p.address, body := .completed p.body c })) ∧
    ∀ (r' : AdminRequest Input) (p' : Payload CompleteBody),
      r'.build env requester nonce invokerAddress txValidity = some p' →
        p'.RequesterAccepted env := by
  refine ⟨?_, fun r' p' h => (AdminRequest.build_signed h).accepted hrequester hinvoker⟩
  have hbuild : r.build env requester nonce invokerAddress txValidity =
      some (v.payload env requester nonce (fromAscii requester.address) txv) :=
    Request.build_eq hinvoker htxv hr
  have hv := Request.normalize_sized hr hascii
  have htxv := normalizeHexBuffer_length htxv
  set tx := env.crypto.blake3Safe (createMessage (v.message env nonce txv)) with htx
  have hne : createMessage (v.message env nonce txv) ≠ [] :=
    createMessage_ne_nil (ne_nil_of_length htxv) (by cases v <;> simp [Request.message])
  have htxSize : tx.length = 32 := hhash _ hne
  have hisSize : (requester.sign tx).length = 64 := hrequester.length_sign _
  refine ⟨_, Builder.complete env validator vn v.type tx, hbuild, ?_, ?_,
    hrequester.bufferToAddress, Request.validateSignature_ok hrequester, ?_, ?_, fun hmbs => ?_⟩
  · exact Request.normalize_encodePayloadJson hv hrequester.address htxv hnonce htxSize hisSize
  · rw [hdecode _ hbuild, Option.map_some]
    exact congrArg some Request.sanitize_decoded
  · exact Request.buildCompleteOperation_eq hv hrequester.address htxv hnonce htxSize hisSize
  · rw [Request.payload, Request.body_tx]
    exact validatorAccepted_complete hvalidator (ne_nil_of_length htxSize)
  · refine ⟨_, hrequester.party, ?_⟩
    simp only [Request.payload, Request.message_eq hmbs, CompleteBody.tx, CompleteBody.is,
      Request.body_tx, Request.body_is]
    exact hrequester.verifyRequester (Request.message_ne (ne_nil_of_length htxv))

end

namespace Sample

/-! ### The builders of Alice and the admin -/

/-- The bootstrap key of another network. -/
def foreignBootstrap : Buffer :=
  Bytes.ofNat 32 0x7e91e30f76dc5b9020f06eb3238ff0fa417cde715d78f1c6ed52ad2f5c04178e

/-- The hash of a transaction like `callOp` for the other network. -/
def foreignTx : Buffer :=
  Bytes.ofNat 32 0xfd90f1485d3309a2598de35342fee9550d4e8ca91b14ce9ed7839472ab0180e9

/-- What the validator signs of `callOp`. -/
def callHash : Buffer :=
  Bytes.ofNat 32 0xdce47217350fa8c2a1142a2c72f52309155348860f9dc51c6e3ae2ac0fbb6f24

def foreignHash : Buffer :=
  Bytes.ofNat 32 0xc6b4e2214f0782ad943214d3ec445f03fdf454cb79152c6e96445e98bb3191d0

/-- What `blake3Safe` answers for other messages. -/
def zeroHash : Buffer := List.replicate 32 0

def aliceSignatures : List (Buffer × Buffer) := [
    (callBody.tx, Bytes.ofNat 32 0xf955b61a88426f60ca853a9373e93df14db043e14341551252b81ea9e08b7350 ++
      Bytes.ofNat 32 0xeff5c780b698863e52fe4cdc0d6ba185f25857399e6e56b301c714e1da9b590b),
    (callHash, Bytes.ofNat 32 0xa76c2720f4c82eda431d79f390eb768073a0b914856828a2af1f3331b263af7d ++
      Bytes.ofNat 32 0xd1d64946804fbfb3788fa89e04a761a455e12861d53612b9a100347d70a7450e),
    (foreignTx, Bytes.ofNat 32 0xcdbb63457ca1e0f202a0969e715e7e79dd6594e3174f90c4430a84e283eb29f4 ++
      Bytes.ofNat 32 0xdec0cfccda6c9502a6dcea7a6ef4ef0b42a779007d0f5e23d5d0562d02b48f07),
    (foreignHash, Bytes.ofNat 32 0x31b93f3172f370e1b6b270de92d31cf71364e6961f4f8d631c74a9d83c4b1585 ++
      Bytes.ofNat 32 0xda4e03ca6db07783097afd21da8a3640fa622b367c052d6f4f9d335346b2740a),
    (zeroHash, Bytes.ofNat 32 0x709acb7c49b9cae240c2f3971006939d12e6acb6a97c1ea48d8831c04dcbe596 ++
      Bytes.ofNat 32 0x31e56958e0374b28d07403164247a7dd055b69c922bb74e41dcaa9908006880c)]

def adminSignatures : List (Buffer × Buffer) := [
    (callBody.tx, Bytes.ofNat 32 0x2db158f008de2e33903cea4102f5b3eff52decc5abd1dfbe3f6843fc4c9a4b86 ++
      Bytes.ofNat 32 0x2d75a248e56563bac439810856a9511b5c97970df2b72a6567cd33ab1b8b3b04),
    (callHash, Bytes.ofNat 32 0x717101ab320344a0056f2cc91b51f1258208f76b23ab21cc1b45524676681e53 ++
      Bytes.ofNat 32 0x53932c73646957550015ded028de67273893481385f88b592ff61724a9d5850f),
    (foreignTx, Bytes.ofNat 32 0xe7d22796c984db1a9b77906353b2f83f8950a20ad25459686b95ef430a550aab ++
      Bytes.ofNat 32 0xe9f77daf0d75780ce0d9d83444c1a1dc91d65fbe9b1872cd4c86b674a7cc0f0d),
    (foreignHash, Bytes.ofNat 32 0x21f1fb10d6d70f00cc6fb76f3109760ee548abd1be7a4833879593b5c44147ab ++
      Bytes.ofNat 32 0x6876a161aa837acc74d3592e8c4f995515578d8e87fd03c6739e2acecebd4c02),
    (zeroHash, Bytes.ofNat 32 0x44c5841720401e55a78b1b3842626d9430a92c2d1c9bb671bee8ed62d39c95df ++
      Bytes.ofNat 32 0x71a47282aa67c4de24a4247272c883f32b6cd01eb5ab7855a563a80bfecb5d05)]

def signingDigests : List (Buffer × Buffer) := [
    (createMessage (txMessage network callBody), callBody.tx),
    (createMessage (validatorMessage network .tx callBody.tx callCompletion), callHash),
    (createMessage (partialTxMessage network { callBody with mbs := foreignBootstrap }), foreignTx),
    (createMessage (validatorMessage network .tx foreignTx callCompletion), foreignHash)]

def aliceWallet : Wallet where
  address := alice
  sign hash := (aliceSignatures.lookup hash).getD (List.replicate 64 0)

def adminWallet : Wallet where
  address := admin
  sign hash := (adminSignatures.lookup hash).getD (List.replicate 64 0)

def callPayload : Payload PartialBody where
  type := .tx
  address := aliceAddress
  body := .txo callBody

/-- The functions outside the program, as far as the builders of `callOp` use them. -/
def signing : Env where
  config := config
  crypto :=
    { recording.crypto with
      blake3Safe message := (signingDigests.lookup message).getD zeroHash
      verify signature hash key :=
        key = aliceKey ∧ (hash, signature) ∈ aliceSignatures ∨
          key = adminKey ∧ (hash, signature) ∈ adminSignatures }
  safeDecodeApplyOperation b :=
    if b = encodeOperation callPayload.toPartialOperation then some callPayload.toDecodedOperation
    else none
  size_addressPrefix := rfl

/-- What `blake3Safe` answers. -/
def hashes : List Buffer := [callBody.tx, callHash, foreignTx, foreignHash, zeroHash]

theorem hashes_facts :
    (∀ digest ∈ signingDigests, digest.2 ∈ hashes) ∧ zeroHash ∈ hashes ∧
    ∀ hash ∈ hashes, hash.length = hashByteLength := by
  decide +kernel

theorem blake3Safe_mem (message : Buffer) : signing.crypto.blake3Safe message ∈ hashes := by
  obtain ⟨hdigests, hzero, -⟩ := hashes_facts
  change (signingDigests.lookup message).getD zeroHash ∈ hashes
  cases h : signingDigests.lookup message with
  | none => exact hzero
  | some hash => exact hdigests _ (Recording.mem_of_lookup h)

theorem hashSized_signing : signing.crypto.HashSized :=
  fun message _ => hashes_facts.2.2 _ (blake3Safe_mem message)

theorem length_lookup_getD {l : List (Buffer × Buffer)} {n : ℕ}
    (h : ∀ s ∈ l, s.2.length = n) (hash : Buffer) :
    ((l.lookup hash).getD (List.replicate n 0)).length = n := by
  cases hs : l.lookup hash with
  | none => simp
  | some s => exact h _ (Recording.mem_of_lookup hs)

/-- A wallet that looks its signatures up in a table is correct when the table has a signature of
every hash. -/
theorem correct_of_signatures {address : Str} {signatures : List (Buffer × Buffer)}
    (h : (address.all fun c => c.toNat < 128) ∧ isAddressValid signing address ∧
      signing.crypto.decodeSafe address ≠ nullBuffer ∧
      (∀ s ∈ signatures, s.2.length = signatureByteLength) ∧
      ∀ hash ∈ hashes, signing.crypto.verify
        ((signatures.lookup hash).getD (List.replicate signatureByteLength 0)) hash
        (signing.crypto.decodeSafe address)) :
    Wallet.Correct signing
      { address
        sign hash := (signatures.lookup hash).getD (List.replicate signatureByteLength 0) } := by
  obtain ⟨hascii, hvalid, hpublicKey, hlength, hverify⟩ := h
  exact ⟨fun c hc => of_decide_eq_true (List.all_eq_true.mp hascii c hc), hvalid, hpublicKey,
    length_lookup_getD hlength, fun message => hverify _ (blake3Safe_mem message)⟩

theorem correct_aliceWallet : aliceWallet.Correct signing :=
  correct_of_signatures (by decide +kernel)

theorem correct_adminWallet : adminWallet.Correct signing :=
  correct_of_signatures (by decide +kernel)

/-- The values of `callOp`, some of them as strings. -/
def callRequest : Request Input :=
  .tx (.string (toHex callBody.iw)) (.buffer callBody.ch) (.string (toHex callBody.bs))
    (.buffer bootstrap)

theorem callRequest_facts :
    callRequest.build signing aliceWallet callBody.in_ (.string alice) (.string (toHex txv)) =
      some callPayload ∧
    signing.safeDecodeApplyOperation (encodeOperation callPayload.toPartialOperation) =
      some callPayload.toDecodedOperation ∧
    callBody.in_.length = nonceByteLength ∧
    normalizeAddress signing (.string alice) = some (fromAscii aliceWallet.address) ∧
    normalizeHexBuffer 32 (.string (toHex txv)) = some txv ∧
    callRequest.normalize signing =
      some (.tx callBody.iw callBody.ch callBody.bs bootstrap) := by
  decide +kernel

theorem builders_accepted_call : ∃ p c,
    callRequest.build signing aliceWallet callBody.in_ (.string alice) (.string (toHex txv)) =
      some p ∧
    buildCompleteOperation signing adminWallet callCompletion.vn p.toPartialOperation =
      some { type := p.type, address := p.address, body := .completed p.body c } ∧
    Payload.RequesterAccepted signing
      { type := p.type, address := p.address, body := .completed p.body c } := by
  obtain ⟨hcall, hdecode, hnonce, hinvoker, htxv, hr⟩ := callRequest_facts
  obtain ⟨⟨p, c, hbuild, -, -, -, -, hcomplete, -, haccepted⟩, -⟩ :=
    @builders_accepted signing callBody.in_ txv callRequest
      (.tx callBody.iw callBody.ch callBody.bs bootstrap) aliceWallet adminWallet callCompletion.vn
      (.string alice) (.string (toHex txv)) hashSized_signing correct_aliceWallet
      correct_adminWallet hnonce hinvoker htxv hr trivial (fun p hp => by
        obtain rfl := Option.some.inj (hcall.symm.trans hp)
        exact hdecode)
  exact ⟨p, c, hbuild, hcomplete, haccepted rfl⟩

/-- The values of `callOp` with the bootstrap key of the other network. -/
def foreignRequest : Request Input :=
  .tx (.buffer callBody.iw) (.buffer callBody.ch) (.buffer callBody.bs) (.buffer foreignBootstrap)

def foreignBody : TxOperation Buffer :=
  { callBody with
    mbs := foreignBootstrap
    tx := foreignTx
    is := aliceWallet.sign foreignTx }

def foreignPayload : Payload PartialBody where
  type := .tx
  address := aliceAddress
  body := .txo foreignBody

theorem foreignRequest_facts :
    foreignRequest.build signing aliceWallet callBody.in_ (.string alice) (.string (toHex txv)) =
      some foreignPayload ∧
    validateSignature signing foreignPayload.toPartial alice = .ok () ∧
    buildCompleteOperation signing adminWallet callCompletion.vn
        foreignPayload.toPartialOperation =
      some { type := .tx
             address := aliceAddress
             body := .completed (.txo foreignBody)
               (Builder.complete signing adminWallet callCompletion.vn .tx foreignTx) } ∧
    signing.crypto.blake3Safe (createMessage (txMessage signing foreignBody)) ≠ foreignTx := by
  decide +kernel

/-- The builders sign the other network's key, and the handler of a completed transaction recreates
the message with its own. -/
theorem not_requesterAccepted_foreign : ∃ p c,
    foreignRequest.build signing aliceWallet callBody.in_ (.string alice) (.string (toHex txv)) =
      some p ∧
    validateSignature signing p.toPartial alice = .ok () ∧
    buildCompleteOperation signing adminWallet callCompletion.vn p.toPartialOperation =
      some { type := p.type, address := p.address, body := .completed p.body c } ∧
    ¬Payload.RequesterAccepted signing
      { type := p.type, address := p.address, body := .completed p.body c } := by
  obtain ⟨hbuild, hvalidate, hcomplete, hne⟩ := foreignRequest_facts
  refine ⟨foreignPayload,
    Builder.complete signing adminWallet callCompletion.vn .tx foreignTx, hbuild, hvalidate,
    hcomplete, ?_⟩
  rintro ⟨_, -, hverify⟩
  exact hne (verifyRequester_eq_ok.mp hverify).hash

end Sample

end SettlementBus
