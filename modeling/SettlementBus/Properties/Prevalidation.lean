import SettlementBus.Properties.Builder
import SettlementBus.Properties.Transfer
import SettlementBus.Properties.Tx
import SettlementBus.Validators.Accepted

/-! What a validator accepts, completes and applies. -/

namespace SettlementBus

open Lib View

variable {env : Env} {w w' : World} {node : Node} {op : Operation} {p : PartialPayload}
  {requester : Str} {validator : Party} {v : Account} {c : Completion Buffer}

def PartialBody.in_ : PartialBody → Buffer
  | rao o => o.in_
  | bdo o => o.in_
  | txo o => o.in_
  | tro o => o.in_

/-- The operation of a payload with the validator's fields. -/
def PartialPayload.complete (p : PartialPayload) (c : Completion Buffer) : Operation :=
  Payload.toOperation CompleteBody.toBody
    { type := p.type, address := p.address, body := .completed p.body c }

/-- The fields that the validator adds to an operation: its address, a nonce and its signature, of
which the last two are not the requester's. -/
@[mk_iff]
structure Completion.SignedBy (env : Env) (c : Completion Buffer) (validator : Party)
    (type : OperationType) (body : PartialBody) : Prop where
  address : party env c.va = .ok validator
  ascii : ∀ x ∈ c.va, x < 128
  nonce : Check.NonzeroBuffer nonceByteLength c.vn
  signature : Check.NonzeroBuffer signatureByteLength c.vs
  signed : env.crypto.verify c.vs (env.crypto.blake3Safe (createMessage
    (validatorMessage env type body.tx c))) validator.publicKey
  nonce_ne : body.in_ ≠ c.vn
  signature_ne : body.is ≠ c.vs

/-- A validator with the account `v` holds the block with the completed payload. -/
structure HoldsCompleted (env : Env) (w : World) (node : Node) (validator : Party) (v : Account)
    (p : PartialPayload) (c : Completion Buffer) : Prop where
  has : w.Has validator.address v
  active : v.role.isWriter
  author : v.wk = node.key
  signed : c.SignedBy env validator p.type p.body
  decode : decodeNode env node = some (p.type, p.complete c)

/-! ### The completed operation -/

/-- A valid address has the bytes of the prefix. -/
theorem nonzero_of_bufferToAddress {b : Buffer} {s : Str} (h : bufferToAddress env b = some s) :
    Check.NonzeroBuffer env.config.addressLength b := by
  refine ⟨length_of_bufferToAddress h, ?_⟩
  obtain ⟨hvalid, rfl⟩ := bufferToAddress_eq_some.mp h
  obtain ⟨-, hprefix, -⟩ := isAddressValid_iff.mp hvalid
  have hmem : '1' ∈ toAscii b := hprefix.subset (by simp)
  obtain ⟨x, hx, hone⟩ := List.mem_map.mp hmem
  refine ⟨x, hx, ?_⟩
  rintro rfl
  cases hone

theorem Completion.SignedBy.schema (h : c.SignedBy env validator p.type p.body) :
    Check.CompletionSchema env c :=
  ⟨nonzero_of_bufferToAddress (party_eq_ok.mp h.address).1, h.nonce, h.signature⟩

/-- Completing an operation adds the validator's address to its addresses. -/
theorem SchemaValid.asciiAddresses (h : SchemaValid env op p) (hascii : op.AsciiAddresses)
    (hc : ∀ x ∈ c.va, x < 128) : (p.complete c).AsciiAddresses := by
  suffices hsub : ∀ b ∈ (p.complete c).addresses, b ∈ op.addresses ∨ b = c.va by
    intro b hb
    obtain hb | rfl := hsub b hb
    · exact hascii b hb
    · exact hc
  cases h with
  | rao hmem htype hcheck =>
    obtain ⟨-, ha, ⟨f, hv, -⟩, -⟩ := Check.validateRoleAccessOperation_eq_some.mp hcheck
    simp [Operation.addresses, Operation.addressFields, ha, hv, PartialPayload.complete,
      Payload.toOperation, CompleteBody.toBody, PartialBody.toBody, Completion.toField,
      Field.bytes?]
  | bdo hcheck =>
    obtain ⟨-, ha, ⟨f, hv, -⟩, -⟩ := Check.validateBootstrapDeploymentOperation_eq_some.mp hcheck
    simp [Operation.addresses, Operation.addressFields, ha, hv, PartialPayload.complete,
      Payload.toOperation, CompleteBody.toBody, PartialBody.toBody, Completion.toField,
      Field.bytes?]
  | txo hcheck =>
    obtain ⟨-, ha, ⟨f, hv, -⟩, -⟩ := Check.validateTransactionOperation_eq_some.mp hcheck
    simp [Operation.addresses, Operation.addressFields, ha, hv, PartialPayload.complete,
      Payload.toOperation, CompleteBody.toBody, PartialBody.toBody, Completion.toField,
      Field.bytes?]
  | tro hcheck =>
    obtain ⟨-, ha, ⟨f, hv, -⟩, -⟩ := Check.validateTransferOperation_eq_some.mp hcheck
    simp [Operation.addresses, Operation.addressFields, ha, hv, PartialPayload.complete,
      Payload.toOperation, CompleteBody.toBody, PartialBody.toBody, Completion.toField,
      TransferOperation.toField, Field.bytes?]

theorem SchemaValid.length_tx (h : SchemaValid env op p) :
    p.body.tx.length = hashByteLength ∧ p.body.txv.length = hashByteLength := by
  cases h with
  | rao _ _ hcheck =>
    obtain ⟨-, -, -, hs⟩ := Check.validateRoleAccessOperation_eq_some.mp hcheck
    exact ⟨hs.tx.length_eq, hs.txv.length_eq⟩
  | bdo hcheck =>
    obtain ⟨-, -, -, hs⟩ := Check.validateBootstrapDeploymentOperation_eq_some.mp hcheck
    exact ⟨hs.tx.length_eq, hs.txv.length_eq⟩
  | txo hcheck =>
    obtain ⟨-, -, -, hs⟩ := Check.validateTransactionOperation_eq_some.mp hcheck
    exact ⟨hs.tx.length_eq, hs.txv.length_eq⟩
  | tro hcheck =>
    obtain ⟨-, -, -, hs⟩ := Check.validateTransferOperation_eq_some.mp hcheck
    exact ⟨hs.tx.length_eq, hs.txv.length_eq⟩

/-- What the handler sees of a completed payload. -/
def PartialPayload.signed {α : Type} (env : Env) (p : PartialPayload) (requester : Str)
    (validator : Party) (body : α) (c : Completion Buffer) : Signed α where
  address := p.address
  body := body
  completion := c
  requester := { address := requester, publicKey := env.crypto.decodeSafe requester }
  validator := validator

namespace CommonValid

variable {state : LocalState}
  (h : CommonValid env state (some validator.address) op p requester)

include h

theorem verified {α : Type} (body : α) (hc : c.SignedBy env validator p.type p.body) :
    (p.signed env requester validator body c).Verified env p.type (messageComponents env p)
      p.body.tx p.body.in_ p.body.is := by
  obtain ⟨htx, htxv⟩ := h.schema.length_tx
  have hva := (party_eq_ok.mp hc.address).1
  refine {
    nonce_ne := hc.nonce_ne
    address_ne := fun heq => ?_
    signature_ne := hc.signature_ne
    requester := party_eq_ok.mpr ⟨h.address, rfl, ?_⟩
    signed := ⟨?_, h.hash.symm, h.signature⟩
    validator := hc.address
    validatorMessage_ne := ?_
    validatorSigned := hc.signed }
  · have heq : p.address = c.va := heq
    rw [← heq, h.address] at hva
    exact h.notSelf hva.symm
  · exact ne_nil_of_length h.publicKey
  · apply createMessage_ne_nil (ne_nil_of_length htxv)
    cases hb : p.body <;> simp [messageComponents, hb, PartialBody.txv]
  · exact createMessage_ne_nil (ne_nil_of_length htx) (by simp [validatorMessage])

end CommonValid

theorem CommonValid.admitted (h : CommonValid env (.of w w) (some validator.address) op p requester)
    (hv : HoldsCompleted env w node validator v p c) :
    Admitted env w node p.body.txv p.body.tx validator.address v :=
  ⟨h.current.symm, hv.has, hv.active, hv.author, h.fresh⟩

/-- The entry that a validator reads is the account's. -/
theorem LocalState.exists_has {w₀ : World} (hw : w.WellFormed) {s : Str} {e : DecodedNodeEntry}
    (h : (LocalState.of w₀ w).getNodeEntryUnsigned s = some e) :
    ∃ r, w.Has s r ∧ Bytes.toNat e.balance = r.balance.toNat := by
  obtain ⟨buffer, hget, hdec⟩ := Option.bind_eq_some_iff.mp h
  obtain ⟨r, rfl, hr⟩ := View.WellFormed.has hw hget
  rw [Account.decode_toBuffer, Option.some.injEq] at hdec
  exact ⟨r, hr, hdec ▸ rfl⟩

theorem LocalState.exists_balance (hw : w.WellFormed) {s : Str} {u : Unit}
    (h : validateRequesterBalance (.of w w) s false = .ok u) :
    ∃ r, w.Has s r ∧ balanceFee.toNat ≤ r.balance.toNat := by
  obtain ⟨e, he, hle⟩ := requireBalance_eq_ok.mp h
  obtain ⟨r, hr, hbalance⟩ := LocalState.exists_has hw he
  exact ⟨r, hr, hbalance ▸ hle⟩

/-! ### Transfers -/

section

variable {address : Buffer}

theorem validateTransferOperation_complete {o : TransferOperation Buffer}
    {d : Option (Completion Buffer)}
    (h : Check.validateTransferOperation env op = some (address, o, d))
    (hc : Check.CompletionSchema env c) : Check.validateTransferOperation env
      (PartialPayload.complete { type := .transfer, address, body := .tro o, completion := d } c) =
        some (address, o, some c) := by
  obtain ⟨-, -, -, hs⟩ := Check.validateTransferOperation_eq_some.mp h
  exact Check.validateTransferOperation_eq_some.mpr
    ⟨List.mem_singleton_self _, rfl, ⟨_, rfl, Check.completion_eq_some.mpr ⟨rfl, hc⟩⟩, hs⟩

theorem validateTransactionOperation_complete {o : TxOperation Buffer}
    {d : Option (Completion Buffer)}
    (h : Check.validateTransactionOperation env op = some (address, o, d))
    (hc : Check.CompletionSchema env c) : Check.validateTransactionOperation env
      (PartialPayload.complete { type := .tx, address, body := .txo o, completion := d } c) =
        some (address, o, some c) := by
  obtain ⟨-, -, -, hs⟩ := Check.validateTransactionOperation_eq_some.mp h
  exact Check.validateTransactionOperation_eq_some.mpr
    ⟨List.mem_singleton_self _, rfl, ⟨_, rfl, Check.completion_eq_some.mpr ⟨rfl, hc⟩⟩, hs⟩

theorem validateBootstrapDeploymentOperation_complete {o : BootstrapDeploymentOperation Buffer}
    {d : Option (Completion Buffer)}
    (h : Check.validateBootstrapDeploymentOperation env op = some (address, o, d))
    (hc : Check.CompletionSchema env c) : Check.validateBootstrapDeploymentOperation env
      (PartialPayload.complete
        { type := .bootstrapDeployment, address, body := .bdo o, completion := d } c) =
        some (address, o, some c) := by
  obtain ⟨-, -, -, hs⟩ := Check.validateBootstrapDeploymentOperation_eq_some.mp h
  exact Check.validateBootstrapDeploymentOperation_eq_some.mpr
    ⟨List.mem_singleton_self _, rfl, ⟨_, rfl, Check.completion_eq_some.mpr ⟨rfl, hc⟩⟩, hs⟩

end

theorem PartialTransfer.exists_success (hw : w.WellFormed) (htotal : w.total < 2 ^ 128)
    (hascii : op.AsciiAddresses)
    (h : PartialTransfer.validate env (.of w w) (some validator.address) op = .ok p)
    (hv : HoldsCompleted env w node validator v p c) :
    ∃ w', runHandler (handler env p.type (p.complete c) node) w = some (.success, w') := by
  simp only [PartialTransfer.validate, validateRecipientAddress, bind_eq_ok, pure_eq_ok,
    orExit_eq_ok, require_eq_ok] at h
  obtain ⟨⟨p, requester⟩, hcommon, o, htro, recipient, ⟨_, hto, _, hkey, rfl⟩, _, hbalances, rfl⟩ :=
    h
  have hp := validateCommon_eq_ok hcommon
  have hschema := hp.schema
  have hascii := hschema.asciiAddresses hascii hv.signed.ascii
  cases hschema with
  | tro hcheck =>
    cases htro
    simp only [validateStateBalances, bind_eq_ok, require_eq_ok, orExit_eq_ok] at hbalances
    obtain ⟨-, -, e, he, -, hle, -⟩ := hbalances
    obtain ⟨r, hr, hbalance⟩ := LocalState.exists_has hw he
    let t : TransferRequest env w node (PartialPayload.complete _ c) := {
      s := PartialPayload.signed env _ requester validator o c
      v
      to_ := { address := _, publicKey := _ }
      verified := verifyTransfer_eq_ok.mpr
        ⟨validateTransferOperation_complete hcheck hv.signed.schema, hp.verified o hv.signed⟩
      admitted := hp.admitted hv
      party_to := party_eq_ok.mpr ⟨hto, rfl, hkey⟩ }
    have hdeducted : t.deducted ≤ r.balance.toNat := by
      rw [TransferRequest.deducted, ← hbalance]
      refine le_trans (le_of_eq ?_) hle
      simp only [eq_comm (a := requester)]
      rfl
    obtain ⟨w', hrun, -⟩ := t.exists_effected hw htotal hascii.aliasFree hr hdeducted
    exact ⟨w', hrun⟩
  | _ => cases htro

theorem PartialTransaction.exists_success (hw : Visited env w) (htotal : w.total < 2 ^ 128)
    (hascii : op.AsciiAddresses)
    (h : PartialTransaction.validate env (.of w w) (some validator.address) op = .ok p)
    (hv : HoldsCompleted env w node validator v p c) :
    ∃ w', runHandler (handler env p.type (p.complete c) node) w = some (.success, w') := by
  simp only [PartialTransaction.validate, validateSubnetworkBootstrapEquality, validateMsbBootstrap,
    validateIfExternalBootstrapHasBeenDeployed, bind_eq_ok, pure_eq_ok, orExit_eq_ok,
    require_eq_ok] at h
  obtain ⟨⟨p, requester⟩, hcommon, _, hfee, _, -, _, ⟨bs, hbs, hne⟩, o, htxo, _, hmbs, _,
    ⟨buffer, hbuf, -⟩, rfl⟩ := h
  have hp := validateCommon_eq_ok hcommon
  have hschema := hp.schema
  have hascii := hschema.asciiAddresses hascii hv.signed.ascii
  cases hschema with
  | txo hcheck =>
    cases htxo
    cases hbs
    obtain ⟨r, hr, hle⟩ := LocalState.exists_balance hw.wellFormed hfee
    have hverified := hp.verified o hv.signed
    rw [show messageComponents env _ = txMessage env o by rw [txMessage, hmbs]; rfl] at hverified
    let t : TxRequest env w node (PartialPayload.complete _ c) := {
      s := PartialPayload.signed env _ requester validator o c
      v
      verified := verifyTx_eq_ok.mpr
        ⟨validateTransactionOperation_complete hcheck hv.signed.schema,
          fun heq => hne (hmbs.trans heq.symm), hmbs.symm, hverified⟩
      admitted := hp.admitted hv
      registered := Option.isSome_iff_exists.mpr ⟨buffer, hbuf⟩ }
    obtain ⟨c, -, hcreator, buffer, entry, hbuf, hdec, hentry⟩ := t.exists_creator
      (hw.invariant deployments_genesis fun _ hs => hs.deployments)
    obtain ⟨w', hrun, -⟩ := t.exists_effected hw.wellFormed htotal hascii.aliasFree hbuf hdec hentry
      hcreator hr hle
    exact ⟨w', hrun⟩
  | _ => cases htxo

theorem PartialBootstrapDeployment.exists_success (hw : w.WellFormed) (htotal : w.total < 2 ^ 128)
    (hascii : op.AsciiAddresses)
    (h : PartialBootstrapDeployment.validate env (.of w w) (some validator.address) op = .ok p)
    (hv : HoldsCompleted env w node validator v p c) :
    ∃ w', runHandler (handler env p.type (p.complete c) node) w = some (.success, w') := by
  simp only [PartialBootstrapDeployment.validate, validateSubnetworkBootstrapEquality, bind_eq_ok,
    pure_eq_ok, orExit_eq_ok, require_eq_ok] at h
  obtain ⟨⟨p, requester⟩, hcommon, _, hfee, _, -, _, ⟨bs, hbs, hne⟩, _, hregistration, rfl⟩ := h
  have hp := validateCommon_eq_ok hcommon
  have hschema := hp.schema
  have hascii := hschema.asciiAddresses hascii hv.signed.ascii
  cases hschema with
  | @bdo address o d hcheck =>
    cases hbs
    have hundeployed := require_eq_ok.mp hregistration
    obtain ⟨r, hr, hle⟩ := LocalState.exists_balance hw hfee
    have hcheck' := validateBootstrapDeploymentOperation_complete hcheck hv.signed.schema
    have hcompleted := (hp.admitted hv).completed (hp.verified o hv.signed) hr
    have hrequester := (hcompleted.address_ne_iff (addresses_bootstrapDeployment hcheck')).mpr
      hascii.aliasFree
    have hsum := View.add_le_total hrequester hr hv.has
    have hfee := reward75_add_reward25
    rw [World.total] at htotal
    simp only [Account.total] at hsum
    obtain ⟨rb, hrb⟩ := SettlementBus.exists_balance (n := r.balance.toNat - balanceFee.toNat)
      (by have := r.balance.toNat_lt; omega)
    obtain ⟨vb, hvb⟩ := SettlementBus.exists_balance (n := v.balance.toNat + reward75.toNat)
      (by omega)
    let e : BootstrapDeploymentStep env w node (PartialPayload.complete _ c) := {
      s := PartialPayload.signed env _ requester validator o c
      r, v, rb, vb
      check := hcheck'
      bs_ne := Ne.symm hne
      completed := hcompleted
      undeployed := hundeployed
      charged := by omega
      rewarded := hvb }
    exact ⟨e.result, runHandler_eq_success.mpr
      ((handleApplyBootstrapDeploymentOperation_ok hw).mpr ⟨e, rfl⟩)⟩
  | _ => cases hregistration

/-- One of the validators of value operations accepts the operation. -/
inductive ValueAccepted (env : Env) (state : LocalState) (selfAddress : Option Str)
    (op : Operation) (p : PartialPayload) : Prop
  | bootstrapDeployment (h : PartialBootstrapDeployment.validate env state selfAddress op = .ok p)
  | tx (h : PartialTransaction.validate env state selfAddress op = .ok p)
  | transfer (h : PartialTransfer.validate env state selfAddress op = .ok p)

/-- A block that holds one valid operation is a batch without a penalty. -/
theorem apply_singleton {type : OperationType} (hdec : decodeNode env node = some (type, op))
    (h : runHandler (handler env type op node) w = some (.success, w')) :
    applyNode env node w = some (.success, w') ∧ apply env [node] w = some w' := by
  have hnode : applyNode env node w = some (.success, w') := by
    rw [applyNode, hdec]
    exact h
  refine ⟨hnode, ?_⟩
  simp [apply, applyNodes, hnode, batchSize]

/-- A value operation that a validator accepts succeeds when the validator completes and applies
it in the same state. -/
theorem value_prevalidation (hw : Reachable env w) (htotal : w.total < 2 ^ 128)
    (hascii : op.AsciiAddresses)
    (h : ValueAccepted env (.of w w) (some validator.address) op p)
    (hv : HoldsCompleted env w node validator v p c) :
    ∃ w', applyNode env node w = some (.success, w') ∧ apply env [node] w = some w' := by
  suffices hsuccess : ∃ w', runHandler (handler env p.type (p.complete c) node) w =
      some (.success, w') by
    obtain ⟨w', hrun⟩ := hsuccess
    exact ⟨w', apply_singleton hv.decode hrun⟩
  cases h with
  | bootstrapDeployment h =>
    exact PartialBootstrapDeployment.exists_success hw.wellFormed htotal hascii h hv
  | tx h => exact PartialTransaction.exists_success hw.visited htotal hascii h hv
  | transfer h => exact PartialTransfer.exists_success hw.wellFormed htotal hascii h hv

def PartialPayload.fields (p : PartialPayload) :
    OperationType × Buffer × PartialBody × Option (Completion Buffer) :=
  (p.type, p.address, p.body, p.completion)

/-- A payload is known by its fields. -/
theorem eq_ok_of_map_fields {x : Except Rejection PartialPayload}
    (h : x.map PartialPayload.fields = .ok p.fields) : x = .ok p := by
  cases x with
  | error e => cases h
  | ok q =>
    cases p
    cases q
    cases h
    rfl

theorem exists_validator (hw : w.WellFormed) {s : Str}
    (h : isValidatorValidApply (w.view.get (.account s)) node) :
    ∃ v, w.Has s v ∧ v.role.isWriter ∧ v.wk = node.key := by
  cases hget : w.view.get (.account s) with
  | none =>
    rw [hget] at h
    cases h
  | some buffer =>
    obtain ⟨v, rfl, hv⟩ := View.WellFormed.has hw hget
    simp only [hget, isValidatorValidApply, Option.bind_some, Account.decode_toBuffer,
      Bool.and_eq_true, decide_eq_true_eq] at h
    exact ⟨v, hv, h⟩

namespace Sample

def aliceParty : Party := { address := alice, publicKey := aliceKey }

def payBobPayload : PartialPayload where
  type := .transfer
  address := adminAddress
  body := .tro payBobBody
  completion := none

/-- The transfer of the admin before Alice completes it. -/
def payBobPartial : Operation := { payBobOp with value := some (.tro payBobBody.toField .absent) }

theorem paid_facts :
    paid.total < 2 ^ 128 ∧
    isValidatorValidApply (paid.view.get (.account alice)) (block aliceCore payBobOp) ∧
    decodeNode network (block aliceCore payBobOp) = some (.transfer, payBobOp) ∧
    (PartialTransfer.validate network (.of paid paid) (some aliceParty.address) payBobPartial).map
      PartialPayload.fields = .ok payBobPayload.fields := by
  decide +kernel

theorem payBob_signedBy :
    payBobCompletion.SignedBy network aliceParty .transfer (.tro payBobBody) := by
  rw [Completion.signedBy_iff, party_eq_ok, Check.nonzeroBuffer_iff, Check.nonzeroBuffer_iff]
  decide +kernel

/-- Alice accepts, completes and applies the transfer. -/
theorem value_prevalidation_payBob :
    ∃ w', applyNode network (block aliceCore payBobOp) paid = some (.success, w') ∧
      apply network [block aliceCore payBobOp] paid = some w' := by
  obtain ⟨htotal, hvalid, hdecode, hfields⟩ := paid_facts
  obtain ⟨v, hv, hactive, hauthor⟩ := exists_validator reachable_paid.wellFormed hvalid
  have hheld : HoldsCompleted network paid (block aliceCore payBobOp) aliceParty v payBobPayload
      payBobCompletion := ⟨hv, hactive, hauthor, payBob_signedBy, hdecode⟩
  have hascii : payBobPartial.AsciiAddresses :=
    show ∀ b ∈ payBobPartial.addresses, ∀ x ∈ b, x < 128 by decide +kernel
  have haccepted : ValueAccepted network (.of paid paid) (some aliceParty.address) payBobPartial
      payBobPayload := .transfer (eq_ok_of_map_fields hfields)
  exact value_prevalidation reachable_paid htotal hascii haccepted hheld

end Sample

end SettlementBus
