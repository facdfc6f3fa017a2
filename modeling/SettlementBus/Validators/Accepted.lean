import SettlementBus.Validators.Role
import SettlementBus.Validators.Value

/-! What an accepted partial operation looks like. -/

namespace SettlementBus

open Lib

variable {env : Env} {state : LocalState} {selfAddress : Option Str} {op : Operation}
  {p : PartialPayload} {requester : Str}

/-- The operation has the type, the address and the body of the payload, and the schema of its
type accepts it. -/
inductive SchemaValid (env : Env) (op : Operation) : PartialPayload → Prop
  | rao {type : OperationType} {address : Buffer} {o : RoleAccessOperation Buffer}
      {c : Option (Completion Buffer)}
      (mem : type ∈ [OperationType.addWriter, .removeWriter, .adminRecovery])
      (type_eq : op.type = type.code)
      (check : Check.validateRoleAccessOperation env op = some (address, o, c)) :
      SchemaValid env op { type, address, body := .rao o, completion := c }
  | bdo {address : Buffer} {o : BootstrapDeploymentOperation Buffer}
      {c : Option (Completion Buffer)}
      (check : Check.validateBootstrapDeploymentOperation env op = some (address, o, c)) :
      SchemaValid env op
        { type := .bootstrapDeployment, address, body := .bdo o, completion := c }
  | txo {address : Buffer} {o : TxOperation Buffer} {c : Option (Completion Buffer)}
      (check : Check.validateTransactionOperation env op = some (address, o, c)) :
      SchemaValid env op { type := .tx, address, body := .txo o, completion := c }
  | tro {address : Buffer} {o : TransferOperation Buffer} {c : Option (Completion Buffer)}
      (check : Check.validateTransferOperation env op = some (address, o, c)) :
      SchemaValid env op { type := .transfer, address, body := .tro o, completion := c }

theorem isPayloadSchemaValid_eq_ok (h : isPayloadSchemaValid env op = .ok p) :
    SchemaValid env op p := by
  simp only [isPayloadSchemaValid, bind_eq_ok, require_eq_ok, orExit_eq_ok] at h
  obtain ⟨-, -, type, htype, h⟩ := h
  have hcode := (OperationType.code_of_ofCode htype).symm
  cases type with
  | addWriter | removeWriter | adminRecovery =>
    simp only [bind_eq_ok, orExit_eq_ok, pure_eq_ok] at h
    obtain ⟨⟨address, o, c⟩, hcheck, rfl⟩ := h
    exact .rao (by simp) hcode hcheck
  | bootstrapDeployment =>
    simp only [bind_eq_ok, orExit_eq_ok, pure_eq_ok] at h
    obtain ⟨⟨address, o, c⟩, hcheck, rfl⟩ := h
    exact .bdo hcheck
  | tx =>
    simp only [bind_eq_ok, orExit_eq_ok, pure_eq_ok] at h
    obtain ⟨⟨address, o, c⟩, hcheck, rfl⟩ := h
    exact .txo hcheck
  | transfer =>
    simp only [bind_eq_ok, orExit_eq_ok, pure_eq_ok] at h
    obtain ⟨⟨address, o, c⟩, hcheck, rfl⟩ := h
    exact .tro hcheck
  | _ => cases h

/-- What every validator checks of an operation of the requester. -/
structure CommonValid (env : Env) (state : LocalState) (selfAddress : Option Str) (op : Operation)
    (p : PartialPayload) (requester : Str) : Prop where
  schema : SchemaValid env op p
  notSelf : selfAddress ≠ some requester
  address : bufferToAddress env p.address = some requester
  publicKey : (env.crypto.decodeSafe requester).length = publicKeyLength
  fresh : state.get (.record p.body.tx) = none
  hash : p.body.tx = env.crypto.blake3Safe (createMessage (messageComponents env p))
  signature : env.crypto.verify p.body.is p.body.tx (env.crypto.decodeSafe requester)
  current : state.getIndexerSequenceState env = p.body.txv
  notCompleted : p.completion = none

theorem validateCommon_eq_ok (h : validateCommon env state selfAddress op = .ok (p, requester)) :
    CommonValid env state selfAddress op p requester := by
  simp only [validateCommon, validateNoSelfValidation, validateRequesterAddress,
    validateTransactionUniqueness, validateSignature, validateTransactionValidity,
    isOperationNotCompleted, bind_eq_ok, require_eq_ok, orExit_eq_ok, pure_eq_ok,
    Prod.mk.injEq] at h
  obtain ⟨_, hschema, _, hself, _, ⟨_, hreq, _, hkey, rfl⟩, _, hfresh, _, ⟨_, hhash, hsig⟩, _,
    hcurrent, _, hnot, rfl, rfl⟩ := h
  refine ⟨isPayloadSchemaValid_eq_ok hschema, fun heq => ?_, hreq, hkey, hfresh, hhash,
    hhash ▸ hsig, hcurrent, hnot⟩
  rw [hreq, heq] at hself
  simp at hself

/-- An entry whose balance is at least `required`. -/
theorem requireBalance_eq_ok {entry : Option DecodedNodeEntry} {required : ℕ} {code : ResultCode}
    {u : Unit} : requireBalance entry required code = .ok u ↔
      ∃ e, entry = some e ∧ required ≤ Bytes.toNat e.balance := by
  simp [requireBalance]

end SettlementBus
