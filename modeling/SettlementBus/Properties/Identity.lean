import SettlementBus.Properties.Alias
import SettlementBus.Sample

/-! Which accounts the parties of a completed operation are. -/

namespace SettlementBus

open Lib

variable {env : Env} {w w' : World} {node : Node} {op : Operation} {type : OperationType}

/-- The operations that a validator completes. -/
def OperationType.IsCompleted : OperationType → Prop
  | .addWriter | .removeWriter | .adminRecovery | .bootstrapDeployment | .tx | .transfer => True
  | _ => False

instance : DecidablePred OperationType.IsCompleted := fun type => by
  cases type <;> unfold OperationType.IsCompleted <;> infer_instance

/-- The signers have different accounts, and the flags of a transfer say whose account the
recipient's is. -/
structure AccountsIdentified (env : Env) (op : Operation) : Prop where
  signers : ∀ address c, op.address = .buffer address → op.completion = some c →
    ∀ va, c.va = .buffer va → bufferToAddress env address ≠ bufferToAddress env va
  transfer : ∀ address o c, Check.validateTransferOperation env op = some (address, o, some c) →
    (isSelfTransfer address o ↔ bufferToAddress env o.to_ = bufferToAddress env address) ∧
      (isRecipientValidator o c ↔ bufferToAddress env o.to_ = bufferToAddress env c.va)

theorem party_eq_iff {b b' : Buffer} {p p' : Party} (h : party env b = .ok p)
    (h' : party env b' = .ok p') :
    bufferToAddress env b = bufferToAddress env b' ↔ toAscii b = toAscii b' := by
  rw [(party_eq_ok.mp h).1, (party_eq_ok.mp h').1, party_address h, party_address h',
    Option.some.injEq]

section

variable {α : Type} {args : List MessagePart} {txv tx in_ is : Buffer} {s : Signed α}
  {r v : Account}

theorem Completed.signers_ne_iff (h : Completed env w node type args txv tx in_ is s r v)
    (ha : op.address = .buffer s.address) {f : Completion Field} (hc : op.completion = some f)
    (hva : f = s.completion.toField) :
    (∀ address c, op.address = .buffer address → op.completion = some c → ∀ va,
      c.va = .buffer va → bufferToAddress env address ≠ bufferToAddress env va) ↔
      ¬toAscii s.address = toAscii s.completion.va := by
  rw [← party_eq_iff h.verified.requester h.verified.validator]
  subst hva
  constructor
  · exact fun hne => hne _ _ ha hc _ rfl
  · intro hne address c ha' hc' va hva'
    cases ha.symm.trans ha'
    cases hc.symm.trans hc'
    cases hva'
    exact hne

theorem Completed.accountsIdentified_iff
    (h : Completed env w node type args txv tx in_ is s r v) (ha : op.address = .buffer s.address)
    (hc : op.completion = some s.completion.toField)
    (haddr : op.addresses = [s.address, s.completion.va])
    (hno : ∀ o c, op.value ≠ some (.tro o c)) : AccountsIdentified env op ↔ op.AliasFree := by
  have hsigners := h.signers_ne_iff ha hc rfl
  rw [aliasFree_iff haddr]
  constructor
  · exact fun hid heq => absurd heq (hsigners.mp hid.signers)
  · refine fun hfree => ⟨hsigners.mpr fun heq => h.verified.address_ne (hfree heq), ?_⟩
    intro address o c hcheck
    obtain ⟨-, -, ⟨f, hv, -⟩, -⟩ := Check.validateTransferOperation_eq_some.mp hcheck
    exact absurd hv (hno _ f)

end

theorem TransferStep.accountsIdentified_iff (e : TransferStep env w node op) :
    AccountsIdentified env op ↔ op.AliasFree := by
  obtain ⟨-, ha, ⟨f, hv, hf⟩, -⟩ := Check.validateTransferOperation_eq_some.mp e.check
  have hver := e.completed.verified
  have hsigners := e.completed.signers_ne_iff ha (f := f) (by rw [Operation.completion, hv])
    (Check.completion_eq_some.mp hf).1
  have hself := party_eq_iff e.to_ hver.requester
  have hvalidator := party_eq_iff e.to_ hver.validator
  rw [aliasFree_iff_three (addresses_transfer e.check)]
  constructor
  · rintro ⟨hne, hflags⟩
    obtain ⟨hfself, hfvalidator⟩ := hflags _ _ _ e.check
    refine ⟨fun heq => absurd heq (hsigners.mp hne), fun heq => ?_, fun heq => ?_⟩
    · exact of_decide_eq_true (hfself.mpr (hself.mpr heq.symm))
    · exact of_decide_eq_true (hfvalidator.mpr (hvalidator.mpr heq))
  · rintro ⟨hva, hto, htova⟩
    refine ⟨hsigners.mpr fun heq => hver.address_ne (hva heq), fun address o c hcheck => ?_⟩
    cases e.check.symm.trans hcheck
    refine ⟨⟨fun h => ?_, fun h => ?_⟩, ⟨fun h => ?_, fun h => ?_⟩⟩
    · rw [show e.s.address = e.s.body.to_ from of_decide_eq_true h]
    · exact decide_eq_true (hto (hself.mp h).symm)
    · rw [show e.s.body.to_ = e.s.completion.va from of_decide_eq_true h]
    · exact decide_eq_true (htova (hvalidator.mp h))

theorem RoleCompleted.accountsIdentified_iff {s : Signed (RoleAccessOperation Buffer)}
    {r v : Account} (h : RoleCompleted env w node type s r v)
    (hcheck : Check.validateRoleAccessOperation env op =
      some (s.address, s.body, some s.completion)) : AccountsIdentified env op ↔ op.AliasFree := by
  obtain ⟨-, ha, ⟨f, hv, hf⟩, -⟩ := Check.validateRoleAccessOperation_eq_some.mp hcheck
  cases (Check.completion_eq_some.mp hf).1
  exact Completed.accountsIdentified_iff h ha (by rw [Operation.completion, hv])
    (addresses_roleAccess hcheck) (by simp [hv])

theorem BootstrapDeploymentStep.accountsIdentified_iff (e : BootstrapDeploymentStep env w node op) :
    AccountsIdentified env op ↔ op.AliasFree := by
  obtain ⟨-, ha, ⟨f, hv, hf⟩, -⟩ := Check.validateBootstrapDeploymentOperation_eq_some.mp e.check
  cases (Check.completion_eq_some.mp hf).1
  exact e.completed.accountsIdentified_iff ha (by rw [Operation.completion, hv])
    (addresses_bootstrapDeployment e.check) (by simp [hv])

theorem TxStep.accountsIdentified_iff (e : TxStep env w node op) :
    AccountsIdentified env op ↔ op.AliasFree := by
  obtain ⟨-, ha, ⟨f, hv, hf⟩, -⟩ := Check.validateTransactionOperation_eq_some.mp e.check
  cases (Check.completion_eq_some.mp hf).1
  exact e.completed.accountsIdentified_iff ha (by rw [Operation.completion, hv])
    (addresses_tx e.check) (by simp [hv])

/-- A completed operation that succeeds names accounts as its handler takes them exactly when no
two of its address fields are aliases. -/
theorem accountsIdentified_iff_aliasFree (hw : Visited env w)
    (hdec : decodeNode env node = some (type, op)) (htype : type.IsCompleted)
    (h : applyNode env node w = some (.success, w')) :
    AccountsIdentified env op ↔ op.AliasFree := by
  obtain ⟨_, _, hdec', e, -⟩ := (applyNode_eq_success hw.wellFormed).mp h
  cases hdec.symm.trans hdec'
  cases type with
  | addWriter => exact RoleCompleted.accountsIdentified_iff e.completed e.check
  | removeWriter => exact RoleCompleted.accountsIdentified_iff e.completed e.check
  | adminRecovery => exact RoleCompleted.accountsIdentified_iff e.completed e.check
  | bootstrapDeployment => exact BootstrapDeploymentStep.accountsIdentified_iff e
  | tx => exact TxStep.accountsIdentified_iff e
  | transfer => exact TransferStep.accountsIdentified_iff e
  | _ => exact absurd htype id

namespace Sample

theorem accountsIdentified_payAdmin :
    ∃ w', applyNode network (block bootstrap payAdminOp) funded = some (.success, w') ∧
      (AccountsIdentified network payAdminOp ↔ payAdminOp.AliasFree) := by
  have ⟨hdec, hstatus⟩ :
      decodeNode network (block bootstrap payAdminOp) = some (.transfer, payAdminOp) ∧
      (applyNode network (block bootstrap payAdminOp) funded).map Prod.fst = some .success := by
    decide +kernel
  obtain ⟨w', h⟩ := exists_applyNode hstatus
  exact ⟨w', h, accountsIdentified_iff_aliasFree reachable_funded.visited hdec trivial h⟩

/-- The admin validates its own operation under an address with a high bit. -/
theorem not_accountsIdentified_payAlias : Reachable network founded ∧
    (∃ w', applyNode network (block bootstrap payAliasOp) founded = some (.success, w')) ∧
    ¬AccountsIdentified network payAliasOp := by
  refine ⟨reachable_founded, exists_applyNode (by decide +kernel), fun h => ?_⟩
  exact h.signers adminAddress payAliasCompletion.toField rfl rfl adminAlias rfl (by decide +kernel)

end Sample

end SettlementBus
