import SettlementBus.Steps.Change
import SettlementBus.Steps.Frame

/-! Who signs an operation, and whom it names. -/

namespace SettlementBus

open Lib View

variable {env : Env} {w : World} {node : Node} {op : Operation} {type : OperationType}

/-- A field as an argument of `createMessage`, which leaves out what is no buffer. -/
def Field.part (f : Field) : MessagePart := .buffer (f.bytes?.getD [])

/-- The message whose hash the requester signs. -/
def Operation.message (env : Env) (type : OperationType) (op : Operation) : List MessagePart :=
  match op.value with
  | some (.cao o) => [.number env.config.networkId, o.txv.part, o.iw.part, o.in_.part,
      .number type.code]
  | some (.aco o) => [.number env.config.networkId, o.txv.part, o.ia.part, o.in_.part,
      .number type.code]
  | some (.bio o) => [.number env.config.networkId, o.txv.part, o.ia.part, o.am.part, o.in_.part,
      .number type.code]
  | some (.rao o _) => [.number env.config.networkId, o.txv.part, o.iw.part, o.in_.part,
      .number type.code]
  | some (.bdo o _) => [.number env.config.networkId, o.txv.part, o.bs.part, o.ic.part, o.in_.part,
      .number type.code]
  | some (.txo o _) => [.number env.config.networkId, o.txv.part, o.iw.part, o.ch.part, o.bs.part,
      .buffer env.config.bootstrap, o.in_.part, .number type.code]
  | some (.tro o _) => [.number env.config.networkId, o.txv.part, o.to_.part, o.am.part, o.in_.part,
      .number type.code]
  | none => []

/-- The account `s` requests the operation, and its key signed the recomputed hash. -/
structure SignedBy (env : Env) (type : OperationType) (op : Operation) (s : Str) : Prop where
  requester : op.address.account env = some s
  signed : ∃ tx is, op.tx = .buffer tx ∧ op.is = .buffer is ∧
    RequesterSigned env (op.message env type) tx is (env.crypto.decodeSafe s)

def OperationStep.requester : {type : OperationType} → OperationStep env w node op type → Party
  | .addAdmin, e => AddAdminStep.admin e
  | .disableInitialization, e => DisableInitializationStep.requester e
  | .balanceInitialization, e => InitializeBalanceStep.requester e
  | .appendWhitelist, e => AppendWhitelistStep.requester e
  | .addWriter, e => (AddWriterStep.s e).requester
  | .removeWriter, e => (RemoveWriterStep.s e).requester
  | .adminRecovery, e => (AdminRecoveryStep.s e).requester
  | .addIndexer, e => AddIndexerStep.requester e
  | .removeIndexer, e => RemoveIndexerStep.requester e
  | .banValidator, e => BanValidatorStep.requester e
  | .bootstrapDeployment, e => (BootstrapDeploymentStep.s e).requester
  | .tx, e => (TxStep.s e).requester
  | .transfer, e => (TransferStep.s e).requester

/-- The validator of a completed operation. -/
def OperationStep.validator : {type : OperationType} → OperationStep env w node op type → Option Str
  | .addWriter, e => some (AddWriterStep.s e).validator.address
  | .removeWriter, e => some (RemoveWriterStep.s e).validator.address
  | .adminRecovery, e => some (AdminRecoveryStep.s e).validator.address
  | .bootstrapDeployment, e => some (BootstrapDeploymentStep.s e).validator.address
  | .tx, e => some (TxStep.s e).validator.address
  | .transfer, e => some (TransferStep.s e).validator.address
  | _, _ => none

theorem signedBy {address tx is : Buffer} {requester : Party} {args : List MessagePart}
    (haddress : op.address = .buffer address) (htx : op.tx = .buffer tx) (his : op.is = .buffer is)
    (hparty : party env address = .ok requester) (hargs : op.message env type = args)
    (hsigned : RequesterSigned env args tx is requester.publicKey) :
    SignedBy env type op requester.address := by
  obtain ⟨haccount, hkey, -⟩ := party_eq_ok.mp hparty
  exact ⟨by rw [haddress, Field.account_buffer, haccount], tx, is, htx, his, hkey ▸ hargs ▸ hsigned⟩

theorem signedBy_adminControl {address : Buffer} {o : AdminControlOperation Buffer}
    {requester : Party} (hcheck : Check.validateAdminControlOperation env op = some (address, o))
    (h : AdminSigned env w node (adminControlMessage env type o) address o.txv o.tx o.is
      requester) : SignedBy env type op requester.address := by
  obtain ⟨-, ha, hv, -⟩ := Check.validateAdminControlOperation_eq_some.mp hcheck
  exact signedBy ha (by rw [Operation.tx, hv]; rfl) (by rw [Operation.is, hv]; rfl) h.decoded
    (by rw [Operation.message, hv]; rfl) h.signed

theorem signedBy_roleAccess {s : Signed (RoleAccessOperation Buffer)}
    (hcheck : Check.validateRoleAccessOperation env op = some (s.address, s.body, some s.completion))
    (h : s.Verified env type (roleAccessMessage env type s.body) s.body.tx s.body.in_ s.body.is) :
    SignedBy env type op s.requester.address := by
  obtain ⟨-, ha, ⟨f, hv, -⟩, -⟩ := Check.validateRoleAccessOperation_eq_some.mp hcheck
  exact signedBy ha (by rw [Operation.tx, hv]; rfl) (by rw [Operation.is, hv]; rfl) h.requester
    (by rw [Operation.message, hv]; rfl) h.signed

theorem OperationStep.signedBy (e : OperationStep env w node op type) :
    SignedBy env type op e.requester.address := by
  cases type with
  | addAdmin =>
    obtain ⟨-, ha, hv, -⟩ := Check.validateCoreAdminOperation_eq_some.mp e.check
    exact SettlementBus.signedBy ha (by rw [Operation.tx, hv]; rfl) (by rw [Operation.is, hv]; rfl)
      (AddAdminStep.requester e) (by rw [Operation.message, hv]; rfl) e.signed
  | disableInitialization =>
    obtain ⟨-, ha, hv, -⟩ := Check.validateCoreAdminOperation_eq_some.mp e.check
    exact SettlementBus.signedBy ha (by rw [Operation.tx, hv]; rfl) (by rw [Operation.is, hv]; rfl)
      e.signed.decoded (by rw [Operation.message, hv]; rfl) e.signed.signed
  | balanceInitialization =>
    obtain ⟨-, ha, hv, -⟩ := Check.validateBalanceInitialization_eq_some.mp e.check
    exact SettlementBus.signedBy ha (by rw [Operation.tx, hv]; rfl) (by rw [Operation.is, hv]; rfl)
      e.signed.decoded (by rw [Operation.message, hv]; rfl) e.signed.signed
  | appendWhitelist => exact signedBy_adminControl e.check e.signed
  | addIndexer => exact signedBy_adminControl e.check e.signed
  | removeIndexer => exact signedBy_adminControl e.check e.signed
  | banValidator => exact signedBy_adminControl e.check e.signed
  | addWriter => exact signedBy_roleAccess e.check e.completed.verified
  | removeWriter => exact signedBy_roleAccess e.check e.completed.verified
  | adminRecovery => exact signedBy_roleAccess e.check e.completed.verified
  | bootstrapDeployment =>
    obtain ⟨-, ha, ⟨f, hv, -⟩, -⟩ := Check.validateBootstrapDeploymentOperation_eq_some.mp e.check
    exact SettlementBus.signedBy ha (by rw [Operation.tx, hv]; rfl) (by rw [Operation.is, hv]; rfl)
      e.completed.verified.requester (by rw [Operation.message, hv]; rfl) e.completed.verified.signed
  | tx =>
    obtain ⟨-, ha, ⟨f, hv, -⟩, -⟩ := Check.validateTransactionOperation_eq_some.mp e.check
    exact SettlementBus.signedBy ha (by rw [Operation.tx, hv]; rfl) (by rw [Operation.is, hv]; rfl)
      e.completed.verified.requester (by rw [Operation.message, hv]; rfl) e.completed.verified.signed
  | transfer =>
    obtain ⟨-, ha, ⟨f, hv, -⟩, -⟩ := Check.validateTransferOperation_eq_some.mp e.check
    exact SettlementBus.signedBy ha (by rw [Operation.tx, hv]; rfl) (by rw [Operation.is, hv]; rfl)
      e.completed.verified.requester (by rw [Operation.message, hv]; rfl) e.completed.verified.signed

/-! ### The accounts it names -/

/-- The accounts whose entries an operation may change. -/
inductive Operation.Names (env : Env) (w : World) (op : Operation) (s : Str) : Prop
  | requester (h : op.address.account env = some s)
  | validator {c : Completion Field} (hc : op.completion = some c) (h : c.va.account env = some s)
  | recipient (h : op.recipient.account env = some s)
  | target (h : op.target.account env = some s)
  | creator {bs : Buffer} (hbs : op.subnetwork = .buffer bs) (h : w.creator env bs = some s)

theorem OperationStep.names_requester (e : OperationStep env w node op type) :
    op.Names env w e.requester.address := .requester e.signedBy.requester

/-- The two signers of a completed operation. -/
theorem Signed.Verified.names_validator {α : Type} {s : Signed α} {args : List MessagePart}
    {tx in_ is : Buffer} {f : Completion Field} (h : s.Verified env type args tx in_ is)
    (hop : op.completion = some f) (hf : Check.completion env f = some (some s.completion)) :
    op.Names env w s.validator.address := by
  obtain ⟨rfl, -⟩ := Check.completion_eq_some.mp hf
  exact .validator hop ((party_eq_ok.mp h.validator).1)

theorem names_target {address : Buffer} {o : AdminControlOperation Buffer} {s : Str}
    (hcheck : Check.validateAdminControlOperation env op = some (address, o))
    (h : bufferToAddress env o.ia = some s) : op.Names env w s := by
  obtain ⟨-, -, hv, -⟩ := Check.validateAdminControlOperation_eq_some.mp hcheck
  refine .target ?_
  rw [Operation.target, hv]
  exact h

theorem OperationStep.names_validator (e : OperationStep env w node op type) :
    ∀ s, e.validator = some s → op.Names env w s := by
  rintro s h
  cases type with
  | addWriter | removeWriter | adminRecovery =>
    obtain rfl := Option.some.inj h
    obtain ⟨-, -, ⟨f, hv, hf⟩, -⟩ := Check.validateRoleAccessOperation_eq_some.mp e.check
    exact e.completed.verified.names_validator (by rw [Operation.completion, hv]) hf
  | bootstrapDeployment =>
    obtain rfl := Option.some.inj h
    obtain ⟨-, -, ⟨f, hv, hf⟩, -⟩ := Check.validateBootstrapDeploymentOperation_eq_some.mp e.check
    exact e.completed.verified.names_validator (by rw [Operation.completion, hv]) hf
  | tx =>
    obtain rfl := Option.some.inj h
    obtain ⟨-, -, ⟨f, hv, hf⟩, -⟩ := Check.validateTransactionOperation_eq_some.mp e.check
    exact e.completed.verified.names_validator (by rw [Operation.completion, hv]) hf
  | transfer =>
    obtain rfl := Option.some.inj h
    obtain ⟨-, -, ⟨f, hv, hf⟩, -⟩ := Check.validateTransferOperation_eq_some.mp e.check
    exact e.completed.verified.names_validator (by rw [Operation.completion, hv]) hf
  | _ => cases h

theorem TxStep.creator_eq (e : TxStep env w node op) : w.creator env e.s.body.bs = some e.creator := by
  obtain ⟨buffer, entry, hget, hdec, hcreator⟩ := e.deployed
  rw [World.creator, hget, Option.bind_some, hdec]
  exact hcreator

theorem TxStep.names_creator (e : TxStep env w node op) : op.Names env w e.creator := by
  obtain ⟨-, -, ⟨f, hv, -⟩, -⟩ := Check.validateTransactionOperation_eq_some.mp e.check
  refine .creator ?_ (TxStep.creator_eq e)
  rw [Operation.subnetwork, hv]
  rfl

/-- An operation leaves the accounts that it does not name. -/
theorem OperationStep.get_account (e : OperationStep env w node op type) {s : Str}
    (hs : ¬op.Names env w s) : e.result.view.get (.account s) = w.view.get (.account s) := by
  have hne : ∀ t, op.Names env w t → EntryKey.account s ≠ .account t := by
    rintro t ht ⟨⟩
    exact hs ht
  have hrequester := hne _ e.names_requester
  have hvalidator := fun t ht => hne t (e.names_validator t ht)
  have hother : ∀ k : EntryKey, k.isAccount = false → EntryKey.account s ≠ k :=
    fun _ hk => View.account_ne hk
  cases type with
  | addAdmin =>
    simp only [OperationStep.result, AddAdminStep.result]
    iterate 6 rw [Store.get_put_ne _ _ (hother _ rfl)]
    refine (Store.get_put_ne _ _ hrequester).trans ?_
    iterate 2 rw [Store.get_put_ne _ _ (hother _ rfl)]
  | disableInitialization =>
    simp only [OperationStep.result, DisableInitializationStep.result]
    iterate 2 rw [Store.get_put_ne _ _ (hother _ rfl)]
  | balanceInitialization =>
    have hrecipient := hne _ (.recipient (InitializeBalanceStep.account_recipient e))
    simp only [OperationStep.result, InitializeBalanceStep.result]
    rw [Store.get_put_ne _ _ (hother _ rfl), Store.get_put_ne _ _ hrecipient]
  | appendWhitelist =>
    have htarget := hne _ (names_target e.check (party_eq_ok.mp e.ia).1)
    simp only [OperationStep.result, AppendWhitelistStep.result]
    rw [Store.get_put_ne _ _ (hother _ rfl), Store.get_put_ne _ _ htarget,
      get_assignLicense (hother _ rfl) (fun _ => hother _ rfl)]
    exact get_putAccount hrequester
  | addWriter =>
    simp only [OperationStep.result, AddWriterStep.result]
    rw [Store.get_put_ne _ _ (hother _ rfl), Store.get_put_ne _ _ (hvalidator _ rfl)]
    iterate 2 rw [Store.get_put_ne _ _ (hother _ rfl)]
    rw [get_registerKey, if_neg (fun h => hother _ rfl h.1)]
    exact Store.get_put_ne _ _ hrequester
  | removeWriter =>
    simp only [OperationStep.result, RemoveWriterStep.result]
    rw [Store.get_put_ne _ _ (hother _ rfl), Store.get_put_ne _ _ (hvalidator _ rfl)]
    exact Store.get_put_ne _ _ hrequester
  | adminRecovery =>
    simp only [OperationStep.result, AdminRecoveryStep.result]
    rw [Store.get_put_ne _ _ (hother _ rfl), Store.get_put_ne _ _ (hvalidator _ rfl)]
    refine (Store.get_put_ne _ _ hrequester).trans ?_
    iterate 2 rw [Store.get_put_ne _ _ (hother _ rfl)]
  | addIndexer =>
    have htarget := hne _ (names_target e.check (party_eq_ok.mp e.ia).1)
    simp only [OperationStep.result, AddIndexerStep.result]
    rw [Store.get_put_ne _ _ (hother _ rfl)]
    exact (Store.get_put_ne _ _ hrequester).trans (Store.get_put_ne _ _ htarget)
  | removeIndexer =>
    have htarget := hne _ (names_target e.check (party_eq_ok.mp e.ia).1)
    simp only [OperationStep.result, RemoveIndexerStep.result]
    rw [Store.get_put_ne _ _ (hother _ rfl)]
    refine (Store.get_put_ne _ _ hrequester).trans ?_
    rw [Store.get_put_ne _ _ htarget]
    iterate 2 rw [Store.get_put_ne _ _ (hother _ rfl)]
  | banValidator =>
    have htarget := hne _ (names_target e.check e.ia)
    simp only [OperationStep.result, BanValidatorStep.result]
    rw [Store.get_put_ne _ _ (hother _ rfl)]
    exact (Store.get_put_ne _ _ hrequester).trans (Store.get_put_ne _ _ htarget)
  | bootstrapDeployment =>
    simp only [OperationStep.result, BootstrapDeploymentStep.result]
    rw [Store.get_put_ne _ _ (hother _ rfl), Store.get_put_ne _ _ (hvalidator _ rfl)]
    exact (Store.get_put_ne _ _ hrequester).trans (Store.get_put_ne _ _ (hother _ rfl))
  | tx =>
    simp only [OperationStep.result, TxStep.result]
    rw [Store.get_put_ne _ _ (hother _ rfl), get_putAccount (hne _ (TxStep.names_creator e)),
      Store.get_put_ne _ _ (hvalidator _ rfl)]
    exact Store.get_put_ne _ _ hrequester
  | transfer =>
    have hrecipient := hne _ (.recipient (TransferStep.account_recipient e))
    simp only [OperationStep.result, TransferStep.result]
    rw [Store.get_put_ne _ _ (hother _ rfl), get_putAgain hrecipient,
      Store.get_put_ne _ _ (hvalidator _ rfl)]
    exact (Store.get_put_ne _ _ hrequester).trans (get_putFirst hrecipient)

end SettlementBus
