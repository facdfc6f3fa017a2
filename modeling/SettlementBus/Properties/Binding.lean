import SettlementBus.Invariants.Registry
import SettlementBus.Properties.Preimage
import SettlementBus.Properties.Replay
import SettlementBus.Steps.Parties

/-! What the hash under which an operation is recorded says of the operation. -/

namespace SettlementBus

open Lib View

variable {env : Env} {w w' : World} {node : Node} {op op' : Operation} {type type' : OperationType}
  {s s' : Str} {es : List Event}

/-- The account requests the operation, and the checks of the type's handler that read no state
accept the request: the schema, the recomputed hash, and the signature under the key of `address`. -/
structure Requested (env : Env) (type : OperationType) (op : Operation) (s : Str) : Prop
    extends SignedBy env type op s where
  preimage : op.Preimage env type .requester (op.message env type)

/-- The two messages are no collision of the hash. -/
def NoCollision (env : Env) (parts parts' : List MessagePart) : Prop :=
  env.crypto.blake3Safe (createMessage parts) = env.crypto.blake3Safe (createMessage parts') →
    createMessage parts = createMessage parts'

/-- The types whose handlers want the admin as the requester, with `ADD_ADMIN`, which makes it. -/
def OperationType.byAdmin : OperationType → Bool
  | .addWriter | .removeWriter | .bootstrapDeployment | .tx | .transfer => false
  | _ => true

theorem Requested.same_message (h : Requested env type op s) (h' : Requested env type' op' s')
    (htx : op.tx = op'.tx) (hcol : NoCollision env (op.message env type) (op'.message env type')) :
    type = type' ∧ op.message env type = op'.message env type' := by
  obtain ⟨tx, is, hop, -, hsigned⟩ := h.signed
  obtain ⟨tx', is', hop', -, hsigned'⟩ := h'.signed
  cases (hop.symm.trans htx).trans hop'
  obtain ⟨rfl, -, hparts⟩ := h.preimage.unique h'.preimage
    (hcol (hsigned.hash.trans hsigned'.hash.symm))
  exact ⟨rfl, hparts⟩

/-! ### Applied operations -/

theorem OperationStep.requested (hcode : op.type = type.code) (e : OperationStep env w node op type) :
    Requested env type op e.requester.address := by
  refine ⟨e.signedBy, ?_⟩
  cases type with
  | addAdmin =>
    obtain ⟨-, -, hv, -⟩ := Check.validateCoreAdminOperation_eq_some.mp e.check
    rw [Operation.message, hv]
    exact .coreAdmin (by simp) hcode e.check
  | disableInitialization =>
    obtain ⟨-, -, hv, -⟩ := Check.validateCoreAdminOperation_eq_some.mp e.check
    rw [Operation.message, hv]
    exact .coreAdmin (by simp) hcode e.check
  | balanceInitialization =>
    obtain ⟨-, -, hv, -⟩ := Check.validateBalanceInitialization_eq_some.mp e.check
    rw [Operation.message, hv]
    exact .balanceInitialization e.check
  | appendWhitelist =>
    obtain ⟨-, -, hv, -⟩ := Check.validateAdminControlOperation_eq_some.mp e.check
    rw [Operation.message, hv]
    exact .adminControl (by simp) hcode e.check
  | addIndexer =>
    obtain ⟨-, -, hv, -⟩ := Check.validateAdminControlOperation_eq_some.mp e.check
    rw [Operation.message, hv]
    exact .adminControl (by simp) hcode e.check
  | removeIndexer =>
    obtain ⟨-, -, hv, -⟩ := Check.validateAdminControlOperation_eq_some.mp e.check
    rw [Operation.message, hv]
    exact .adminControl (by simp) hcode e.check
  | banValidator =>
    obtain ⟨-, -, hv, -⟩ := Check.validateAdminControlOperation_eq_some.mp e.check
    rw [Operation.message, hv]
    exact .adminControl (by simp) hcode e.check
  | addWriter =>
    obtain ⟨-, -, ⟨f, hv, -⟩, -⟩ := Check.validateRoleAccessOperation_eq_some.mp e.check
    rw [Operation.message, hv]
    exact .roleAccess (by simp) hcode e.check
  | removeWriter =>
    obtain ⟨-, -, ⟨f, hv, -⟩, -⟩ := Check.validateRoleAccessOperation_eq_some.mp e.check
    rw [Operation.message, hv]
    exact .roleAccess (by simp) hcode e.check
  | adminRecovery =>
    obtain ⟨-, -, ⟨f, hv, -⟩, -⟩ := Check.validateRoleAccessOperation_eq_some.mp e.check
    rw [Operation.message, hv]
    exact .roleAccess (by simp) hcode e.check
  | bootstrapDeployment =>
    obtain ⟨-, -, ⟨f, hv, -⟩, -⟩ := Check.validateBootstrapDeploymentOperation_eq_some.mp e.check
    rw [Operation.message, hv]
    exact .bootstrapDeployment e.check
  | tx =>
    obtain ⟨-, -, ⟨f, hv, -⟩, -⟩ := Check.validateTransactionOperation_eq_some.mp e.check
    rw [Operation.message, hv]
    exact .tx e.check
  | transfer =>
    obtain ⟨-, -, ⟨f, hv, -⟩, -⟩ := Check.validateTransferOperation_eq_some.mp e.check
    rw [Operation.message, hv]
    exact .transfer e.check

theorem OperationStep.requester_eq_admin (h1 : env.crypto.OneAddressPerKey) {wk : Buffer}
    (hat : w.AdminAt env s wk) (e : OperationStep env w node op type) (htype : type.byAdmin) :
    e.requester.address = s := by
  cases type with
  | addAdmin =>
    obtain ⟨address, hget, -⟩ := hat.entry
    cases hget.symm.trans e.noAdmin
  | disableInitialization => exact hat.address_eq h1 e.signed.decoded e.signed.admin
  | balanceInitialization => exact hat.address_eq h1 e.signed.decoded e.signed.admin
  | appendWhitelist => exact hat.address_eq h1 e.signed.decoded e.signed.admin
  | addIndexer => exact hat.address_eq h1 e.signed.decoded e.signed.admin
  | removeIndexer => exact hat.address_eq h1 e.signed.decoded e.signed.admin
  | banValidator => exact hat.address_eq h1 e.signed.decoded e.signed.admin
  | adminRecovery => exact hat.address_eq h1 e.completed.verified.requester e.admin
  | addWriter => cases htype
  | removeWriter => cases htype
  | bootstrapDeployment => cases htype
  | tx => cases htype
  | transfer => cases htype

theorem type_of_decodeNode (h : decodeNode env node = some (type, op)) : op.type = type.code := by
  unfold decodeNode at h
  split at h
  case isTrue => cases h
  case isFalse =>
    simp only [Option.bind_eq_bind, Option.bind_eq_some_iff, Option.pure_def, Option.some.injEq,
      Prod.mk.injEq] at h
    obtain ⟨op', -, type', hcode, rfl, rfl⟩ := h
    exact (OperationType.code_of_ofCode hcode).symm

/-- The operation was requested, by the admin's account where its type is one of the admin's. -/
def Event.RequestedUnder (env : Env) (admin : Str) (e : Event) : Prop :=
  ∀ node type op, e.cause = .operation node type op →
    ∃ s, Requested env type op s ∧ (type.byAdmin → s = admin)

theorem Event.Step.requestedUnder (h1 : env.crypto.OneAddressPerKey) {admin : Str} {e : Event}
    (hs : e.Step env) (hat : ∃ wk, e.before.AdminAt env admin wk) : e.RequestedUnder env admin := by
  intro node type op hcause
  cases hs with
  | operation hdec step =>
    cases hcause
    obtain ⟨wk, hat⟩ := hat
    exact ⟨_, step.requested (type_of_decodeNode hdec), step.requester_eq_admin h1 hat⟩
  | penalty => cases hcause

/-- The first event of a run makes its requester the admin. -/
theorem Event.Step.requestedUnder_genesis {e : Event} (hs : e.Step env)
    (h : e.before = genesis env) :
    ∃ admin, e.RequestedUnder env admin ∧ ∃ wk, e.after.AdminAt env admin wk := by
  cases hs with
  | operation hdec step =>
    cases h
    obtain rfl := step.type_eq_addAdmin
    refine ⟨_, fun node type op hcause => ?_, _, AddAdminStep.adminAt step⟩
    cases hcause
    exact ⟨_, step.requested (type_of_decodeNode hdec), fun _ => rfl⟩
  | penalty hpos hn step =>
    cases h
    exact absurd step.has not_has_genesis

theorem Path.requestedUnder (h1 : env.crypto.OneAddressPerKey) {e : Event}
    (hp : Path env (genesis env) es w) (he : e ∈ es) :
    ∃ admin, e.RequestedUnder env admin ∧ ∃ wk, w.AdminAt env admin wk := by
  cases es with
  | nil => exact absurd he List.not_mem_nil
  | cons first es =>
    obtain ⟨hbefore, hs, hlater⟩ := Path.cons_iff.mp hp
    obtain ⟨admin, hfirst, hat⟩ := hs.requestedUnder_genesis hbefore.symm
    refine ⟨admin, ?_, (hlater.adminAt h1 hat).2⟩
    obtain rfl | he := List.mem_cons.mp he
    · exact hfirst
    · obtain ⟨hstep, -, hat⟩ := hlater.mem (P := fun w => ∃ wk, w.AdminAt env admin wk)
        (hs.wellFormed (hbefore ▸ wellFormed_genesis)) hat (fun _ hs _ => hs.adminAt h1) he
      exact hstep.requestedUnder h1 hat

theorem Event.tx_eq_some_iff {e : Event} {tx : Buffer} : e.tx = some tx ↔
    ∃ node type op, e.cause = .operation node type op ∧ op.tx.bytes? = some tx := by
  unfold Event.tx Event.record
  cases e.cause with
  | operation node type op => simp
  | penalty => simp

/-- The operation that put the record of a hash: it has the same type and says the same as `op`, and
its own requester, who is the admin where the type is one of the admin's, signed it. -/
structure RecordedFor (env : Env) (w : World) (type : OperationType) (op op' : Operation) (s : Str) :
    Prop extends Requested env type op' s where
  tx_eq : op'.tx = op.tx
  message_eq : op'.message env type = op.message env type
  admin : type.byAdmin → ∃ wk, w.AdminAt env s wk

/-- The hash of an operation binds its type and all that its requester signs, not the requester: of
two operations with one hash, and in every run of an operation and the one under whose record it
counts as applied. -/
theorem hash_binds_message (h1 : env.crypto.OneAddressPerKey) :
    (∀ type type' op op' s s', Requested env type op s → Requested env type' op' s' →
        op.tx = op'.tx → NoCollision env (op.message env type) (op'.message env type') →
          type = type' ∧ op.message env type = op'.message env type') ∧
      ∀ es w, Run env (genesis env) es w → ∀ type op s tx, Requested env type op s →
        op.tx = .buffer tx → w.view.Present (.record tx) →
        (∀ e ∈ es, ∀ node type' op', e.cause = .operation node type' op' →
          NoCollision env (op.message env type) (op'.message env type')) →
        ∃ e ∈ es, ∃ node op' s', e.cause = .operation node type op' ∧
          RecordedFor env w type op op' s' := by
  refine ⟨fun _ _ _ _ _ _ h h' htx hcol => h.same_message h' htx hcol, ?_⟩
  intro es w hrun type op s tx h htx hpresent hcol
  have hp := hrun.path wellFormed_genesis
  obtain ⟨value, hvalue⟩ := Option.isSome_iff_exists.mp hpresent
  obtain hgenesis | ⟨e, he, hrecord⟩ := (hp.get_record tx value).mp hvalue
  · cases hgenesis
  · obtain ⟨node, type', op', hcause, hbytes⟩ :=
      Event.tx_eq_some_iff.mp (Event.tx_eq_some.mpr ⟨value, hrecord⟩)
    obtain ⟨admin, hunder, hat⟩ := hp.requestedUnder h1 he
    obtain ⟨s', h', hadmin⟩ := hunder node type' op' hcause
    obtain ⟨tx', is', htx', -⟩ := h'.signed
    rw [htx'] at hbytes
    cases hbytes
    obtain ⟨rfl, hmessage⟩ :=
      h.same_message h' (htx.trans htx'.symm) (hcol e he node type' op' hcause)
    refine ⟨e, he, node, op', s', hcause, h', htx'.trans htx.symm, hmessage.symm, fun htype => ?_⟩
    rwa [hadmin htype]

theorem requested_of_applyNode (hw : w.WellFormed) (hdec : decodeNode env node = some (type, op))
    (h : applyNode env node w = some (.success, w')) (hs : op.address.account env = some s) :
    Requested env type op s := by
  obtain ⟨_, _, hdec', e, -⟩ := (applyNode_eq_success hw).mp h
  cases hdec.symm.trans hdec'
  have hr := e.requested (type_of_decodeNode hdec)
  cases hs.symm.trans hr.requester
  exact hr

namespace Sample

/-- The balance of Bob is initialized as well. -/
def bobFunded : World := network.after [block bootstrap fundBobOp] funded

/-- Either transfer is applied, and after the one of Bob the one of Alice is not. -/
theorem transfers_bobFunded :
    (apply network [block bootstrap fundBobOp] funded).isSome ∧
      decodeNode network (block bootstrap payAdminOp) = some (.transfer, payAdminOp) ∧
      decodeNode network (block bootstrap copyPayOp) = some (.transfer, copyPayOp) ∧
      (applyNode network (block bootstrap payAdminOp) bobFunded).map Prod.fst = some .success ∧
      (applyNode network (block bootstrap copyPayOp) bobFunded).map Prod.fst = some .success ∧
      ((applyNode network (block bootstrap copyPayOp) bobFunded).bind fun r =>
        (applyNode network (block bootstrap payAdminOp) r.2).map fun r' => (r.1, r'.1)) =
          some (.success, .ignore) := by
  decide +kernel

theorem reachable_bobFunded : Reachable network bobFunded :=
  reachable_funded.after transfers_bobFunded.1

theorem requested_payAdminOp : Requested network .transfer payAdminOp alice := by
  obtain ⟨-, hdec, -, hsuccess, -⟩ := transfers_bobFunded
  obtain ⟨w', h⟩ := exists_applyNode hsuccess
  exact requested_of_applyNode reachable_bobFunded.visited.wellFormed hdec h (by decide +kernel)

theorem requested_copyPayOp : Requested network .transfer copyPayOp bob := by
  obtain ⟨-, -, hdec, -, hsuccess, -⟩ := transfers_bobFunded
  obtain ⟨w', h⟩ := exists_applyNode hsuccess
  exact requested_of_applyNode reachable_bobFunded.visited.wellFormed hdec h (by decide +kernel)

/-- Bob signs the hash of the transfer of Alice as its own: once that is applied, the transfer of
Alice, which the ledger accepted before, is taken for applied. -/
theorem not_requester_bound : Reachable network bobFunded ∧
    Requested network .transfer payAdminOp alice ∧ Requested network .transfer copyPayOp bob ∧
    payAdminOp.tx = copyPayOp.tx ∧ payAdminOp.address ≠ copyPayOp.address ∧
    (applyNode network (block bootstrap payAdminOp) bobFunded).map Prod.fst = some .success ∧
    ((applyNode network (block bootstrap copyPayOp) bobFunded).bind fun r =>
      (applyNode network (block bootstrap payAdminOp) r.2).map fun r' => (r.1, r'.1)) =
        some (.success, .ignore) :=
  ⟨reachable_bobFunded, requested_payAdminOp, requested_copyPayOp, by decide +kernel,
    by decide +kernel, transfers_bobFunded.2.2.2.1, transfers_bobFunded.2.2.2.2.2⟩

theorem hash_binds_message_copyPay : OperationType.transfer = .transfer ∧
    payAdminOp.message network .transfer = copyPayOp.message network .transfer :=
  (hash_binds_message oneAddressPerKey).1 _ _ _ _ _ _ requested_payAdminOp requested_copyPayOp
    (by decide +kernel) fun _ => by decide +kernel

end Sample

end SettlementBus
