import Mathlib.Tactic.MkIffOfInductiveProp
import SettlementBus.Config

/-! The schemas of `check.js`. A schema that accepts an operation returns its fields. -/

namespace SettlementBus.Check

/-- The `buffer` type: the length is exact and the bytes are not all zero. -/
def buffer (length : ℕ) : Field → Option Buffer
  | .buffer b => if b.length = length ∧ ∃ x ∈ b, x ≠ 0 then some b else none
  | _ => none

def bufferAmount (length : ℕ) : Field → Option Buffer
  | .buffer b => if b.length = length then some b else none
  | _ => none

/-- `optional: true`, where the `custom` check refuses `null`. -/
def optional (check : Field → Option Buffer) : Field → Option (Option Buffer)
  | .undefined => some none
  | .null => none
  | f => (check f).map some

/-- `va`, `vn` and `vs`: all present or all absent. -/
def completion (env : Env) (c : Completion Field) : Option (Option (Completion Buffer)) := do
  let va ← optional (buffer env.config.addressLength) c.va
  let vn ← optional (buffer nonceByteLength) c.vn
  let vs ← optional (buffer signatureByteLength) c.vs
  match va, vn, vs with
  | some va, some vn, some vs => some (some { va, vn, vs })
  | none, none, none => some none
  | _, _, _ => none

def type (allowedTypes : List OperationType) (op : Operation) : Option Unit :=
  if op.type ∈ allowedTypes.map OperationType.code then some () else none

def validateCoreAdminOperation (env : Env) (op : Operation) :
    Option (Buffer × CoreAdminOperation Buffer) := do
  type [.addAdmin, .disableInitialization] op
  let address ← buffer env.config.addressLength op.address
  let some (.cao o) := op.value | none
  let tx ← buffer hashByteLength o.tx
  let txv ← buffer hashByteLength o.txv
  let iw ← buffer writerByteLength o.iw
  let in_ ← buffer nonceByteLength o.in_
  let is ← buffer signatureByteLength o.is
  return (address, { tx, txv, iw, in_, is })

def validateBalanceInitialization (env : Env) (op : Operation) :
    Option (Buffer × BalanceInitializationOperation Buffer) := do
  type [.balanceInitialization] op
  let address ← buffer env.config.addressLength op.address
  let some (.bio o) := op.value | none
  let tx ← buffer hashByteLength o.tx
  let txv ← buffer hashByteLength o.txv
  let ia ← buffer env.config.addressLength o.ia
  let am ← buffer amountByteLength o.am
  let in_ ← buffer nonceByteLength o.in_
  let is ← buffer signatureByteLength o.is
  return (address, { tx, txv, ia, am, in_, is })

def validateAdminControlOperation (env : Env) (op : Operation) :
    Option (Buffer × AdminControlOperation Buffer) := do
  type [.appendWhitelist, .addIndexer, .removeIndexer, .banValidator] op
  let address ← buffer env.config.addressLength op.address
  let some (.aco o) := op.value | none
  let tx ← buffer hashByteLength o.tx
  let txv ← buffer hashByteLength o.txv
  let ia ← buffer env.config.addressLength o.ia
  let in_ ← buffer nonceByteLength o.in_
  let is ← buffer signatureByteLength o.is
  return (address, { tx, txv, ia, in_, is })

def validateRoleAccessOperation (env : Env) (op : Operation) :
    Option (Buffer × RoleAccessOperation Buffer × Option (Completion Buffer)) := do
  type [.addWriter, .removeWriter, .adminRecovery] op
  let address ← buffer env.config.addressLength op.address
  let some (.rao o c) := op.value | none
  let tx ← buffer hashByteLength o.tx
  let txv ← buffer hashByteLength o.txv
  let iw ← buffer writerByteLength o.iw
  let in_ ← buffer nonceByteLength o.in_
  let is ← buffer signatureByteLength o.is
  let c ← completion env c
  return (address, { tx, txv, iw, in_, is }, c)

def validateTransactionOperation (env : Env) (op : Operation) :
    Option (Buffer × TxOperation Buffer × Option (Completion Buffer)) := do
  type [.tx] op
  let address ← buffer env.config.addressLength op.address
  let some (.txo o c) := op.value | none
  let tx ← buffer hashByteLength o.tx
  let txv ← buffer hashByteLength o.txv
  let iw ← buffer writerByteLength o.iw
  let ch ← buffer nonceByteLength o.ch
  let bs ← buffer bootstrapByteLength o.bs
  let mbs ← buffer bootstrapByteLength o.mbs
  let in_ ← buffer nonceByteLength o.in_
  let is ← buffer signatureByteLength o.is
  let c ← completion env c
  return (address, { tx, txv, iw, ch, bs, mbs, in_, is }, c)

def validateBootstrapDeploymentOperation (env : Env) (op : Operation) :
    Option (Buffer × BootstrapDeploymentOperation Buffer × Option (Completion Buffer)) := do
  type [.bootstrapDeployment] op
  let address ← buffer env.config.addressLength op.address
  let some (.bdo o c) := op.value | none
  let tx ← buffer hashByteLength o.tx
  let txv ← buffer hashByteLength o.txv
  let bs ← buffer bootstrapByteLength o.bs
  let ic ← buffer channelByteLength o.ic
  let in_ ← buffer nonceByteLength o.in_
  let is ← buffer signatureByteLength o.is
  let c ← completion env c
  return (address, { tx, txv, bs, ic, in_, is }, c)

def validateTransferOperation (env : Env) (op : Operation) :
    Option (Buffer × TransferOperation Buffer × Option (Completion Buffer)) := do
  type [.transfer] op
  let address ← buffer env.config.addressLength op.address
  let some (.tro o c) := op.value | none
  let tx ← buffer hashByteLength o.tx
  let txv ← buffer hashByteLength o.txv
  let to_ ← buffer env.config.addressLength o.to_
  let am ← bufferAmount amountByteLength o.am
  let in_ ← buffer nonceByteLength o.in_
  let is ← buffer signatureByteLength o.is
  let c ← completion env c
  return (address, { tx, txv, to_, am, in_, is }, c)

/-! ### What an accepted operation looks like -/

/-- What the `buffer` type admits. -/
@[mk_iff]
structure NonzeroBuffer (length : ℕ) (b : Buffer) : Prop where
  length_eq : b.length = length
  nonzero : ∃ x ∈ b, x ≠ 0

theorem buffer_eq_some {length : ℕ} {f : Field} {b : Buffer} :
    buffer length f = some b ↔ f = .buffer b ∧ NonzeroBuffer length b := by
  cases f with
  | undefined => simp [buffer]
  | null => simp [buffer]
  | buffer c =>
    simp only [buffer, Option.ite_none_right_eq_some, Option.some.injEq, Field.buffer.injEq]
    constructor
    · rintro ⟨h, rfl⟩
      exact ⟨rfl, h.1, h.2⟩
    · rintro ⟨rfl, h⟩
      exact ⟨⟨h.1, h.2⟩, rfl⟩

theorem buffer_buffer {length : ℕ} {b : Buffer} (h : NonzeroBuffer length b) :
    buffer length (.buffer b) = some b := buffer_eq_some.mpr ⟨rfl, h⟩

theorem bufferAmount_eq_some {length : ℕ} {f : Field} {b : Buffer} :
    bufferAmount length f = some b ↔ f = .buffer b ∧ b.length = length := by
  cases f with
  | undefined => simp [bufferAmount]
  | null => simp [bufferAmount]
  | buffer c =>
    simp only [bufferAmount, Option.ite_none_right_eq_some, Option.some.injEq, Field.buffer.injEq]
    constructor
    · rintro ⟨h, rfl⟩
      exact ⟨rfl, h⟩
    · rintro ⟨rfl, h⟩
      exact ⟨h, rfl⟩

theorem type_eq_some {allowedTypes : List OperationType} {op : Operation} {u : Unit} :
    type allowedTypes op = some u ↔ op.type ∈ allowedTypes.map OperationType.code := by
  simp [type]

structure CompletionSchema (env : Env) (o : Completion Buffer) : Prop where
  va : NonzeroBuffer env.config.addressLength o.va
  vn : NonzeroBuffer nonceByteLength o.vn
  vs : NonzeroBuffer signatureByteLength o.vs

variable {env : Env} {op : Operation} {address : Buffer}

theorem completion_eq_some {c : Completion Field} {o : Completion Buffer} :
    completion env c = some (some o) ↔ c = o.toField ∧ CompletionSchema env o := by
  obtain ⟨va, vn, vs⟩ := c
  constructor
  · intro h
    cases va <;> cases vn <;> cases vs <;>
      simp [completion, optional, Option.bind_eq_some_iff, buffer_eq_some] at h
    obtain ⟨hva, hvn, hvs, rfl⟩ := h
    exact ⟨rfl, hva, hvn, hvs⟩
  · rintro ⟨h, hva, hvn, hvs⟩
    cases h
    simp [completion, optional, buffer_buffer hva, buffer_buffer hvn, buffer_buffer hvs]

theorem completion_eq_none {c : Completion Field} :
    completion env c = some none ↔ c = { va := .undefined, vn := .undefined, vs := .undefined
      } := by
  obtain ⟨va, vn, vs⟩ := c
  constructor
  · intro h
    cases va <;> cases vn <;> cases vs <;>
      simp [completion, optional, Option.bind_eq_some_iff, buffer_eq_some] at h
    rfl
  · rintro ⟨⟩
    rfl

structure CoreAdminSchema (env : Env) (address : Buffer)
    (o : CoreAdminOperation Buffer) : Prop where
  address : NonzeroBuffer env.config.addressLength address
  tx : NonzeroBuffer hashByteLength o.tx
  txv : NonzeroBuffer hashByteLength o.txv
  iw : NonzeroBuffer writerByteLength o.iw
  in_ : NonzeroBuffer nonceByteLength o.in_
  is : NonzeroBuffer signatureByteLength o.is

theorem validateCoreAdminOperation_eq_some {o : CoreAdminOperation Buffer} :
    validateCoreAdminOperation env op = some (address, o) ↔
      op.type ∈ [.addAdmin, .disableInitialization].map OperationType.code ∧
        op.address = .buffer address ∧
        op.value = some (.cao o.toField) ∧ CoreAdminSchema env address o := by
  simp only [validateCoreAdminOperation, Option.bind_eq_bind, Option.bind_eq_some_iff,
    buffer_eq_some, type_eq_some]
  constructor
  · rintro ⟨-, htype, a, ⟨ha, has⟩, h⟩
    split at h
    case h_2 => cases h
    case h_1 x o heq =>
      simp only [Option.bind_eq_some_iff, buffer_eq_some, Option.pure_def, Option.some.injEq] at h
      obtain ⟨_, ⟨etx, htx⟩, _, ⟨etxv, htxv⟩, _, ⟨eiw, hiw⟩, _, ⟨ein, hin⟩, _, ⟨eis, his⟩, h⟩ := h
      cases h
      cases o
      simp only at etx etxv eiw ein eis
      subst etx etxv eiw ein eis
      exact ⟨htype, ha, heq, has, htx, htxv, hiw, hin, his⟩
  · rintro ⟨htype, ha, heq, h⟩
    refine ⟨(), htype, address, ⟨ha, h.address⟩, ?_⟩
    simp [heq, CoreAdminOperation.toField, buffer_buffer h.tx, buffer_buffer h.txv,
      buffer_buffer h.iw, buffer_buffer h.in_, buffer_buffer h.is]

structure BalanceInitializationSchema (env : Env) (address : Buffer)
    (o : BalanceInitializationOperation Buffer) : Prop where
  address : NonzeroBuffer env.config.addressLength address
  tx : NonzeroBuffer hashByteLength o.tx
  txv : NonzeroBuffer hashByteLength o.txv
  ia : NonzeroBuffer env.config.addressLength o.ia
  am : NonzeroBuffer amountByteLength o.am
  in_ : NonzeroBuffer nonceByteLength o.in_
  is : NonzeroBuffer signatureByteLength o.is

theorem validateBalanceInitialization_eq_some {o : BalanceInitializationOperation Buffer} :
    validateBalanceInitialization env op = some (address, o) ↔
      op.type ∈ [.balanceInitialization].map OperationType.code ∧ op.address = .buffer address ∧
        op.value = some (.bio o.toField) ∧ BalanceInitializationSchema env address o := by
  simp only [validateBalanceInitialization, Option.bind_eq_bind, Option.bind_eq_some_iff,
    buffer_eq_some, type_eq_some]
  constructor
  · rintro ⟨-, htype, a, ⟨ha, has⟩, h⟩
    split at h
    case h_2 => cases h
    case h_1 x o heq =>
      simp only [Option.bind_eq_some_iff, buffer_eq_some, Option.pure_def, Option.some.injEq] at h
      obtain ⟨_, ⟨etx, htx⟩, _, ⟨etxv, htxv⟩, _, ⟨eia, hia⟩, _, ⟨eam, ham⟩, _, ⟨ein, hin⟩,
        _, ⟨eis, his⟩, h⟩ := h
      cases h
      cases o
      simp only at etx etxv eia eam ein eis
      subst etx etxv eia eam ein eis
      exact ⟨htype, ha, heq, has, htx, htxv, hia, ham, hin, his⟩
  · rintro ⟨htype, ha, heq, h⟩
    refine ⟨(), htype, address, ⟨ha, h.address⟩, ?_⟩
    simp [heq, BalanceInitializationOperation.toField, buffer_buffer h.tx, buffer_buffer h.txv,
      buffer_buffer h.ia, buffer_buffer h.am, buffer_buffer h.in_, buffer_buffer h.is]

structure AdminControlSchema (env : Env) (address : Buffer)
    (o : AdminControlOperation Buffer) : Prop where
  address : NonzeroBuffer env.config.addressLength address
  tx : NonzeroBuffer hashByteLength o.tx
  txv : NonzeroBuffer hashByteLength o.txv
  ia : NonzeroBuffer env.config.addressLength o.ia
  in_ : NonzeroBuffer nonceByteLength o.in_
  is : NonzeroBuffer signatureByteLength o.is

theorem validateAdminControlOperation_eq_some {o : AdminControlOperation Buffer} :
    validateAdminControlOperation env op = some (address, o) ↔
      op.type ∈ [.appendWhitelist, .addIndexer, .removeIndexer, .banValidator].map OperationType.code ∧
        op.address = .buffer address ∧
        op.value = some (.aco o.toField) ∧ AdminControlSchema env address o := by
  simp only [validateAdminControlOperation, Option.bind_eq_bind, Option.bind_eq_some_iff,
    buffer_eq_some, type_eq_some]
  constructor
  · rintro ⟨-, htype, a, ⟨ha, has⟩, h⟩
    split at h
    case h_2 => cases h
    case h_1 x o heq =>
      simp only [Option.bind_eq_some_iff, buffer_eq_some, Option.pure_def, Option.some.injEq] at h
      obtain ⟨_, ⟨etx, htx⟩, _, ⟨etxv, htxv⟩, _, ⟨eia, hia⟩, _, ⟨ein, hin⟩, _, ⟨eis, his⟩, h⟩ := h
      cases h
      cases o
      simp only at etx etxv eia ein eis
      subst etx etxv eia ein eis
      exact ⟨htype, ha, heq, has, htx, htxv, hia, hin, his⟩
  · rintro ⟨htype, ha, heq, h⟩
    refine ⟨(), htype, address, ⟨ha, h.address⟩, ?_⟩
    simp [heq, AdminControlOperation.toField, buffer_buffer h.tx, buffer_buffer h.txv,
      buffer_buffer h.ia, buffer_buffer h.in_, buffer_buffer h.is]

structure RoleAccessSchema (env : Env) (address : Buffer)
    (o : RoleAccessOperation Buffer) : Prop where
  address : NonzeroBuffer env.config.addressLength address
  tx : NonzeroBuffer hashByteLength o.tx
  txv : NonzeroBuffer hashByteLength o.txv
  iw : NonzeroBuffer writerByteLength o.iw
  in_ : NonzeroBuffer nonceByteLength o.in_
  is : NonzeroBuffer signatureByteLength o.is

theorem validateRoleAccessOperation_eq_some {o : RoleAccessOperation Buffer}
    {c : Option (Completion Buffer)} :
    validateRoleAccessOperation env op = some (address, o, c) ↔
      op.type ∈ [.addWriter, .removeWriter, .adminRecovery].map OperationType.code ∧
        op.address = .buffer address ∧
        (∃ f, op.value = some (.rao o.toField f) ∧ completion env f = some c) ∧
        RoleAccessSchema env address o := by
  simp only [validateRoleAccessOperation, Option.bind_eq_bind, Option.bind_eq_some_iff,
    buffer_eq_some, type_eq_some]
  constructor
  · rintro ⟨-, htype, a, ⟨ha, has⟩, h⟩
    split at h
    case h_2 => cases h
    case h_1 x o f heq =>
      simp only [Option.bind_eq_some_iff, buffer_eq_some, Option.pure_def, Option.some.injEq] at h
      obtain ⟨_, ⟨etx, htx⟩, _, ⟨etxv, htxv⟩, _, ⟨eiw, hiw⟩, _, ⟨ein, hin⟩, _, ⟨eis, his⟩, c, hc,
        h⟩ := h
      cases h
      cases o
      simp only at etx etxv eiw ein eis
      subst etx etxv eiw ein eis
      exact ⟨htype, ha, ⟨f, heq, hc⟩, has, htx, htxv, hiw, hin, his⟩
  · rintro ⟨htype, ha, ⟨f, heq, hc⟩, h⟩
    refine ⟨(), htype, address, ⟨ha, h.address⟩, ?_⟩
    simp [heq, RoleAccessOperation.toField, buffer_buffer h.tx, buffer_buffer h.txv,
      buffer_buffer h.iw, buffer_buffer h.in_, buffer_buffer h.is, hc]

structure TxSchema (env : Env) (address : Buffer) (o : TxOperation Buffer) : Prop where
  address : NonzeroBuffer env.config.addressLength address
  tx : NonzeroBuffer hashByteLength o.tx
  txv : NonzeroBuffer hashByteLength o.txv
  iw : NonzeroBuffer writerByteLength o.iw
  ch : NonzeroBuffer nonceByteLength o.ch
  bs : NonzeroBuffer bootstrapByteLength o.bs
  mbs : NonzeroBuffer bootstrapByteLength o.mbs
  in_ : NonzeroBuffer nonceByteLength o.in_
  is : NonzeroBuffer signatureByteLength o.is

theorem validateTransactionOperation_eq_some {o : TxOperation Buffer}
    {c : Option (Completion Buffer)} :
    validateTransactionOperation env op = some (address, o, c) ↔
      op.type ∈ [.tx].map OperationType.code ∧ op.address = .buffer address ∧
        (∃ f, op.value = some (.txo o.toField f) ∧ completion env f = some c) ∧
        TxSchema env address o := by
  simp only [validateTransactionOperation, Option.bind_eq_bind, Option.bind_eq_some_iff,
    buffer_eq_some, type_eq_some]
  constructor
  · rintro ⟨-, htype, a, ⟨ha, has⟩, h⟩
    split at h
    case h_2 => cases h
    case h_1 x o f heq =>
      simp only [Option.bind_eq_some_iff, buffer_eq_some, Option.pure_def, Option.some.injEq] at h
      obtain ⟨_, ⟨etx, htx⟩, _, ⟨etxv, htxv⟩, _, ⟨eiw, hiw⟩, _, ⟨ech, hch⟩, _, ⟨ebs, hbs⟩,
        _, ⟨embs, hmbs⟩, _, ⟨ein, hin⟩, _, ⟨eis, his⟩, c, hc, h⟩ := h
      cases h
      cases o
      simp only at etx etxv eiw ech ebs embs ein eis
      subst etx etxv eiw ech ebs embs ein eis
      exact ⟨htype, ha, ⟨f, heq, hc⟩, has, htx, htxv, hiw, hch, hbs, hmbs, hin, his⟩
  · rintro ⟨htype, ha, ⟨f, heq, hc⟩, h⟩
    refine ⟨(), htype, address, ⟨ha, h.address⟩, ?_⟩
    simp [heq, TxOperation.toField, buffer_buffer h.tx, buffer_buffer h.txv, buffer_buffer h.iw,
      buffer_buffer h.ch, buffer_buffer h.bs, buffer_buffer h.mbs, buffer_buffer h.in_,
      buffer_buffer h.is, hc]

structure BootstrapDeploymentSchema (env : Env) (address : Buffer)
    (o : BootstrapDeploymentOperation Buffer) : Prop where
  address : NonzeroBuffer env.config.addressLength address
  tx : NonzeroBuffer hashByteLength o.tx
  txv : NonzeroBuffer hashByteLength o.txv
  bs : NonzeroBuffer bootstrapByteLength o.bs
  ic : NonzeroBuffer channelByteLength o.ic
  in_ : NonzeroBuffer nonceByteLength o.in_
  is : NonzeroBuffer signatureByteLength o.is

theorem validateBootstrapDeploymentOperation_eq_some {o : BootstrapDeploymentOperation Buffer}
    {c : Option (Completion Buffer)} :
    validateBootstrapDeploymentOperation env op = some (address, o, c) ↔
      op.type ∈ [.bootstrapDeployment].map OperationType.code ∧ op.address = .buffer address ∧
        (∃ f, op.value = some (.bdo o.toField f) ∧ completion env f = some c) ∧
        BootstrapDeploymentSchema env address o := by
  simp only [validateBootstrapDeploymentOperation, Option.bind_eq_bind, Option.bind_eq_some_iff,
    buffer_eq_some, type_eq_some]
  constructor
  · rintro ⟨-, htype, a, ⟨ha, has⟩, h⟩
    split at h
    case h_2 => cases h
    case h_1 x o f heq =>
      simp only [Option.bind_eq_some_iff, buffer_eq_some, Option.pure_def, Option.some.injEq] at h
      obtain ⟨_, ⟨etx, htx⟩, _, ⟨etxv, htxv⟩, _, ⟨ebs, hbs⟩, _, ⟨eic, hic⟩, _, ⟨ein, hin⟩,
        _, ⟨eis, his⟩, c, hc, h⟩ := h
      cases h
      cases o
      simp only at etx etxv ebs eic ein eis
      subst etx etxv ebs eic ein eis
      exact ⟨htype, ha, ⟨f, heq, hc⟩, has, htx, htxv, hbs, hic, hin, his⟩
  · rintro ⟨htype, ha, ⟨f, heq, hc⟩, h⟩
    refine ⟨(), htype, address, ⟨ha, h.address⟩, ?_⟩
    simp [heq, BootstrapDeploymentOperation.toField, buffer_buffer h.tx, buffer_buffer h.txv,
      buffer_buffer h.bs, buffer_buffer h.ic, buffer_buffer h.in_, buffer_buffer h.is, hc]

structure TransferSchema (env : Env) (address : Buffer) (o : TransferOperation Buffer) : Prop where
  address : NonzeroBuffer env.config.addressLength address
  tx : NonzeroBuffer hashByteLength o.tx
  txv : NonzeroBuffer hashByteLength o.txv
  to_ : NonzeroBuffer env.config.addressLength o.to_
  am : o.am.length = amountByteLength
  in_ : NonzeroBuffer nonceByteLength o.in_
  is : NonzeroBuffer signatureByteLength o.is

theorem validateTransferOperation_eq_some {o : TransferOperation Buffer}
    {c : Option (Completion Buffer)} :
    validateTransferOperation env op = some (address, o, c) ↔
      op.type ∈ [.transfer].map OperationType.code ∧ op.address = .buffer address ∧
        (∃ f, op.value = some (.tro o.toField f) ∧ completion env f = some c) ∧
        TransferSchema env address o := by
  simp only [validateTransferOperation, Option.bind_eq_bind, Option.bind_eq_some_iff,
    buffer_eq_some, type_eq_some]
  constructor
  · rintro ⟨-, htype, a, ⟨ha, has⟩, h⟩
    split at h
    case h_2 => cases h
    case h_1 x o f heq =>
      simp only [Option.bind_eq_some_iff, buffer_eq_some, bufferAmount_eq_some, Option.pure_def,
        Option.some.injEq] at h
      obtain ⟨_, ⟨etx, htx⟩, _, ⟨etxv, htxv⟩, _, ⟨eto, hto⟩, _, ⟨eam, ham⟩, _, ⟨ein, hin⟩,
        _, ⟨eis, his⟩, c, hc, h⟩ := h
      cases h
      cases o
      simp only at etx etxv eto eam ein eis
      subst etx etxv eto eam ein eis
      exact ⟨htype, ha, ⟨f, heq, hc⟩, has, htx, htxv, hto, ham, hin, his⟩
  · rintro ⟨htype, ha, ⟨f, heq, hc⟩, h⟩
    refine ⟨(), htype, address, ⟨ha, h.address⟩, ?_⟩
    simp [heq, TransferOperation.toField, buffer_buffer h.tx, buffer_buffer h.txv,
      buffer_buffer h.to_, buffer_buffer h.in_, buffer_buffer h.is, bufferAmount, h.am, hc]

end SettlementBus.Check
