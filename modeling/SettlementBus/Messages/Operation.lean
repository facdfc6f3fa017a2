import SettlementBus.Utils.Constants

/-! The decoded payloads of `applyOperations.cjs`. -/

namespace SettlementBus

/-- A bytes field of a decoded object. The decoder sets an absent field to `null`. -/
inductive Field
  | undefined
  | null
  | buffer : Buffer → Field
  deriving DecidableEq

def Field.bytes? : Field → Option Buffer
  | .buffer b => some b
  | _ => none

variable (α : Type)

/-- `cao` -/
structure CoreAdminOperation where
  tx : α
  txv : α
  iw : α
  in_ : α
  is : α
  deriving DecidableEq

/-- `aco` -/
structure AdminControlOperation where
  tx : α
  txv : α
  ia : α
  in_ : α
  is : α
  deriving DecidableEq

/-- `bio` -/
structure BalanceInitializationOperation where
  tx : α
  txv : α
  ia : α
  am : α
  in_ : α
  is : α
  deriving DecidableEq

/-- `va`, `vn` and `vs`, which the validator adds. -/
structure Completion where
  va : α
  vn : α
  vs : α
  deriving DecidableEq

/-- `rao` -/
structure RoleAccessOperation where
  tx : α
  txv : α
  iw : α
  in_ : α
  is : α
  deriving DecidableEq

/-- `bdo` -/
structure BootstrapDeploymentOperation where
  tx : α
  txv : α
  bs : α
  ic : α
  in_ : α
  is : α
  deriving DecidableEq

/-- `txo` -/
structure TxOperation where
  tx : α
  txv : α
  iw : α
  ch : α
  bs : α
  mbs : α
  in_ : α
  is : α
  deriving DecidableEq

/-- `tro` -/
structure TransferOperation where
  tx : α
  txv : α
  to_ : α
  am : α
  in_ : α
  is : α
  deriving DecidableEq

/-! Bodies all of whose fields are present. -/

def CoreAdminOperation.toField (o : CoreAdminOperation Buffer) : CoreAdminOperation Field :=
  { tx := .buffer o.tx, txv := .buffer o.txv, iw := .buffer o.iw, in_ := .buffer o.in_,
    is := .buffer o.is }

def AdminControlOperation.toField (o : AdminControlOperation Buffer) :
    AdminControlOperation Field :=
  { tx := .buffer o.tx, txv := .buffer o.txv, ia := .buffer o.ia, in_ := .buffer o.in_,
    is := .buffer o.is }

def BalanceInitializationOperation.toField (o : BalanceInitializationOperation Buffer) :
    BalanceInitializationOperation Field :=
  { tx := .buffer o.tx, txv := .buffer o.txv, ia := .buffer o.ia, am := .buffer o.am,
    in_ := .buffer o.in_, is := .buffer o.is }

def Completion.toField (o : Completion Buffer) : Completion Field :=
  { va := .buffer o.va, vn := .buffer o.vn, vs := .buffer o.vs }

def RoleAccessOperation.toField (o : RoleAccessOperation Buffer) : RoleAccessOperation Field :=
  { tx := .buffer o.tx, txv := .buffer o.txv, iw := .buffer o.iw, in_ := .buffer o.in_,
    is := .buffer o.is }

def BootstrapDeploymentOperation.toField (o : BootstrapDeploymentOperation Buffer) :
    BootstrapDeploymentOperation Field :=
  { tx := .buffer o.tx, txv := .buffer o.txv, bs := .buffer o.bs, ic := .buffer o.ic,
    in_ := .buffer o.in_, is := .buffer o.is }

def TxOperation.toField (o : TxOperation Buffer) : TxOperation Field :=
  { tx := .buffer o.tx, txv := .buffer o.txv, iw := .buffer o.iw, ch := .buffer o.ch,
    bs := .buffer o.bs, mbs := .buffer o.mbs, in_ := .buffer o.in_, is := .buffer o.is }

def TransferOperation.toField (o : TransferOperation Buffer) : TransferOperation Field :=
  { tx := .buffer o.tx, txv := .buffer o.txv, to_ := .buffer o.to_, am := .buffer o.am,
    in_ := .buffer o.in_, is := .buffer o.is }

/-- The `oneof` of an operation. -/
inductive Body
  | cao : CoreAdminOperation Field → Body
  | aco : AdminControlOperation Field → Body
  | bio : BalanceInitializationOperation Field → Body
  | tro : TransferOperation Field → Completion Field → Body
  | rao : RoleAccessOperation Field → Completion Field → Body
  | bdo : BootstrapDeploymentOperation Field → Completion Field → Body
  | txo : TxOperation Field → Completion Field → Body
  deriving DecidableEq

structure Operation where
  type : ℕ
  address : Field
  value : Option Body
  deriving DecidableEq

/-- Who receives funds. -/
def Operation.recipient (op : Operation) : Field :=
  match op.value with
  | some (.tro o _) => o.to_
  | some (.bio o) => o.ia
  | _ => .undefined

/-- Whom the admin controls. -/
def Operation.target (op : Operation) : Field :=
  match op.value with
  | some (.aco o) => o.ia
  | _ => .undefined

/-- The hash under which an operation is recorded. -/
def Operation.tx (op : Operation) : Field :=
  match op.value with
  | some (.cao o) => o.tx
  | some (.aco o) => o.tx
  | some (.bio o) => o.tx
  | some (.tro o _) => o.tx
  | some (.rao o _) => o.tx
  | some (.bdo o _) => o.tx
  | some (.txo o _) => o.tx
  | none => .undefined

/-- The requester's signature. -/
def Operation.is (op : Operation) : Field :=
  match op.value with
  | some (.cao o) => o.is
  | some (.aco o) => o.is
  | some (.bio o) => o.is
  | some (.tro o _) => o.is
  | some (.rao o _) => o.is
  | some (.bdo o _) => o.is
  | some (.txo o _) => o.is
  | none => .undefined

/-- The bootstrap key a deployment registers. -/
def Operation.bs (op : Operation) : Field :=
  match op.value with
  | some (.bdo o _) => o.bs
  | _ => .undefined

/-- The subnetwork of a transaction. -/
def Operation.subnetwork (op : Operation) : Field :=
  match op.value with
  | some (.txo o _) => o.bs
  | _ => .undefined

/-- What the validator adds. -/
def Operation.completion (op : Operation) : Option (Completion Field) :=
  match op.value with
  | some (.rao _ c) | some (.bdo _ c) | some (.txo _ c) | some (.tro _ c) => some c
  | _ => none

end SettlementBus
