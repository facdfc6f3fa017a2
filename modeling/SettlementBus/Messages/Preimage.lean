import SettlementBus.Messages.Builder
import SettlementBus.State.Handlers.Admin
import SettlementBus.State.Handlers.Value

/-! The messages whose hashes the signers of an operation sign. -/

namespace SettlementBus

open Lib

variable (env : Env)

def coreAdminMessage (type : OperationType) (o : CoreAdminOperation Buffer) : List MessagePart :=
  [.number env.config.networkId, .buffer o.txv, .buffer o.iw, .buffer o.in_, .number type.code]

def balanceInitializationMessage (o : BalanceInitializationOperation Buffer) : List MessagePart :=
  [.number env.config.networkId, .buffer o.txv, .buffer o.ia, .buffer o.am, .buffer o.in_,
    .number OperationType.balanceInitialization.code]

/-- The message of the builders, who sign `mbs`. The handler puts the bootstrap key of the network
in its place. -/
def partialTxMessage (o : TxOperation Buffer) : List MessagePart :=
  [.number env.config.networkId, .buffer o.txv, .buffer o.iw, .buffer o.ch, .buffer o.bs,
    .buffer o.mbs, .buffer o.in_, .number OperationType.tx.code]

/-- The message that the handler of a type recreates from the body. -/
def CompleteBody.message (type : OperationType) : CompleteBody → List MessagePart
  | .cao o => coreAdminMessage env type o
  | .aco o => adminControlMessage env type o
  | .bio o => balanceInitializationMessage env o
  | .completed (.rao o) _ => roleAccessMessage env type o
  | .completed (.bdo o) _ => bootstrapDeploymentMessage env o
  | .completed (.txo o) _ => txMessage env o
  | .completed (.tro o) _ => transferMessage env o

inductive SigningRole
  | requester
  | validator
  deriving DecidableEq

/-- The message that a signer of a complete operation signs: `Check` accepts the operation for its
type, with the validator's fields where the type has them. -/
inductive Operation.Preimage (op : Operation) :
    OperationType → SigningRole → List MessagePart → Prop
  | coreAdmin {type : OperationType} {address : Buffer} {o : CoreAdminOperation Buffer}
      (htype : type ∈ [OperationType.addAdmin, .disableInitialization]) (hcode : op.type = type.code)
      (hcheck : Check.validateCoreAdminOperation env op = some (address, o)) :
      Preimage op type .requester (coreAdminMessage env type o)
  | balanceInitialization {address : Buffer} {o : BalanceInitializationOperation Buffer}
      (hcheck : Check.validateBalanceInitialization env op = some (address, o)) :
      Preimage op .balanceInitialization .requester (balanceInitializationMessage env o)
  | adminControl {type : OperationType} {address : Buffer} {o : AdminControlOperation Buffer}
      (htype : type ∈ [OperationType.appendWhitelist, .addIndexer, .removeIndexer, .banValidator])
      (hcode : op.type = type.code)
      (hcheck : Check.validateAdminControlOperation env op = some (address, o)) :
      Preimage op type .requester (adminControlMessage env type o)
  | roleAccess {type : OperationType} {address : Buffer} {o : RoleAccessOperation Buffer}
      {c : Completion Buffer}
      (htype : type ∈ [OperationType.addWriter, .removeWriter, .adminRecovery])
      (hcode : op.type = type.code)
      (hcheck : Check.validateRoleAccessOperation env op = some (address, o, some c)) :
      Preimage op type .requester (roleAccessMessage env type o)
  | bootstrapDeployment {address : Buffer} {o : BootstrapDeploymentOperation Buffer}
      {c : Completion Buffer}
      (hcheck : Check.validateBootstrapDeploymentOperation env op = some (address, o, some c)) :
      Preimage op .bootstrapDeployment .requester (bootstrapDeploymentMessage env o)
  | tx {address : Buffer} {o : TxOperation Buffer} {c : Completion Buffer}
      (hcheck : Check.validateTransactionOperation env op = some (address, o, some c)) :
      Preimage op .tx .requester (txMessage env o)
  | partialTx {address : Buffer} {o : TxOperation Buffer} {c : Completion Buffer}
      (hcheck : Check.validateTransactionOperation env op = some (address, o, some c)) :
      Preimage op .tx .requester (partialTxMessage env o)
  | transfer {address : Buffer} {o : TransferOperation Buffer} {c : Completion Buffer}
      (hcheck : Check.validateTransferOperation env op = some (address, o, some c)) :
      Preimage op .transfer .requester (transferMessage env o)
  | roleAccessValidator {type : OperationType} {address : Buffer} {o : RoleAccessOperation Buffer}
      {c : Completion Buffer}
      (htype : type ∈ [OperationType.addWriter, .removeWriter, .adminRecovery])
      (hcode : op.type = type.code)
      (hcheck : Check.validateRoleAccessOperation env op = some (address, o, some c)) :
      Preimage op type .validator (validatorMessage env type o.tx c)
  | bootstrapDeploymentValidator {address : Buffer} {o : BootstrapDeploymentOperation Buffer}
      {c : Completion Buffer}
      (hcheck : Check.validateBootstrapDeploymentOperation env op = some (address, o, some c)) :
      Preimage op .bootstrapDeployment .validator
        (validatorMessage env .bootstrapDeployment o.tx c)
  | txValidator {address : Buffer} {o : TxOperation Buffer} {c : Completion Buffer}
      (hcheck : Check.validateTransactionOperation env op = some (address, o, some c)) :
      Preimage op .tx .validator (validatorMessage env .tx o.tx c)
  | transferValidator {address : Buffer} {o : TransferOperation Buffer} {c : Completion Buffer}
      (hcheck : Check.validateTransferOperation env op = some (address, o, some c)) :
      Preimage op .transfer .validator (validatorMessage env .transfer o.tx c)

end SettlementBus
