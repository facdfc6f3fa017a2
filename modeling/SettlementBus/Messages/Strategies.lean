import SettlementBus.Messages.Director

/-! `BroadcastTransactionOperationStrategies.js`: how a validator completes what it has decoded. -/

namespace SettlementBus

/-- A field as an argument of a director. The setters throw for `null` and `undefined`. -/
def Field.input (f : Field) : Option Input := f.bytes?.map .buffer

variable (env : Env) (wallet : Wallet) (nonce : Buffer)

/-- `buildCompleteOperation` of the strategy for the type. -/
def buildCompleteOperation (op : Operation) : Option (Payload CompleteBody) := do
  let address ← op.address.input
  match ← OperationType.ofCode op.type, op.value with
  | .addWriter, some (.rao rao _) =>
    Director.buildCompleteAddWriterMessage env wallet nonce address (← rao.tx.input)
      (← rao.txv.input) (← rao.iw.input) (← rao.in_.input) (← rao.is.input)
  | .removeWriter, some (.rao rao _) =>
    Director.buildCompleteRemoveWriterMessage env wallet nonce address (← rao.tx.input)
      (← rao.txv.input) (← rao.iw.input) (← rao.in_.input) (← rao.is.input)
  | .adminRecovery, some (.rao rao _) =>
    Director.buildCompleteAdminRecoveryMessage env wallet nonce address (← rao.tx.input)
      (← rao.txv.input) (← rao.iw.input) (← rao.in_.input) (← rao.is.input)
  | .tx, some (.txo txo _) =>
    Director.buildCompleteTransactionOperationMessage env wallet nonce address (← txo.tx.input)
      (← txo.txv.input) (← txo.iw.input) (← txo.in_.input) (← txo.ch.input) (← txo.is.input)
      (← txo.bs.input) (← txo.mbs.input)
  | .bootstrapDeployment, some (.bdo bdo _) =>
    Director.buildCompleteBootstrapDeploymentMessage env wallet nonce address (← bdo.tx.input)
      (← bdo.txv.input) (← bdo.bs.input) (← bdo.ic.input) (← bdo.in_.input) (← bdo.is.input)
  | .transfer, some (.tro tro _) =>
    Director.buildCompleteTransferOperationMessage env wallet nonce address (← tro.tx.input)
      (← tro.txv.input) (← tro.in_.input) (← tro.to_.input) (← tro.am.input) (← tro.is.input)
  | _, _ => none

end SettlementBus
