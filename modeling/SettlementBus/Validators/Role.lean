import SettlementBus.Validators.Partial

/-! `PartialRoleAccessValidator.js`. -/

namespace SettlementBus.PartialRoleAccess

open Lib

variable (env : Env) (state : LocalState) (selfAddress : Option Str)

def validateRequesterBalanceForAddWriterOperation (requesterAddress : Str) (signed : Bool) :
    Except Rejection Unit :=
  requireBalance (if signed then state.getNodeEntry requesterAddress
    else state.getNodeEntryUnsigned requesterAddress) (feeBigInt * 11) .roleInsufficientFeeBalance

def rao (payload : PartialPayload) : Except Rejection (RoleAccessOperation Buffer) :=
  match payload.body with
  | .rao o => pure o
  | _ => throw .typeError

/-- A registered key must be the one the entry holds and must belong to the requester. -/
def validateWriterKey (payload : PartialPayload) (requesterAddress : Str) :
    Except Rejection Unit := do
  let nodeEntry ← orExit (.code .requesterNotFound) (state.getNodeEntry requesterAddress)
  let o ← rao payload
  let addressFromRegisteredWritingKey := state.getRegisteredWriterKey env o.iw
  require (.code .roleInvalidWriterKey) (addressFromRegisteredWritingKey = none ∨
    nodeEntry.wk = o.iw ∧ addressFromRegisteredWritingKey = some payload.address)

def isRequesterAllowedToChangeRole (payload : PartialPayload) (nodeAddress : Str) :
    Except Rejection Unit :=
  match payload.type with
  | .addWriter => do
    let nodeEntry ← orExit (.code .roleNodeEntryNotFound) (state.getNodeEntry nodeAddress)
    require (.code .roleNodeAlreadyWriter) (!nodeEntry.isWriter)
    require (.code .roleNodeNotWhitelisted) nodeEntry.isWhitelisted
  | .removeWriter => do
    let nodeEntry ← orExit (.code .roleNodeEntryNotFound) (state.getNodeEntry nodeAddress)
    require (.code .roleNodeNotWriter) nodeEntry.isWriter
    require (.code .roleNodeIsIndexer) (!nodeEntry.isIndexer)
  | .adminRecovery => do
    let adminEntry ← orExit (.code .roleAdminEntryMissing) (state.getAdminEntry env)
    let o ← rao payload
    require (.code .roleInvalidRecoveryCase)
      (adminEntry.address = some nodeAddress ∧ o.iw ≠ adminEntry.wk)
  | _ => throw (.code .roleUnknownOperation)

def validate (op : Operation) : Except Rejection PartialPayload := do
  let (payload, address) ← validateCommon env state selfAddress op
  if payload.type = .addWriter then
    validateRequesterBalanceForAddWriterOperation state address false
    validateRequesterBalanceForAddWriterOperation state address true
    validateWriterKey env state payload address
  else
    validateRequesterBalance state address true
    validateRequesterBalance state address false
  isRequesterAllowedToChangeRole env state payload address
  return payload

end SettlementBus.PartialRoleAccess
