import SettlementBus.State.World
import SettlementBus.State.Balance
import SettlementBus.Utils.Check

/-! What several handlers of `State.js` do alike. -/

namespace SettlementBus

open Lib

/-- One entry of the linearized log: `node.value` and `node.from.key`. -/
structure Node where
  value : Buffer
  key : Buffer
  deriving DecidableEq

/-- The account an address field names: its state key and its public key. -/
structure Party where
  address : Str
  publicKey : Buffer

variable (env : Env)

def party (address : Buffer) : Except Exit Party := do
  let string ← orExit .failure (bufferToAddress env address)
  let publicKey := env.crypto.decodeSafe string
  require .failure (publicKey ≠ nullBuffer)
  return { address := string, publicKey }

def messageHash (args : List MessagePart) : Except Exit Buffer := do
  let message := createMessage args
  require .failure (message.length ≠ 0)
  return env.crypto.blake3Safe message

/-- The recreated message hashes to `tx` and the key signed the hash. -/
def verifyRequester (args : List MessagePart) (tx is publicKey : Buffer) : Except Exit Unit := do
  let hash ← messageHash env args
  require .failure (hash = tx)
  require .failure (env.crypto.verify is hash publicKey)

def validatorMessage (type : OperationType) (tx : Buffer) (c : Completion Buffer) :
    List MessagePart :=
  [.number env.config.networkId, .buffer tx, .buffer c.vn, .number type.code]

def verifyValidator (type : OperationType) (tx : Buffer) (c : Completion Buffer) :
    Except Exit Party := do
  let validator ← party env c.va
  let hash ← messageHash env (validatorMessage env type tx c)
  require .failure (env.crypto.verify c.vs hash validator.publicKey)
  return validator

/-- Nonces, addresses and signatures of the two signers should be different. -/
def distinctSigners (address in_ is : Buffer) (c : Completion Buffer) : Except Exit Unit := do
  require .failure (in_ ≠ c.vn)
  require .failure (address ≠ c.va)
  require .failure (is ≠ c.vs)

def getIndexerSequenceStateApply (base : Base) : Buffer :=
  env.crypto.blake3Safe base.indexers.flatten

/-- Prevents a deferred execution. -/
def verifyValidity (txv : Buffer) : Apply Unit := do
  require .failure (txv = getIndexerSequenceStateApply env (← get).base)

/-- Prevents a replay. -/
def requireNotApplied (exit : Exit) (tx : Buffer) : Apply Unit := do
  require exit ((← getEntryApply (.record tx)) = none)

def isAdminApply (adminEntry : DecodedAdminEntry) (node : Node) : Bool := adminEntry.wk = node.key

/-- The author's key is the admin's, and so is the requester's public key. -/
def requireAdmin (node : Node) (requester : Party) : Apply Unit := do
  let adminEntry ← orExit .failure ((← getEntryApply .admin).bind (AdminEntry.decode env))
  require .failure (isAdminApply adminEntry node)
  let adminPublicKey := adminEntry.address.elim nullBuffer env.crypto.decodeSafe
  require .failure (adminPublicKey ≠ nullBuffer)
  require .failure (adminPublicKey = requester.publicKey)

def isWriterKeyInIndexerListApply (wk : Buffer) (base : Base) : Bool := wk ∈ base.indexers

/-- The validator is an active writer, and its current key authored the block. -/
def isValidatorValidApply (validatorEntryBuffer : Option Buffer) (node : Node) : Bool :=
  match validatorEntryBuffer.bind NodeEntry.decode with
  | some entry => entry.isWriter && entry.wk = node.key
  | none => false

def validatorEntryApply (validator : Party) (node : Node) : Apply (Option Buffer) := do
  let validatorEntryBuffer ← getEntryApply (.account validator.address)
  require .failure (isValidatorValidApply validatorEntryBuffer node)
  return validatorEntryBuffer

def isApplyInitalizationDisabled : Apply Bool := do
  return (← getEntryApply .initialization) = some (safeWriteUInt32BE 0)

/-- `#updateWritersIndex` and the puts after it. -/
def updateWritersIndex (address : Buffer) : Apply Unit := do
  let length := (← getEntryApply .writersLength).getD LengthEntry.init
  let length ← orExit .thrown (LengthEntry.decodeBE length)
  let incrementedLength ← orExit .thrown (LengthEntry.incrementBE length)
  put (.writersIndex length) address
  put .writersLength incrementedLength

/-- `#applyAssignNewLicense` and the puts after it. -/
def applyAssignNewLicense (address : Buffer) : Apply Buffer := do
  let licenseCount := (← getEntryApply .licenseCount).getD LengthEntry.init
  let licenseCount ← orExit .thrown (LengthEntry.decodeBE licenseCount)
  let newLicenseLength ← orExit .thrown (LengthEntry.incrementBE licenseCount)
  let decodedNewLicenseLength ← orExit .thrown (LengthEntry.decodeBE newLicenseLength)
  if decodedNewLicenseLength ≠ 0 then
    put .licenseCount newLicenseLength
    put (.licenseIndex decodedNewLicenseLength) address
  return newLicenseLength

/-- The fee leaves the balance of an entry, or the handler exits with `insufficient`. -/
def chargeFee (nodeEntry : Buffer) (insufficient : Exit) : Except Exit Buffer := do
  let entry ← orExit .failure (NodeEntry.decode nodeEntry)
  let balance ← orExit .failure (toBalance entry.balance)
  require insufficient (balance.greaterThanOrEquals balanceFee)
  let newBalance ← orExit .failure (balance.sub balanceFee)
  orExit .failure (newBalance.update nodeEntry)

/-- `percent` of the fee goes to the balance of an entry. -/
def rewardFee (nodeEntry : Buffer) (percent : Buffer) : Except Exit Buffer := do
  let entry ← orExit .failure (NodeEntry.decode nodeEntry)
  let balance ← orExit .failure (toBalance entry.balance)
  let reward ← orExit .thrown (balanceFee.percentage percent)
  let newBalance ← orExit .failure (balance.add reward)
  orExit .failure (newBalance.update nodeEntry)

def stakeBalanceApply (nodeEntryBuffer : Buffer) : Option Buffer := do
  let entry ← NodeEntry.decode nodeEntryBuffer
  let balance ← toBalance entry.balance
  guard (balance.greaterThanOrEquals balanceToStake)
  let newBalance ← balance.sub balanceToStake
  let updated ← newBalance.update nodeEntryBuffer
  NodeEntry.setStakedBalance updated balanceToStake.value

def withdrawStakedBalanceApply (nodeEntryBuffer : Buffer) : Option Buffer := do
  let entry ← NodeEntry.decode nodeEntryBuffer
  let stakedBalance ← toBalance entry.stakedBalance
  guard (stakedBalance.greaterThan balanceZero)
  let balance ← toBalance entry.balance
  let newBalance ← balance.add stakedBalance
  let updated ← newBalance.update nodeEntryBuffer
  NodeEntry.setStakedBalance updated balanceZero.value

end SettlementBus
