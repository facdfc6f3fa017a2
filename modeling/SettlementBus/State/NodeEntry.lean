import SettlementBus.Utils.Constants

/-! Node entries:
`[role(1)][writing key(32)][balance(16)][license(4)][staked balance(16)]`. -/

namespace SettlementBus

inductive NodeRole
  | reader
  | whitelisted
  | writer
  | indexer
  deriving DecidableEq, Repr

def whitelistedMask : UInt8 := 0x1
def writerMask : UInt8 := 0x2
def indexerMask : UInt8 := 0x4

def NodeRole.byte : NodeRole → UInt8
  | .reader => 0x0
  | .whitelisted => 0x1
  | .writer => 0x3
  | .indexer => 0x7

def isNodeRoleValid (role : UInt8) : Bool :=
  [NodeRole.reader, .whitelisted, .writer, .indexer].any (·.byte = role)

def NodeRole.ofByte (role : UInt8) : Option NodeRole :=
  [NodeRole.reader, .whitelisted, .writer, .indexer].find? (·.byte = role)

theorem NodeRole.ofByte_byte (r : NodeRole) : ofByte r.byte = some r := by
  cases r <;> rfl

def nodeEntrySize : ℕ := licenseByteLength + writerByteLength + 2 * balanceByteLength + 1

def zeroBalance : Buffer := List.replicate balanceByteLength 0
def zeroLicense : Buffer := List.replicate licenseByteLength 0

/-- `b4a.copy` of a source that fits. -/
def copy (source target : Buffer) (offset : ℕ) : Buffer :=
  target.take offset ++ source ++ target.drop (offset + source.length)

structure DecodedNodeEntry where
  wk : Buffer
  isWhitelisted : Bool
  isWriter : Bool
  isIndexer : Bool
  balance : Buffer
  license : Buffer
  stakedBalance : Buffer

/-- The bits of the flags alone: the result can be a role that is not valid. -/
def calculateNodeRole (isWhitelisted isWriter isIndexer : Bool) : UInt8 :=
  (if isWhitelisted then whitelistedMask else 0) ||| (if isWriter then writerMask else 0) |||
    if isIndexer then indexerMask else 0

def DecodedNodeEntry.role (d : DecodedNodeEntry) : UInt8 :=
  calculateNodeRole d.isWhitelisted d.isWriter d.isIndexer

namespace NodeEntry

/-- The empty buffer marks an invalid input. -/
def init (writingKey : Buffer) (role : UInt8) (balance license stakedBalance : Buffer) : Buffer :=
  if isBufferValid writingKey writerByteLength ∧ isBufferValid balance balanceByteLength ∧
      isNodeRoleValid role ∧ isBufferValid license licenseByteLength ∧
      isBufferValid stakedBalance balanceByteLength then
    let nodeEntry := (List.replicate nodeEntrySize 0).set 0 role
    let nodeEntry := copy writingKey nodeEntry 1
    let nodeEntry := copy balance nodeEntry 33
    let nodeEntry := copy license nodeEntry 49
    copy stakedBalance nodeEntry 53
  else []

/-- The checks and the copies are those of `init`. -/
def encode (node : DecodedNodeEntry) : Buffer :=
  init node.wk node.role node.balance node.license node.stakedBalance

def decode (nodeEntry : Buffer) : Option DecodedNodeEntry :=
  if isBufferValid nodeEntry nodeEntrySize then
    let role := nodeEntry.headD 0
    some {
      wk := (nodeEntry.drop 1).take writerByteLength
      isWhitelisted := role &&& whitelistedMask ≠ 0
      isWriter := role &&& writerMask ≠ 0
      isIndexer := role &&& indexerMask ≠ 0
      balance := (nodeEntry.drop 33).take balanceByteLength
      license := (nodeEntry.drop 49).take licenseByteLength
      stakedBalance := (nodeEntry.drop 53).take balanceByteLength }
  else none

def isWhitelisted (nodeEntry : Buffer) : Bool :=
  isBufferValid nodeEntry nodeEntrySize && decide (nodeEntry.headD 0 &&& whitelistedMask ≠ 0)

def isWriter (nodeEntry : Buffer) : Bool :=
  isWhitelisted nodeEntry && decide (nodeEntry.headD 0 &&& writerMask ≠ 0)

def isIndexer (nodeEntry : Buffer) : Bool :=
  isWriter nodeEntry && decide (nodeEntry.headD 0 &&& indexerMask ≠ 0)

def setRole (nodeEntry : Buffer) (nodeRole : UInt8) : Option Buffer :=
  if isNodeRoleValid nodeRole ∧ isBufferValid nodeEntry nodeEntrySize then
    some (nodeEntry.set 0 nodeRole)
  else none

def setWritingKey (nodeEntry writingKey : Buffer) : Option Buffer :=
  if isBufferValid nodeEntry nodeEntrySize ∧ isBufferValid writingKey writerByteLength then
    some (copy writingKey nodeEntry 1)
  else none

def setBalance (nodeEntry balance : Buffer) : Option Buffer :=
  if isBufferValid nodeEntry nodeEntrySize ∧ isBufferValid balance balanceByteLength then
    some (copy balance nodeEntry (writerByteLength + 1))
  else none

def setLicense (nodeEntry license : Buffer) : Option Buffer :=
  if isBufferValid nodeEntry nodeEntrySize ∧ isBufferValid license licenseByteLength then
    some (copy license nodeEntry (writerByteLength + balanceByteLength + 1))
  else none

def setStakedBalance (nodeEntry stakedBalance : Buffer) : Option Buffer :=
  if isBufferValid nodeEntry nodeEntrySize ∧ isBufferValid stakedBalance balanceByteLength then
    some (copy stakedBalance nodeEntry
      (writerByteLength + balanceByteLength + licenseByteLength + 1))
  else none

def setRoleAndWriterKey (nodeEntry : Buffer) (nodeRole : UInt8) (writingKey : Buffer) :
    Option Buffer :=
  if isNodeRoleValid nodeRole ∧ isBufferValid writingKey writerByteLength ∧
      isBufferValid nodeEntry nodeEntrySize then
    some (copy writingKey (nodeEntry.set 0 nodeRole) 1)
  else none

end NodeEntry

end SettlementBus
