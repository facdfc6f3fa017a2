import SettlementBus.Lib.View
import SettlementBus.State.Setter

/-! `nodeEntry.js` as it runs on buffers in memory: what is written to an argument, what is copied
and what is shared. -/

namespace SettlementBus.Memory

open Lib

/-- A value that a caller passes. -/
inductive Argument
  | buffer (view : View)
  | number (value : ℤ)
  | other

namespace Argument

/-- The buffer that `isBufferValid` accepts. -/
def bufferOf (size : ℕ) : Argument → Option View
  | buffer view => if view.length = size then some view else none
  | number _ => none
  | other => none

/-- The byte that `isNodeRoleValid` accepts. -/
def nodeRoleOf : Argument → Option UInt8
  | buffer _ => none
  | number value =>
    (([.reader, .whitelisted, .writer, .indexer] : List NodeRole).map NodeRole.byte).find?
      fun role => role.toNat = value
  | other => none

def Fits (h : Heap) : Argument → Prop
  | buffer view => view.Fits h
  | number _ => True
  | other => True

end Argument

/-- The object that a caller encodes. -/
structure NodeObject where
  wk : Argument
  isWhitelisted : Bool
  isWriter : Bool
  isIndexer : Bool
  balance : Argument
  license : Argument
  stakedBalance : Argument

/-- The fields are views of the buffer that was decoded. -/
structure DecodedNodeEntry where
  wk : View
  isWhitelisted : Bool
  isWriter : Bool
  isIndexer : Bool
  balance : View
  license : View
  stakedBalance : View

def DecodedNodeEntry.read (d : DecodedNodeEntry) (h : Heap) : SettlementBus.DecodedNodeEntry where
  wk := d.wk.read h
  isWhitelisted := d.isWhitelisted
  isWriter := d.isWriter
  isIndexer := d.isIndexer
  balance := d.balance.read h
  license := d.license.read h
  stakedBalance := d.stakedBalance.read h

structure BalanceObject where
  value : View
  length_value : value.length = balanceByteLength

namespace NodeEntry

/-- What `init` and `encode` do when their checks pass. -/
def fill (role : UInt8) (wk balance license stakedBalance : View) : HeapM View := do
  let nodeEntry ← View.alloc nodeEntrySize
  nodeEntry.store 0 role
  let offset := 1
  View.copy wk nodeEntry offset
  let offset := offset + writerByteLength
  View.copy balance nodeEntry offset
  let offset := offset + balanceByteLength
  View.copy license nodeEntry offset
  let offset := offset + licenseByteLength
  View.copy stakedBalance nodeEntry offset
  return nodeEntry

def checkAndFill (writingKey : Argument) (role : Option UInt8)
    (balance license stakedBalance : Argument) : HeapM View :=
  let filled : Option (HeapM View) := do
    let writingKey ← writingKey.bufferOf writerByteLength
    let balance ← balance.bufferOf balanceByteLength
    let role ← role
    let license ← license.bufferOf licenseByteLength
    let stakedBalance ← stakedBalance.bufferOf balanceByteLength
    some (fill role writingKey balance license stakedBalance)
  filled.getD (View.alloc 0)

def init (writingKey role balance license stakedBalance : Argument) : HeapM View :=
  checkAndFill writingKey role.nodeRoleOf balance license stakedBalance

def encode (node : NodeObject) : HeapM View :=
  let nodeRole := calculateNodeRole node.isWhitelisted node.isWriter node.isIndexer
  checkAndFill node.wk (if isNodeRoleValid nodeRole then some nodeRole else none) node.balance
    node.license node.stakedBalance

/-- The fields of an entry with the role. -/
def views (nodeEntry : View) (role : UInt8) : DecodedNodeEntry :=
  let offset := 1
  let wk := nodeEntry.subarray offset (offset + writerByteLength)
  let offset := offset + writerByteLength
  let balance := nodeEntry.subarray offset (offset + balanceByteLength)
  let offset := offset + balanceByteLength
  let license := nodeEntry.subarray offset (offset + licenseByteLength)
  let offset := offset + licenseByteLength
  let stakedBalance := nodeEntry.subarray offset nodeEntrySize
  { wk
    isWhitelisted := role &&& whitelistedMask ≠ 0
    isWriter := role &&& writerMask ≠ 0
    isIndexer := role &&& indexerMask ≠ 0
    balance
    license
    stakedBalance }

def decode (nodeEntry : Argument) : HeapM (Option DecodedNodeEntry) :=
  match nodeEntry.bufferOf nodeEntrySize with
  | some nodeEntry => do return some (views nodeEntry (← nodeEntry.load 0))
  | none => return none

/-- What `setRole` and `setStakedBalance` write to. -/
def clone (nodeEntry : View) : HeapM View := do
  let newNodeEntry ← View.alloc nodeEntrySize
  View.copy nodeEntry newNodeEntry 0
  return newNodeEntry

/-- The copy gets the role. -/
def setRole (nodeEntry nodeRole : Argument) : HeapM (Option View) :=
  match nodeRole.nodeRoleOf, nodeEntry.bufferOf nodeEntrySize with
  | some nodeRole, some nodeEntry => do
    let newNodeEntry ← clone nodeEntry
    newNodeEntry.store 0 nodeRole
    return some newNodeEntry
  | _, _ => return none

/-- `setWritingKey`, `setBalance` and `setLicense` write to their argument. -/
def setInPlace (size offset : ℕ) (nodeEntry value : Argument) : HeapM (Option View) :=
  match nodeEntry.bufferOf nodeEntrySize, value.bufferOf size with
  | some nodeEntry, some value => do
    View.copy value nodeEntry offset
    return some nodeEntry
  | _, _ => return none

def setWritingKey : Argument → Argument → HeapM (Option View) := setInPlace writerByteLength 1

def setBalance : Argument → Argument → HeapM (Option View) :=
  setInPlace balanceByteLength (writerByteLength + 1)

def setLicense : Argument → Argument → HeapM (Option View) :=
  setInPlace licenseByteLength (writerByteLength + balanceByteLength + 1)

/-- The copy gets the staked balance. -/
def setStakedBalance (nodeEntry stakedBalance : Argument) : HeapM (Option View) :=
  match nodeEntry.bufferOf nodeEntrySize, stakedBalance.bufferOf balanceByteLength with
  | some nodeEntry, some stakedBalance => do
    let newNodeEntry ← clone nodeEntry
    View.copy stakedBalance newNodeEntry
      (writerByteLength + balanceByteLength + licenseByteLength + 1)
    return some newNodeEntry
  | _, _ => return none

/-- The role is written before the key is read. -/
def setRoleAndWriterKey (nodeEntry nodeRole writingKey : Argument) : HeapM (Option View) :=
  match nodeRole.nodeRoleOf, writingKey.bufferOf writerByteLength,
    nodeEntry.bufferOf nodeEntrySize with
  | some nodeRole, some writingKey, some nodeEntry => do
    nodeEntry.store 0 nodeRole
    View.copy writingKey nodeEntry 1
    return some nodeEntry
  | _, _, _ => return none

end NodeEntry

def BalanceObject.update (a : BalanceObject) (nodeEntry : Argument) : HeapM (Option View) :=
  NodeEntry.setBalance nodeEntry (.buffer a.value)

/-! ### Calls -/

abbrev SetterCall := Setter Argument Argument BalanceObject

namespace SetterCall

/-- The function that is called. -/
def run (nodeEntry : Argument) : SetterCall → HeapM (Option View)
  | .setRole nodeRole => NodeEntry.setRole nodeEntry nodeRole
  | .setWritingKey writingKey => NodeEntry.setWritingKey nodeEntry writingKey
  | .setBalance balance => NodeEntry.setBalance nodeEntry balance
  | .setLicense license => NodeEntry.setLicense nodeEntry license
  | .setStakedBalance stakedBalance => NodeEntry.setStakedBalance nodeEntry stakedBalance
  | .setRoleAndWriterKey nodeRole writingKey =>
    NodeEntry.setRoleAndWriterKey nodeEntry nodeRole writingKey
  | .update balance => balance.update nodeEntry

/-- The buffers are in memory. -/
def Fits (h : Heap) : SetterCall → Prop
  | .setRole _ => True
  | .setWritingKey writingKey => writingKey.Fits h
  | .setBalance balance => balance.Fits h
  | .setLicense license => license.Fits h
  | .setStakedBalance stakedBalance => stakedBalance.Fits h
  | .setRoleAndWriterKey _ writingKey => writingKey.Fits h
  | .update balance => balance.value.Fits h

/-- An argument that is not what the setter wants. -/
def Refused : SetterCall → Prop
  | .setRole nodeRole => nodeRole.nodeRoleOf = none
  | .setWritingKey writingKey => writingKey.bufferOf writerByteLength = none
  | .setBalance balance => balance.bufferOf balanceByteLength = none
  | .setLicense license => license.bufferOf licenseByteLength = none
  | .setStakedBalance stakedBalance => stakedBalance.bufferOf balanceByteLength = none
  | .setRoleAndWriterKey nodeRole writingKey =>
    nodeRole.nodeRoleOf = none ∨ writingKey.bufferOf writerByteLength = none
  | .update _ => False

/-- The values that the arguments have in memory. -/
inductive Reads (h : Heap) : SetterCall → Setter UInt8 Buffer Balance → Prop
  | setRole {a role} : Argument.nodeRoleOf a = some role → Reads h (.setRole a) (.setRole role)
  | setWritingKey {a v} : a.bufferOf writerByteLength = some v → v.Fits h →
    Reads h (.setWritingKey a) (.setWritingKey (v.read h))
  | setBalance {a v} : a.bufferOf balanceByteLength = some v → v.Fits h →
    Reads h (.setBalance a) (.setBalance (v.read h))
  | setLicense {a v} : a.bufferOf licenseByteLength = some v → v.Fits h →
    Reads h (.setLicense a) (.setLicense (v.read h))
  | setStakedBalance {a v} : a.bufferOf balanceByteLength = some v → v.Fits h →
    Reads h (.setStakedBalance a) (.setStakedBalance (v.read h))
  | setRoleAndWriterKey {a b role v} : Argument.nodeRoleOf a = some role →
    b.bufferOf writerByteLength = some v → v.Fits h →
    Reads h (.setRoleAndWriterKey a b) (.setRoleAndWriterKey role (v.read h))
  | update {a : BalanceObject} {b : Balance} : a.value.Fits h → b.value = a.value.read h →
    Reads h (.update a) (.update b)

/-- A writing key that is not a view of the role byte. -/
def KeyApart (e : View) : SetterCall → Prop
  | .setRoleAndWriterKey _ (.buffer key) =>
    key.block ≠ e.block ∨ key.offset + key.length ≤ e.offset ∨ e.offset + 1 ≤ key.offset
  | _ => True

/-- The setters that return their argument. -/
def InPlace : SetterCall → Prop
  | .setRole _ => False
  | .setStakedBalance _ => False
  | _ => True

end SetterCall

end SettlementBus.Memory
