import SettlementBus.State.Address
import SettlementBus.State.NodeEntry

/-! The admin entry, the deployment entries and the length entries. -/

namespace SettlementBus

variable (env : Env)

structure DecodedAdminEntry where
  address : Option Str
  wk : Buffer

namespace AdminEntry

def encode (address wk : Buffer) : Buffer :=
  if isAddressBufferValid env address ∧ isBufferValid wk writerByteLength then address ++ wk else []

def decode (adminEntry : Buffer) : Option DecodedAdminEntry :=
  let addressLength := env.crypto.size env.config.addressPrefix
  if isBufferValid adminEntry (addressLength + writerByteLength) then
    some {
      address := bufferToAddress env (adminEntry.take addressLength)
      wk := adminEntry.drop addressLength }
  else none

end AdminEntry

structure DecodedDeploymentEntry where
  txHash : Buffer
  address : Buffer

namespace DeploymentEntry

def encode (txHash address : Buffer) : Buffer :=
  if isBufferValid txHash hashByteLength ∧ isAddressBufferValid env address then txHash ++ address
  else []

def decode (entry : Buffer) (addressLength : ℕ) : Option DecodedDeploymentEntry :=
  if isBufferValid entry (hashByteLength + addressLength) then
    some { txHash := entry.take hashByteLength, address := entry.drop hashByteLength }
  else none

end DeploymentEntry

namespace LengthEntry

def init : Buffer := List.replicate 4 0

/-- `readUInt32BE` throws on fewer than four bytes. -/
def decodeBE (bufferData : Buffer) : Option ℕ :=
  if 4 ≤ bufferData.length then some (Lib.Bytes.toNat (bufferData.take 4)) else none

/-- `writeUInt32BE` throws on a number that does not fit. -/
def encodeBE (length : ℕ) : Option Buffer :=
  if length ≤ 0xFFFFFFFF then some (Lib.Bytes.ofNat 4 length) else none

def incrementBE (length : ℕ) : Option Buffer := encodeBE (length + 1)

theorem decodeBE_of_encodeBE {n : ℕ} {b : Buffer} (h : encodeBE n = some b) :
    decodeBE b = some n := by
  rw [encodeBE] at h
  split at h
  · cases h
    rw [decodeBE, if_pos (by simp), List.take_of_length_le (by simp), Lib.Bytes.toNat_ofNat,
      Nat.mod_eq_of_lt (by omega)]
  · cases h

theorem length_of_encodeBE {n : ℕ} {b : Buffer} (h : encodeBE n = some b) : b.length = 4 := by
  rw [encodeBE] at h
  split at h
  · cases h
    simp
  · cases h

end LengthEntry

variable {env}

/-- A valid address followed by a writing key decodes to both. -/
theorem AdminEntry.decode_append {address wk : Buffer} {s : Str}
    (ha : bufferToAddress env address = some s) (hwk : wk.length = writerByteLength) :
    decode env (address ++ wk) = some { address := some s, wk := wk } := by
  have hlen := length_of_bufferToAddress ha
  have hvalid : isBufferValid (address ++ wk) (env.config.addressLength + writerByteLength) := by
    simp [isBufferValid, hlen, hwk]
  simp only [decode, env.size_addressPrefix, hvalid, if_true, List.take_left' hlen,
    List.drop_left' hlen, ha]

theorem AdminEntry.encode_eq {address wk : Buffer} {s : Str}
    (ha : bufferToAddress env address = some s) (hwk : wk.length = writerByteLength) :
    encode env address wk = address ++ wk := by
  obtain ⟨hs, rfl⟩ := bufferToAddress_eq_some.mp ha
  exact if_pos ⟨hs, by simp [isBufferValid, hwk]⟩

theorem DeploymentEntry.encode_eq {txHash address : Buffer} {s : Str}
    (ha : bufferToAddress env address = some s) (htx : txHash.length = hashByteLength) :
    encode env txHash address = txHash ++ address := by
  obtain ⟨hs, rfl⟩ := bufferToAddress_eq_some.mp ha
  exact if_pos ⟨by simp [isBufferValid, htx], hs⟩

theorem DeploymentEntry.decode_append {txHash address : Buffer} {s : Str}
    (ha : bufferToAddress env address = some s) (htx : txHash.length = hashByteLength) :
    decode (txHash ++ address) env.config.addressLength = some { txHash, address } := by
  have hvalid : isBufferValid (txHash ++ address)
      (hashByteLength + env.config.addressLength) := by
    simp [isBufferValid, length_of_bufferToAddress ha, htx]
  simp only [decode, hvalid, if_true, List.take_left' htx, List.drop_left' htx]

end SettlementBus
