import SettlementBus.Config

namespace SettlementBus

variable (env : Env)

def isAddressValid (address : Str) : Bool :=
  env.crypto.size env.config.addressPrefix = address.length ∧
    (env.config.addressPrefix ++ ['1']).isPrefixOf address ∧ env.crypto.isValid address

/-- `isAddressValid` of a buffer decodes it first. -/
def isAddressBufferValid (address : Buffer) : Bool := isAddressValid env (toAscii address)

def addressToBuffer (bech32mAddress : Str) : Buffer :=
  if isAddressValid env bech32mAddress then fromAscii bech32mAddress else []

def bufferToAddress (dataBuffer : Buffer) : Option Str :=
  if isAddressValid env (toAscii dataBuffer) then some (toAscii dataBuffer) else none

/-- The state key that a field names. -/
def Field.account (f : Field) : Option Str := f.bytes?.bind (bufferToAddress env)

variable {env}

@[simp] theorem Field.account_buffer (b : Buffer) :
    (Field.buffer b).account env = bufferToAddress env b := rfl

theorem isAddressValid_iff {s : Str} : isAddressValid env s ↔
    s.length = env.config.addressLength ∧ (env.config.addressPrefix ++ ['1']) <+: s ∧
      env.crypto.isValid s := by
  rw [isAddressValid, env.size_addressPrefix, decide_eq_true_iff, List.isPrefixOf_iff_prefix,
    eq_comm]

theorem bufferToAddress_eq_some {b : Buffer} {s : Str} :
    bufferToAddress env b = some s ↔ isAddressValid env s ∧ toAscii b = s := by
  rw [bufferToAddress]
  split <;> aesop

theorem length_of_bufferToAddress {b : Buffer} {s : Str} (h : bufferToAddress env b = some s) :
    b.length = env.config.addressLength := by
  obtain ⟨hs, rfl⟩ := bufferToAddress_eq_some.mp h
  simpa using (isAddressValid_iff.mp hs).1

/-- A 7-bit address as its bytes. -/
structure AsciiAddress (env : Env) (b : Buffer) : Prop where
  ascii : ∀ x ∈ b, x < 128
  valid : isAddressValid env (toAscii b)

theorem AsciiAddress.bufferToAddress {b : Buffer} (h : AsciiAddress env b) :
    bufferToAddress env b = some (toAscii b) := if_pos h.valid

theorem AsciiAddress.addressToBuffer {b : Buffer} (h : AsciiAddress env b) :
    addressToBuffer env (toAscii b) = b := (if_pos h.valid).trans (fromAscii_toAscii h.ascii)

theorem AsciiAddress.toAscii_ne_nil {b : Buffer} (h : AsciiAddress env b) : toAscii b ≠ [] := by
  obtain ⟨-, hprefix, -⟩ := isAddressValid_iff.mp h.valid
  intro hnil
  rw [hnil, List.prefix_nil] at hprefix
  simp at hprefix

theorem AsciiAddress.of_string {s : Str} (h : ∀ c ∈ s, c.toNat < 128) (hs : isAddressValid env s) :
    AsciiAddress env (fromAscii s) :=
  ⟨lt_of_mem_fromAscii h, by rwa [toAscii_fromAscii h]⟩

/-- Two valid addresses of one public key are one string. -/
theorem address_eq_of_decodeSafe (h1 : env.crypto.OneAddressPerKey) {s t : Str}
    (hs : isAddressValid env s) (ht : isAddressValid env t)
    (h : env.crypto.decodeSafe s = env.crypto.decodeSafe t) : s = t :=
  h1 s t (isAddressValid_iff.mp hs).2.2 (isAddressValid_iff.mp ht).2.2 h

end SettlementBus
