import SettlementBus.Steps.Event

/-! Byte strings that name one account. -/

namespace SettlementBus

open Lib

variable {env : Env} {w : World} {node : Node} {op : Operation} {type : OperationType}

/-- The address fields of an operation that a validator completes. -/
def Operation.addressFields (op : Operation) : List Field :=
  match op.value with
  | some (.rao _ c) => [op.address, c.va]
  | some (.bdo _ c) => [op.address, c.va]
  | some (.txo _ c) => [op.address, c.va]
  | some (.tro o c) => [op.address, o.to_, c.va]
  | _ => []

def Operation.addresses (op : Operation) : List Buffer := op.addressFields.filterMap Field.bytes?

/-- Address fields that decode to one string are the same bytes. -/
def Operation.AliasFree (op : Operation) : Prop :=
  ∀ b ∈ op.addresses, ∀ b' ∈ op.addresses, toAscii b = toAscii b' → b = b'

instance (op : Operation) : Decidable op.AliasFree :=
  inferInstanceAs (Decidable (∀ b ∈ op.addresses, ∀ b' ∈ op.addresses, _ → _))

/-- The address fields are 7-bit. -/
def Operation.AsciiAddresses (op : Operation) : Prop := ∀ b ∈ op.addresses, ∀ x ∈ b, x < 128

theorem toAscii_injOn {b b' : Buffer} (hb : ∀ x ∈ b, x < 128) (hb' : ∀ x ∈ b', x < 128)
    (h : toAscii b = toAscii b') : b = b' := by
  rw [← fromAscii_toAscii hb, h, fromAscii_toAscii hb']

theorem Operation.AsciiAddresses.aliasFree (h : op.AsciiAddresses) : op.AliasFree :=
  fun b hb b' hb' => toAscii_injOn (h b hb) (h b' hb')

/-! ### The addresses of accepted operations -/

section

variable {address : Buffer} {c : Completion Buffer}

theorem addresses_roleAccess {o : RoleAccessOperation Buffer}
    (h : Check.validateRoleAccessOperation env op = some (address, o, some c)) :
    op.addresses = [address, c.va] := by
  obtain ⟨-, ha, ⟨f, hv, hc⟩, -⟩ := Check.validateRoleAccessOperation_eq_some.mp h
  cases (Check.completion_eq_some.mp hc).1
  rw [Operation.addresses, Operation.addressFields, hv, ha]
  rfl

theorem addresses_bootstrapDeployment {o : BootstrapDeploymentOperation Buffer}
    (h : Check.validateBootstrapDeploymentOperation env op = some (address, o, some c)) :
    op.addresses = [address, c.va] := by
  obtain ⟨-, ha, ⟨f, hv, hc⟩, -⟩ := Check.validateBootstrapDeploymentOperation_eq_some.mp h
  cases (Check.completion_eq_some.mp hc).1
  rw [Operation.addresses, Operation.addressFields, hv, ha]
  rfl

theorem addresses_tx {o : TxOperation Buffer}
    (h : Check.validateTransactionOperation env op = some (address, o, some c)) :
    op.addresses = [address, c.va] := by
  obtain ⟨-, ha, ⟨f, hv, hc⟩, -⟩ := Check.validateTransactionOperation_eq_some.mp h
  cases (Check.completion_eq_some.mp hc).1
  rw [Operation.addresses, Operation.addressFields, hv, ha]
  rfl

theorem addresses_transfer {o : TransferOperation Buffer}
    (h : Check.validateTransferOperation env op = some (address, o, some c)) :
    op.addresses = [address, o.to_, c.va] := by
  obtain ⟨-, ha, ⟨f, hv, hc⟩, -⟩ := Check.validateTransferOperation_eq_some.mp h
  cases (Check.completion_eq_some.mp hc).1
  rw [Operation.addresses, Operation.addressFields, hv, ha]
  rfl

/-- The state key of a party is what `toString('ascii')` makes of its address. -/
theorem party_address {p : Party} (h : party env address = .ok p) : toAscii address = p.address :=
  (bufferToAddress_eq_some.mp (party_eq_ok.mp h).1).2

theorem Signed.Verified.aliased_iff {α : Type} {args : List MessagePart} {tx in_ is : Buffer}
    {s : Signed α} (h : s.Verified env type args tx in_ is) :
    s.requester.address = s.validator.address ↔ toAscii s.address = toAscii s.completion.va := by
  rw [← party_address h.requester, ← party_address h.validator]

end

theorem aliasFree_iff {b b' : Buffer} (h : op.addresses = [b, b']) :
    op.AliasFree ↔ (toAscii b = toAscii b' → b = b') := by
  simp only [Operation.AliasFree, h, List.mem_cons, List.not_mem_nil, or_false, forall_eq_or_imp,
    forall_eq, implies_true, true_and, and_true]
  exact ⟨And.left, fun hbb => ⟨hbb, fun h => (hbb h.symm).symm⟩⟩

theorem aliasFree_iff_three {a to_ va : Buffer} (h : op.addresses = [a, to_, va]) :
    op.AliasFree ↔ (toAscii a = toAscii va → a = va) ∧ (toAscii a = toAscii to_ → a = to_) ∧
      (toAscii to_ = toAscii va → to_ = va) := by
  simp only [Operation.AliasFree, h, List.mem_cons, List.not_mem_nil, or_false, forall_eq_or_imp,
    forall_eq, implies_true, true_and, and_true]
  constructor
  · rintro ⟨⟨hto, hva⟩, ⟨-, htova⟩, -⟩
    exact ⟨hva, hto, htova⟩
  · rintro ⟨hva, hto, htova⟩
    exact ⟨⟨hto, hva⟩, ⟨fun h => (hto h.symm).symm, htova⟩, fun h => (hva h.symm).symm,
      fun h => (htova h.symm).symm⟩

section

variable {r v : Account} {α : Type} {args : List MessagePart} {txv tx in_ is : Buffer}
  {s : Signed α}

/-- The two signers of a completed operation have different accounts unless their addresses are
aliases. -/
theorem Completed.address_ne_iff (h : Completed env w node type args txv tx in_ is s r v)
    (haddr : op.addresses = [s.address, s.completion.va]) :
    s.requester.address ≠ s.validator.address ↔ op.AliasFree := by
  rw [aliasFree_iff haddr, ne_eq, h.verified.aliased_iff]
  exact ⟨fun hne heq => absurd heq hne, fun himp heq => h.verified.address_ne (himp heq)⟩

end

end SettlementBus
