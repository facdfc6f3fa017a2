import SettlementBus.State.Account

/-! The setters of node entries, as calls on the fields of a record. -/

namespace SettlementBus

/-- A call of a setter, with its role, its bytes or its balance. -/
inductive Setter (ρ β δ : Type)
  | setRole (nodeRole : ρ)
  | setWritingKey (writingKey : β)
  | setBalance (balance : β)
  | setLicense (license : β)
  | setStakedBalance (stakedBalance : β)
  | setRoleAndWriterKey (nodeRole : ρ) (writingKey : β)
  | update (balance : δ)

inductive NodeField
  | role
  | wk
  | balance
  | license
  | stakedBalance
  deriving DecidableEq

def DecodedNodeEntry.withRole (role : UInt8) (d : DecodedNodeEntry) : DecodedNodeEntry :=
  { d with
    isWhitelisted := role &&& whitelistedMask ≠ 0
    isWriter := role &&& writerMask ≠ 0
    isIndexer := role &&& indexerMask ≠ 0 }

namespace Setter

/-- The fields that a setter names. -/
def fields {ρ β δ : Type} : Setter ρ β δ → List NodeField
  | setRole _ => [.role]
  | setWritingKey _ => [.wk]
  | setBalance _ => [.balance]
  | setLicense _ => [.license]
  | setStakedBalance _ => [.stakedBalance]
  | setRoleAndWriterKey .. => [.role, .wk]
  | update _ => [.balance]

/-- The function that is called. -/
def apply (nodeEntry : Buffer) : Setter UInt8 Buffer Balance → Option Buffer
  | setRole nodeRole => NodeEntry.setRole nodeEntry nodeRole
  | setWritingKey writingKey => NodeEntry.setWritingKey nodeEntry writingKey
  | setBalance balance => NodeEntry.setBalance nodeEntry balance
  | setLicense license => NodeEntry.setLicense nodeEntry license
  | setStakedBalance stakedBalance => NodeEntry.setStakedBalance nodeEntry stakedBalance
  | setRoleAndWriterKey nodeRole writingKey =>
    NodeEntry.setRoleAndWriterKey nodeEntry nodeRole writingKey
  | update balance => balance.update nodeEntry

/-- The fields of the record get the given values. -/
def change (d : DecodedNodeEntry) : Setter UInt8 Buffer Balance → DecodedNodeEntry
  | setRole nodeRole => d.withRole nodeRole
  | setWritingKey writingKey => { d with wk := writingKey }
  | setBalance balance => { d with balance }
  | setLicense license => { d with license }
  | setStakedBalance stakedBalance => { d with stakedBalance }
  | setRoleAndWriterKey nodeRole writingKey => { d.withRole nodeRole with wk := writingKey }
  | update balance => { d with balance := balance.value }

/-- The arguments are well-formed. -/
def Valid : Setter UInt8 Buffer Balance → Prop
  | setRole nodeRole => isNodeRoleValid nodeRole
  | setWritingKey writingKey => writingKey.length = writerByteLength
  | setBalance balance => balance.length = balanceByteLength
  | setLicense license => license.length = licenseByteLength
  | setStakedBalance stakedBalance => stakedBalance.length = balanceByteLength
  | setRoleAndWriterKey nodeRole writingKey =>
    isNodeRoleValid nodeRole ∧ writingKey.length = writerByteLength
  | update _ => True

end Setter

/-- A buffer of the size of an entry, with a valid role. -/
structure IsNodeEntry (e : Buffer) : Prop where
  length : e.length = nodeEntrySize
  role : isNodeRoleValid (e.headD 0)

/-- A well-formed field tuple. -/
structure DecodedNodeEntry.WellFormed (d : DecodedNodeEntry) : Prop where
  wk : d.wk.length = writerByteLength
  role : isNodeRoleValid d.role
  balance : d.balance.length = balanceByteLength
  license : d.license.length = licenseByteLength
  stakedBalance : d.stakedBalance.length = balanceByteLength

namespace Account

def decoded (a : Account) : DecodedNodeEntry where
  wk := a.wk
  isWhitelisted := a.role.isWhitelisted
  isWriter := a.role.isWriter
  isIndexer := a.role.isIndexer
  balance := a.balance.value
  license := a.license
  stakedBalance := a.stakedBalance.value

theorem isNodeEntry_toBuffer (a : Account) : IsNodeEntry a.toBuffer :=
  ⟨a.length_toBuffer, a.role.isNodeRoleValid_byte⟩

theorem decode_eq_decoded (a : Account) : NodeEntry.decode a.toBuffer = some a.decoded :=
  a.decode_toBuffer

theorem role_decoded (a : Account) : a.decoded.role = a.role.byte := by
  have hrole (r : NodeRole) :
      calculateNodeRole r.isWhitelisted r.isWriter r.isIndexer = r.byte := by
    cases r <;> rfl
  exact hrole a.role

theorem encode_decoded (a : Account) : NodeEntry.encode a.decoded = a.toBuffer := by
  rw [NodeEntry.encode, role_decoded]
  exact a.init_toBuffer

end Account

variable {e : Buffer} {d : DecodedNodeEntry} {s t : Setter UInt8 Buffer Balance}

theorem isBufferValid_iff {b : Buffer} {n : ℕ} : isBufferValid b n = true ↔ b.length = n :=
  decide_eq_true_iff

theorem exists_byte {role : UInt8} (h : isNodeRoleValid role) : ∃ r : NodeRole, r.byte = role := by
  obtain ⟨r, -, hr⟩ := List.any_eq_true.mp h
  exact ⟨r, of_decide_eq_true hr⟩

theorem withRole_byte (r : NodeRole) : d.withRole r.byte =
    { d with
      isWhitelisted := r.isWhitelisted, isWriter := r.isWriter, isIndexer := r.isIndexer } := by
  rw [DecodedNodeEntry.withRole, r.byte_and_whitelistedMask, r.byte_and_writerMask,
    r.byte_and_indexerMask]

theorem IsNodeEntry.exists_account (h : IsNodeEntry e) : ∃ a : Account, a.toBuffer = e :=
  Account.exists_toBuffer h.length h.role

/-- The bits that were set are the flags of the role. -/
theorem flags_of_role {r : NodeRole} (h : r.byte = d.role) :
    r.isWhitelisted = d.isWhitelisted ∧ r.isWriter = d.isWriter ∧ r.isIndexer = d.isIndexer := by
  rw [← r.byte_and_whitelistedMask, ← r.byte_and_writerMask, ← r.byte_and_indexerMask, h,
    DecodedNodeEntry.role, calculateNodeRole]
  cases d.isWhitelisted <;> cases d.isWriter <;> cases d.isIndexer <;> decide

theorem DecodedNodeEntry.WellFormed.exists_account (h : d.WellFormed) :
    ∃ a : Account, a.decoded = d := by
  obtain ⟨r, hr⟩ := exists_byte h.role
  obtain ⟨hwhitelisted, hwriter, hindexer⟩ := flags_of_role hr
  refine ⟨⟨r, d.wk, h.wk, ⟨d.balance, h.balance⟩, d.license, h.license,
    ⟨d.stakedBalance, h.stakedBalance⟩⟩, ?_⟩
  simp only [Account.decoded, hwhitelisted, hwriter, hindexer]

namespace Setter

/-- A setter on a well-formed entry. -/
theorem apply_toBuffer (a : Account) (h : s.Valid) :
    ∃ a' : Account, s.apply a.toBuffer = some a'.toBuffer ∧ a'.decoded = s.change a.decoded := by
  cases s with
  | setRole nodeRole =>
    obtain ⟨r, rfl⟩ := exists_byte h
    refine ⟨_, a.setRole_toBuffer r, ?_⟩
    rw [change, withRole_byte]
    rfl
  | setWritingKey writingKey => exact ⟨_, a.setWritingKey_toBuffer h, rfl⟩
  | setBalance balance => exact ⟨_, a.setBalance_toBuffer ⟨balance, h⟩, rfl⟩
  | setLicense license => exact ⟨_, a.setLicense_toBuffer h, rfl⟩
  | setStakedBalance stakedBalance =>
    exact ⟨_, a.setStakedBalance_toBuffer ⟨stakedBalance, h⟩, rfl⟩
  | setRoleAndWriterKey nodeRole writingKey =>
    obtain ⟨r, rfl⟩ := exists_byte h.1
    refine ⟨_, a.setRoleAndWriterKey_toBuffer r h.2, ?_⟩
    rw [change, withRole_byte]
    rfl
  | update balance => exact ⟨_, a.update_toBuffer balance, rfl⟩

/-- An argument that is not well-formed is refused, and an entry of another size. -/
theorem apply_eq_none (h : ¬s.Valid ∨ ¬isBufferValid e nodeEntrySize) : s.apply e = none := by
  cases s with
  | setRole nodeRole =>
    exact if_neg fun hchecks => h.elim (fun hs => hs hchecks.1) fun he => he hchecks.2
  | setWritingKey writingKey =>
    exact if_neg fun hchecks =>
      h.elim (fun hs => hs (isBufferValid_iff.mp hchecks.2)) fun he => he hchecks.1
  | setBalance balance =>
    exact if_neg fun hchecks =>
      h.elim (fun hs => hs (isBufferValid_iff.mp hchecks.2)) fun he => he hchecks.1
  | setLicense license =>
    exact if_neg fun hchecks =>
      h.elim (fun hs => hs (isBufferValid_iff.mp hchecks.2)) fun he => he hchecks.1
  | setStakedBalance stakedBalance =>
    exact if_neg fun hchecks =>
      h.elim (fun hs => hs (isBufferValid_iff.mp hchecks.2)) fun he => he hchecks.1
  | setRoleAndWriterKey nodeRole writingKey =>
    exact if_neg fun hchecks =>
      h.elim (fun hs => hs ⟨hchecks.1, isBufferValid_iff.mp hchecks.2.1⟩) fun he => he hchecks.2.2
  | update balance =>
    exact if_neg fun hchecks => h.elim (fun hs => hs trivial) fun he => he hchecks.1

/-- Setters of other fields commute. -/
theorem change_comm (h : ∀ f ∈ s.fields, f ∉ t.fields) (d : DecodedNodeEntry) :
    t.change (s.change d) = s.change (t.change d) := by
  cases s <;> cases t <;> first | rfl | simp [fields] at h

/-- A setter of the same fields overwrites. -/
theorem change_change (h : ∀ f ∈ s.fields, f ∈ t.fields) (d : DecodedNodeEntry) :
    t.change (s.change d) = t.change d := by
  cases s <;> cases t <;> first | rfl | simp [fields] at h

end Setter

theorem Account.decoded_injective : Function.Injective decoded := by
  intro a a' h
  rw [← toBuffer_injective.eq_iff, ← encode_decoded, h, encode_decoded]

end SettlementBus
