import SettlementBus.State.Account
import SettlementBus.State.World

/-! The node entries of a state as accounts, and the tokens they hold. -/

namespace SettlementBus

open Lib

def EntryKey.isAccount : EntryKey → Bool
  | account _ => true
  | _ => false

namespace View

variable {view : View} {address t : Str} {a b : Account} {k : EntryKey} {v : Buffer}

/-- The entry of `address` is the account `a`. -/
def Has (view : View) (address : Str) (a : Account) : Prop :=
  Store.get view (.account address) = some a.toBuffer

def WellFormed (view : View) : Prop :=
  ∀ address v, Store.get view (.account address) = some v → ∃ a : Account, v = a.toBuffer

theorem Has.unique (ha : Has view address a) (hb : Has view address b) : a = b := by
  apply Account.toBuffer_injective
  exact Option.some.inj (ha.symm.trans hb)

theorem WellFormed.has (h : WellFormed view) (hv : Store.get view (.account address) = some v) :
    ∃ a, v = a.toBuffer ∧ Has view address a := by
  obtain ⟨a, rfl⟩ := h address v hv
  exact ⟨a, rfl, hv⟩

@[simp] theorem has_put_account : Has (view.put (.account t) b.toBuffer) address a ↔
    address = t ∧ b = a ∨ address ≠ t ∧ Has view address a := by
  simp only [Has, Store.get_put_eq_some, EntryKey.account.injEq, ne_eq,
    Account.toBuffer_injective.eq_iff]

theorem account_ne (h : k.isAccount = false) : EntryKey.account address ≠ k := by
  rintro rfl
  cases h

@[simp] theorem has_put_of_ne (h : EntryKey.account address ≠ k) :
    Has (view.put k v) address a ↔ Has view address a := by
  rw [Has, Store.get_put_ne _ _ h, Has]

theorem WellFormed.put_account (h : WellFormed view) :
    WellFormed (view.put (.account t) b.toBuffer) := by
  intro address v hv
  rw [Store.get_put_eq_some] at hv
  obtain ⟨-, rfl⟩ | ⟨-, hv⟩ := hv
  · exact ⟨b, rfl⟩
  · exact h address v hv

theorem WellFormed.put_other (h : WellFormed view) (hk : k.isAccount = false) :
    WellFormed (view.put k v) := by
  intro address v hv
  rw [Store.get_put_ne _ _ (account_ne hk)] at hv
  exact h address v hv

theorem wellFormed_empty : WellFormed ∅ := by
  intro address v hv
  rw [Store.get_empty] at hv
  cases hv

/-- Every account of the view is as `P` says. -/
def Forall (P : Str → Account → Prop) (view : View) : Prop :=
  ∀ address a, Has view address a → P address a

variable {P : Str → Account → Prop}

theorem forall_empty : Forall P ∅ := by
  intro address a ha
  rw [Has, Store.get_empty] at ha
  cases ha

/-- Balance and stake of a node entry; other entries weigh nothing. -/
def weight : EntryKey → Buffer → ℕ
  | .account _, v => (NodeEntry.decode v).elim 0 fun entry =>
      Bytes.toNat entry.balance + Bytes.toNat entry.stakedBalance
  | _, _ => 0

/-- The sum of balance and stake over all node entries. -/
def total (view : View) : ℕ := view.sum weight

@[simp] theorem weight_toBuffer : weight (.account address) a.toBuffer = a.total := by
  simp [weight, Account.total, Balance.toNat]

theorem total_put_has (h : Has view address a) :
    total (view.put (.account address) b.toBuffer) + a.total = total view + b.total := by
  simpa [total] using Store.sum_put_of_get weight h b.toBuffer

theorem total_put_new (h : Store.get view (.account address) = none) :
    total (view.put (.account address) b.toBuffer) = total view + b.total := by
  simpa [total] using Store.sum_put_of_none weight h b.toBuffer

theorem total_put_other (h : k.isAccount = false) : total (view.put k v) = total view := by
  have hk : ∀ u, weight k u = 0 := fun u => by
    cases k with
    | account address => cases h
    | _ => rfl
  have := Store.sum_put weight view k v
  cases hget : Store.get view k <;> simpa [total, hget, hk] using this

theorem le_total (h : Has view address a) : a.total ≤ total view := by
  simpa [total] using Store.le_sum weight h

theorem add_le_total (hne : address ≠ t) (ha : Has view address a) (hb : Has view t b) :
    a.total + b.total ≤ total view := by
  simpa [total] using Store.add_le_sum weight (by simpa using hne) ha hb

end View

namespace World

abbrev Has (w : World) (address : Str) (a : Account) : Prop := View.Has w.view address a

abbrev WellFormed (w : World) : Prop := View.WellFormed w.view

def total (w : World) : ℕ := View.total w.view

/-! What single entries say. -/

variable (w : World)

def balance (address : Str) : ℕ :=
  ((w.view.get (.account address)).bind NodeEntry.decode).elim 0 fun entry =>
    Bytes.toNat entry.balance

def stakedBalance (address : Str) : ℕ :=
  ((w.view.get (.account address)).bind NodeEntry.decode).elim 0 fun entry =>
    Bytes.toNat entry.stakedBalance

def role (address : Str) : Option NodeRole :=
  (w.view.get (.account address)).bind fun entry => NodeRole.ofByte (entry.headD 0)

variable (env : Env)

/-- The address to which a writing key is registered. -/
def owner (writingKey : Buffer) : Option Str :=
  (w.view.get (.writerAddress writingKey)).bind (bufferToAddress env)

/-- The creator of a deployment. -/
def creator (bootstrap : Buffer) : Option Str :=
  ((w.view.get (.deployment bootstrap)).bind fun entry =>
    DeploymentEntry.decode entry env.config.addressLength).bind fun entry =>
      bufferToAddress env entry.address

variable {w} {address : Str} {a : Account}

theorem balance_eq (h : w.Has address a) : w.balance address = a.balance.toNat := by
  rw [balance, show w.view.get _ = _ from h]
  simp [Balance.toNat]

theorem stakedBalance_eq (h : w.Has address a) :
    w.stakedBalance address = a.stakedBalance.toNat := by
  rw [stakedBalance, show w.view.get _ = _ from h]
  simp [Balance.toNat]

theorem role_eq (h : w.Has address a) : w.role address = some a.role := by
  rw [role, show w.view.get _ = _ from h]
  exact NodeRole.ofByte_byte a.role

theorem exists_of_role_eq (hw : w.WellFormed) {r : NodeRole} (h : w.role address = some r) :
    ∃ a, w.Has address a ∧ a.role = r := by
  obtain ⟨v, hv, hr⟩ := Option.bind_eq_some_iff.mp h
  obtain ⟨a, rfl, ha⟩ := View.WellFormed.has hw hv
  exact ⟨a, ha, Option.some.inj ((NodeRole.ofByte_byte a.role).symm.trans hr)⟩

theorem role_eq_none (h : w.view.get (.account address) = none) : w.role address = none := by
  rw [role, h]
  rfl

end World

end SettlementBus
