import SettlementBus.Steps.Frame

/-! Accounts whose balance changes. -/

namespace SettlementBus

open Lib View

variable {env : Env} {w w' : World} {node : Node} {op : Operation}

/-- A completed operation passes the checks on the state before its own: it is current and new, and
its validator is an active writer whose core holds the block. -/
structure Admitted (env : Env) (w : World) (node : Node) (txv tx : Buffer) (validator : Str)
    (v : Account) : Prop where
  current : txv = getIndexerSequenceStateApply env w.base
  has : w.Has validator v
  active : v.role.isWriter
  author : v.wk = node.key
  fresh : w.view.get (.record tx) = none

theorem Admitted.exec {txv tx : Buffer} {validator : Party} {v : Account}
    (h : Admitted env w node txv tx validator.address v) (hw : w.WellFormed) :
    (verifyValidity env txv).exec w = (.ok (), w) ∧
      (validatorEntryApply validator node).exec w = (.ok (some v.toBuffer), w) ∧
      (requireNotApplied .ignore tx).exec w = (.ok (), w) :=
  ⟨verifyValidity_ok.mpr ⟨h.current, rfl⟩,
    (validatorEntryApply_ok hw).mpr ⟨v, h.has, h.active, h.author, rfl, rfl⟩,
    requireNotApplied_ok.mpr ⟨h.fresh, rfl⟩⟩

theorem Admitted.completed {α : Type} {type : OperationType} {args : List MessagePart}
    {txv tx in_ is : Buffer} {s : Signed α} {r v : Account}
    (h : Admitted env w node txv tx s.validator.address v) (hs : s.Verified env type args tx in_ is)
    (hr : w.Has s.requester.address r) : Completed env w node type args txv tx in_ is s r v :=
  ⟨hs, h.current, h.fresh, hr, h.has, h.active, h.author⟩

theorem Completed.admitted {α : Type} {type : OperationType} {args : List MessagePart}
    {txv tx in_ is : Buffer} {s : Signed α} {r v : Account}
    (h : Completed env w node type args txv tx in_ is s r v) :
    Admitted env w node txv tx s.validator.address v :=
  ⟨h.current, h.validator, h.active, h.author, h.fresh⟩

/-- The balance of the account falls by `n`, and the rest of its entry stays. -/
def Loses (w w' : World) (address : Str) (n : ℕ) : Prop :=
  ∃ (a : Account) (b : Balance), w.Has address a ∧ w'.Has address { a with balance := b } ∧
    b.toNat + n = a.balance.toNat

/-- The balance of the account grows by `n`, and the rest of its entry stays. -/
def Gains (w w' : World) (address : Str) (n : ℕ) : Prop :=
  ∃ (a : Account) (b : Balance), w.Has address a ∧ w'.Has address { a with balance := b } ∧
    b.toNat = a.balance.toNat + n

/-- The operation is recorded, and besides the accounts of its parties nothing changes. -/
structure ChangesOnly (w w' : World) (tx value : Buffer) (parties : List Str) : Prop where
  record : w'.view.get (.record tx) = some value
  other : ∀ k, k ≠ .record tx → (∀ s ∈ parties, k ≠ .account s) →
    w'.view.get k = w.view.get k
  base : w'.base = w.base

theorem View.Has.present {view : View} {s : Str} {a : Account} (h : View.Has view s a) :
    view.Present (.account s) := by
  rw [View.Present, show Store.get view _ = _ from h]
  rfl

theorem exists_balance {n : ℕ} (h : n < 2 ^ 128) : ∃ b : Balance, b.toNat = n :=
  ⟨balanceOf n, toNat_balanceOf h⟩

theorem exists_has_balance (hw : w.WellFormed) {s : Str} (h : w.view.Present (.account s)) :
    ∃ a, w.Has s a ∧ w.balance s = a.balance.toNat := by
  obtain ⟨v, hv⟩ := Option.isSome_iff_exists.mp h
  obtain ⟨a, -, ha⟩ := View.WellFormed.has hw hv
  exact ⟨a, ha, World.balance_eq ha⟩

theorem reward75_eq : reward75.toNat = balanceFee.toNat * 75 / 100 := by
  rw [toNat_reward75, toNat_balanceFee]

theorem reward50_eq : reward50.toNat = balanceFee.toNat * 50 / 100 := by
  rw [toNat_reward50, toNat_balanceFee]

theorem reward25_eq : reward25.toNat = balanceFee.toNat * 25 / 100 := by
  rw [toNat_reward25, toNat_balanceFee]

/-- An account can be credited when the sum fits. -/
theorem exists_credited {address : Str} {amount : Balance}
    (hw : w.WellFormed)
    (h : ∀ a, w.Has address a → a.balance.toNat + amount.toNat < 2 ^ 128) :
    ∃ c, Credited w address amount c := by
  cases hget : w.view.get (.account address) with
  | none => exact ⟨_, .new hget⟩
  | some v =>
    obtain ⟨a, -, ha⟩ := View.WellFormed.has hw hget
    obtain ⟨b, hb⟩ := exists_balance (h a ha)
    exact ⟨_, .old ha hb⟩

end SettlementBus
