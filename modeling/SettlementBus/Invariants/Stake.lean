import SettlementBus.Steps.Change
import SettlementBus.Steps.Payment

/-! The stake of an account follows from its role. -/

namespace SettlementBus

open Lib View

variable {env : Env} {w : World} {node : Node} {op : Operation} {type : OperationType}

/-- A writer has staked ten fees, another account nothing. -/
def Account.Staked (a : Account) : Prop :=
  a.stakedBalance = if a.role.isWriter then balanceToStake else balanceZero

abbrev World.Staked (w : World) : Prop := Forall (fun _ => Account.Staked) w.view

theorem Banned.staked {t banned : Account} (h : Banned t banned) (ht : t.Staked) :
    banned.Staked := by
  cases h with
  | whitelisted hrole => simpa [Account.Staked, hrole, NodeRole.isWriter] using ht
  | writer => rfl

theorem Change.staked {address : Str} {old : Option Account} {a' : Account}
    (h : Change env w node op address type old a') (hold : ∀ a ∈ old, a.Staked)
    (hw : w.Staked) : a'.Staked := by
  cases h with
  | balance a b => exact hold a rfl
  | reader b => rfl
  | addAdmin e => rfl
  | appendWhitelist e =>
    have hstaked : e.old.Staked := by
      obtain h | h := e.notWhitelisted.eq_or_has
      · rw [h]
        rfl
      · exact hw _ _ h
    simpa [Account.Staked, e.notWhitelisted.role_eq, AppendWhitelistStep.account,
      NodeRole.isWriter] using hstaked
  | addWriter e => rfl
  | removeWriter e => rfl
  | adminRecovery e => exact hold e.r rfl
  | addIndexer e =>
    simpa [Account.Staked, AddIndexerStep.account, e.role, NodeRole.isWriter] using hold e.p rfl
  | removeIndexer e =>
    simpa [Account.Staked, RemoveIndexerStep.account, e.role, NodeRole.isWriter] using hold e.p rfl
  | banValidator e => exact e.ban.staked (hold e.t rfl)

theorem Event.Step.staked {e : Event} (h : e.Step env) (hwf : e.before.WellFormed)
    (hw : e.before.Staked) : e.after.Staked := by
  intro address a' ha
  cases h with
  | operation hdec s =>
    obtain ⟨old, hold, hchange⟩ := s.change hwf ha
    exact hchange.staked (View.Lookup.forall hold hw) hw
  | penalty hpos hn s =>
    simp only [PenaltyStep.result, has_put_account] at ha
    obtain ⟨rfl, rfl⟩ | ⟨-, ha⟩ := ha
    · rfl
    · exact hw address a' ha

theorem staked_genesis : (genesis env).Staked := forall_empty

/-- A writer can take a fee, because its stake is worth more. -/
theorem World.Staked.add_fee_lt {address : Str} {a : Account} (hw : w.Staked)
    (htotal : w.total < 2 ^ 128) (ha : w.Has address a) (hrole : a.role.isWriter) :
    a.balance.toNat + balanceFee.toNat < 2 ^ 128 := by
  have hstake : a.stakedBalance = balanceToStake := (hw _ _ ha).trans (if_pos hrole)
  have hsum := View.le_total ha
  rw [World.total] at htotal
  rw [Account.total, hstake, toNat_balanceToStake] at hsum
  rw [toNat_balanceFee]
  omega

theorem World.Staked.exists_rewarded {address : Str} {a : Account} (hw : w.Staked)
    (htotal : w.total < 2 ^ 128) (ha : w.Has address a) (hrole : a.role.isWriter) :
    ∃ b : Balance, b.toNat = a.balance.toNat + reward75.toNat := by
  have hfits := hw.add_fee_lt htotal ha hrole
  have hreward := reward75_add_reward25
  exact exists_balance (by omega)

theorem Visited.staked (h : Visited env w) : w.Staked :=
  h.invariant staked_genesis fun _ hs => hs.staked

end SettlementBus
