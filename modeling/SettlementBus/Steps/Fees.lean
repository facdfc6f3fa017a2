import SettlementBus.State.Apply
import SettlementBus.State.Ledger

/-! What the changes of one entry do to the account it holds. -/

namespace SettlementBus

open Lib

variable {a : Account} {e : Buffer} {exit : Exit}

theorem chargeFee_eq_ok : chargeFee a.toBuffer exit = .ok e ↔
    ∃ b : Balance, b.toNat + balanceFee.toNat = a.balance.toNat ∧
      { a with balance := b }.toBuffer = e := by
  simp only [chargeFee, bind_eq_ok, orExit_eq_ok, require_eq_ok, Account.decode_toBuffer,
    Option.some.injEq, exists_eq_left', toBalance_value, Balance.greaterThanOrEquals_iff,
    Balance.sub_eq_some, Account.update_toBuffer, exists_const]
  constructor
  · rintro ⟨-, b, hb, rfl⟩
    exact ⟨b, hb, rfl⟩
  · rintro ⟨b, hb, rfl⟩
    exact ⟨by omega, b, hb, rfl⟩

theorem rewardFee_eq_ok {percent : Buffer} {reward : Balance}
    (h : balanceFee.percentage percent = some reward) : rewardFee a.toBuffer percent = .ok e ↔
      ∃ b : Balance, b.toNat = a.balance.toNat + reward.toNat ∧
        { a with balance := b }.toBuffer = e := by
  simp only [rewardFee, bind_eq_ok, orExit_eq_ok, Account.decode_toBuffer, Option.some.injEq,
    exists_eq_left', toBalance_value, h, Balance.add_eq_some, Account.update_toBuffer]

theorem stakeBalanceApply_eq_some : stakeBalanceApply a.toBuffer = some e ↔
    ∃ b : Balance, b.toNat + balanceToStake.toNat = a.balance.toNat ∧
      { a with balance := b, stakedBalance := balanceToStake }.toBuffer = e := by
  simp only [stakeBalanceApply, Option.bind_eq_bind, Option.bind_eq_some_iff,
    Account.decode_toBuffer, Option.some.injEq, exists_eq_left', toBalance_value,
    Option.guard_eq_some', Balance.greaterThanOrEquals_iff, Balance.sub_eq_some,
    Account.update_toBuffer, Account.setStakedBalance_toBuffer]
  constructor
  · rintro ⟨-, -, b, hb, rfl⟩
    exact ⟨b, hb, rfl⟩
  · rintro ⟨b, hb, rfl⟩
    exact ⟨(), by omega, b, hb, rfl⟩

theorem withdrawStakedBalanceApply_eq_some : withdrawStakedBalanceApply a.toBuffer = some e ↔
    ∃ b : Balance, 0 < a.stakedBalance.toNat ∧
      b.toNat = a.balance.toNat + a.stakedBalance.toNat ∧
      { a with balance := b, stakedBalance := balanceZero }.toBuffer = e := by
  simp only [withdrawStakedBalanceApply, Option.bind_eq_bind, Option.bind_eq_some_iff,
    Account.decode_toBuffer, Option.some.injEq, exists_eq_left', toBalance_value,
    Option.guard_eq_some', Balance.greaterThan_iff, toNat_balanceZero, Balance.add_eq_some,
    Account.update_toBuffer, Account.setStakedBalance_toBuffer]
  constructor
  · rintro ⟨-, hpos, b, hb, rfl⟩
    exact ⟨b, hpos, hb, rfl⟩
  · rintro ⟨b, hpos, hb, rfl⟩
    exact ⟨(), hpos, b, hb, rfl⟩

/-- The new reader that a first credit creates. -/
def Account.reader (balance : Balance) : Account where
  role := .reader
  wk := zeroWk
  length_wk := rfl
  balance := balance
  license := zeroLicense
  length_license := rfl
  stakedBalance := balanceZero

theorem init_reader (balance : Balance) :
    NodeEntry.init zeroWk NodeRole.reader.byte balance.value zeroLicense zeroBalance =
      (Account.reader balance).toBuffer := Account.init_toBuffer (.reader balance)

theorem creditedEntry_none {amount : Balance} :
    creditedEntry amount none = .ok e ↔ (Account.reader amount).toBuffer = e := by
  simp [creditedEntry, init_reader, nodeEntrySize]

theorem creditedEntry_some {amount : Balance} :
    creditedEntry amount (some a.toBuffer) = .ok e ↔
      ∃ b : Balance, b.toNat = a.balance.toNat + amount.toNat ∧
        { a with balance := b }.toBuffer = e := by
  simp [creditedEntry, Balance.add_eq_some]

theorem initializedEntry_none {amount : Balance} :
    initializedEntry amount none = .ok e ↔ (Account.reader amount).toBuffer = e := by
  simp [initializedEntry, init_reader, nodeEntrySize]

theorem initializedEntry_some {amount : Balance} :
    initializedEntry amount (some a.toBuffer) = .ok e ↔
      { a with balance := amount }.toBuffer = e := by
  simp [initializedEntry]

end SettlementBus
