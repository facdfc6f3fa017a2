import SettlementBus.Steps.Fees
import SettlementBus.Steps.Verified

/-! The step of the penalty. -/

namespace SettlementBus

open Lib

variable {env : Env} {w w' : World} {key : Buffer} {n : ℕ}

structure PenaltyStep (env : Env) (w : World) (key : Buffer) (n : ℕ) where
  address : Buffer
  validator : Party
  a : Account
  rest : Balance
  admin : ∃ buffer entry, w.view.get .admin = some buffer ∧
    AdminEntry.decode env buffer = some entry ∧ entry.wk ≠ key
  registered : w.view.get (.writerAddress key) = some address
  decoded : party env address = .ok validator
  has : w.Has validator.address a
  released : rest.toNat = a.balance.toNat + (a.stakedBalance.toNat - n * balanceFee.toNat)

namespace PenaltyStep

variable (e : PenaltyStep env w key n)

def account : Account :=
  { e.a with role := .whitelisted, balance := e.rest, stakedBalance := balanceZero }

def result : World where
  view := w.view.put (.account e.validator.address) e.account.toBuffer
  base := w.base.removeWriter key

theorem owner_eq : w.owner env key = some e.validator.address := by
  rw [World.owner, e.registered]
  exact (party_eq_ok.mp e.decoded).1

end PenaltyStep

theorem deductedStakedBalance_eq_some {stakedBalance penalty : Balance} {b : Balance} :
    deductedStakedBalance stakedBalance penalty = some b ↔
      b.toNat = stakedBalance.toNat - penalty.toNat := by
  unfold deductedStakedBalance
  split
  case isTrue h =>
    rw [Balance.greaterThanOrEquals_iff] at h
    rw [Option.some.injEq, ← Balance.toNat_inj, toNat_balanceZero, Nat.sub_eq_zero_of_le h, eq_comm]
  case isFalse h =>
    rw [Balance.greaterThanOrEquals_iff] at h
    rw [Balance.sub_eq_some]
    omega

theorem releasedEntry_eq_some {a : Account} {entry : DecodedNodeEntry} {deducted : Balance}
    {e : Buffer} (h : entry.balance = a.balance.value) :
    releasedEntry a.toBuffer entry deducted = some e ↔
      ∃ b : Balance, b.toNat = a.balance.toNat + deducted.toNat ∧
        { a with balance := b }.toBuffer = e := by
  unfold releasedEntry
  split
  case isTrue hpos =>
    simp only [h, Option.bind_eq_bind, Option.bind_eq_some_iff, toBalance_value, Option.some.injEq,
      exists_eq_left', Balance.add_eq_some, Account.update_toBuffer]
  case isFalse hpos =>
    rw [Balance.greaterThan_iff, toNat_balanceZero, Nat.not_lt, Nat.le_zero] at hpos
    rw [hpos]
    constructor
    · rintro ⟨⟩
      exact ⟨a.balance, rfl, rfl⟩
    · rintro ⟨b, hb, rfl⟩
      rw [Balance.toNat_inj.mp hb]

theorem penalizedEntry_eq_some {a : Account} {e : Buffer} (hn : n ≤ batchSize) :
    penalizedEntry a.toBuffer n = some e ↔ ∃ rest : Balance,
      rest.toNat = a.balance.toNat + (a.stakedBalance.toNat - n * balanceFee.toNat) ∧
      { a with role := .whitelisted, balance := rest, stakedBalance := balanceZero }.toBuffer =
        e := by
  have hn : n ≤ 10 := hn
  obtain ⟨penalty, hmul, hpenalty⟩ := Balance.exists_mul_toTerm (a := balanceFee) (n := n)
    (by rw [toNat_balanceFee]; omega) (by omega)
  simp only [penalizedEntry, Option.bind_eq_bind, Option.bind_eq_some_iff, Account.decode_toBuffer,
    Option.some.injEq, exists_eq_left', toBalance_value, hmul, deductedStakedBalance_eq_some]
  constructor
  · rintro ⟨deducted, hd, _, hrel, h⟩
    obtain ⟨rest, hrest, rfl⟩ := (releasedEntry_eq_some rfl).mp hrel
    simp only [Account.setStakedBalance_toBuffer, Option.some.injEq, exists_eq_left',
      Account.setRole_toBuffer] at h
    exact ⟨rest, by rw [hrest, hd, hpenalty, Nat.mul_comm], h⟩
  · rintro ⟨rest, hrest, rfl⟩
    obtain ⟨deducted, hd⟩ : ∃ d : Balance, d.toNat = a.stakedBalance.toNat - penalty.toNat :=
      ⟨balanceOf (a.stakedBalance.toNat - penalty.toNat), toNat_balanceOf
        (by have := a.stakedBalance.toNat_lt; omega)⟩
    refine ⟨deducted, hd, _, (releasedEntry_eq_some rfl).mpr ⟨rest, ?_, rfl⟩, ?_⟩
    · rw [hrest, hd, hpenalty, Nat.mul_comm]
    · simp

theorem validatorPenaltyApply_ok (hw : w.WellFormed) (hn : n ≤ batchSize) {u : Unit} :
    (validatorPenaltyApply env key n).exec w = (.ok u, w') ↔
      ∃ e : PenaltyStep env w key n, e.result = w' := by
  simp only [validatorPenaltyApply, Exec.bind_ok, Exec.exec_liftM, Prod.mk.injEq, getEntryApply_ok,
    Exec.orExit_ok, Exec.require_ok, and_assoc, exists_and_left, exists_eq_left', exists_const,
    exec_baseRemoveWriter, exec_put, true_and]
  constructor
  · rintro ⟨entry, hadm, hne, address, haddress, validator, hval, vbuf, hv, e, he, rfl⟩
    obtain ⟨buffer, hbuf, hdec⟩ := Option.bind_eq_some_iff.mp hadm
    obtain ⟨a, rfl, ha⟩ := hw.has hv
    obtain ⟨rest, hrest, rfl⟩ := (penalizedEntry_eq_some hn).mp he
    exact ⟨{
      address, validator, a, rest
      admin := ⟨buffer, entry, hbuf, hdec, hne⟩
      registered := haddress
      decoded := hval
      has := ha
      released := hrest }, rfl⟩
  · rintro ⟨⟨address, validator, a, rest, ⟨buffer, entry, hbuf, hdec, hne⟩, haddress, hval, ha,
      hrest⟩, rfl⟩
    exact ⟨entry, Option.bind_eq_some_iff.mpr ⟨buffer, hbuf, hdec⟩, hne, address, haddress,
      validator,
      hval, _, ha, _, (penalizedEntry_eq_some hn).mpr ⟨rest, hrest, rfl⟩, rfl⟩

end SettlementBus
