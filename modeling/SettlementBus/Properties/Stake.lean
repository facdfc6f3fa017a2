import SettlementBus.Invariants.Stake
import SettlementBus.Sample

/-! Node entries are well formed, and their stake matches their role. -/

namespace SettlementBus

open Lib View

variable {env : Env} {w : World} {address : Str} {v : Buffer}

namespace NodeEntry

/-- The stake an entry holds, zero for a buffer that is no entry. -/
def stake (nodeEntry : Buffer) : ℕ :=
  (decode nodeEntry).elim 0 fun entry => Bytes.toNat entry.stakedBalance

@[simp] theorem stake_toBuffer (a : Account) : stake a.toBuffer = a.stakedBalance.toNat := by
  simp [stake, Balance.toNat]

end NodeEntry

theorem NodeRole.isWriter_iff {r : NodeRole} : r.isWriter ↔ r = .writer ∨ r = .indexer := by
  cases r <;> decide

theorem toNat_balanceToStake_eq : balanceToStake.toNat = 10 * balanceFee.toNat := by
  rw [toNat_balanceToStake, toNat_balanceFee]

theorem Account.Staked.toNat_eq {a : Account} (h : a.Staked) : a.stakedBalance.toNat =
    if a.role = .writer ∨ a.role = .indexer then 10 * balanceFee.toNat else 0 := by
  rw [h]
  by_cases hrole : a.role.isWriter
  · rw [if_pos hrole, if_pos (NodeRole.isWriter_iff.mp hrole), toNat_balanceToStake_eq]
  · rw [if_neg hrole, if_neg (mt NodeRole.isWriter_iff.mpr hrole), toNat_balanceZero]

/-- The entry that `ADD_WRITER` hands to `stakeBalanceApply`, made from the entry `v` of the
requester. -/
def StakeInput (v charged : Buffer) : Prop :=
  ∃ entry iw e, ∃ b : Balance, NodeEntry.decode v = some entry ∧
    !(entry.isIndexer || entry.isWriter || !entry.isWhitelisted) ∧
    NodeEntry.setRoleAndWriterKey v NodeRole.writer.byte iw = some e ∧ b.update e = some charged

/-- The entry that `REMOVE_WRITER` or `BAN_VALIDATOR` hands to `withdrawStakedBalanceApply`, made
from the entry `v` of a writer. -/
inductive WithdrawInput (v : Buffer) : Buffer → Prop
  | removeWriter {entry : DecodedNodeEntry} {e charged : Buffer} {b : Balance}
      (decode : NodeEntry.decode v = some entry) (role : !(entry.isIndexer || !entry.isWriter))
      (set : NodeEntry.setRole v NodeRole.whitelisted.byte = some e)
      (update : b.update e = some charged) : WithdrawInput v charged
  | banValidator {e : Buffer} (writer : NodeEntry.isWriter v) (notIndexer : !NodeEntry.isIndexer v)
      (set : NodeEntry.setRole v NodeRole.reader.byte = some e) : WithdrawInput v e

theorem Account.Staked.stakeInput {a : Account} (h : a.Staked) {charged : Buffer}
    (hin : StakeInput a.toBuffer charged) : NodeEntry.stake charged = 0 := by
  obtain ⟨entry, iw, e, b, hdec, hrole, hset, hupd⟩ := hin
  cases (decode_toBuffer a).symm.trans hdec
  have hiw : iw.length = writerByteLength := by
    by_contra hne
    rw [NodeEntry.setRoleAndWriterKey, if_neg fun h => hne (of_decide_eq_true h.2.1)] at hset
    cases hset
  rw [setRoleAndWriterKey_toBuffer a _ hiw] at hset
  cases hset
  rw [update_toBuffer] at hupd
  cases hupd
  have hrole : (!(a.role.isIndexer || a.role.isWriter || !a.role.isWhitelisted)) = true := hrole
  rw [NodeEntry.stake_toBuffer, h.toNat_eq, if_neg]
  revert hrole
  cases a.role <;> decide

theorem Account.Staked.withdrawInput {a : Account} (h : a.Staked) {e : Buffer}
    (hin : WithdrawInput a.toBuffer e) : 0 < NodeEntry.stake e := by
  have hpos : a.role.isWriter → 0 < a.stakedBalance.toNat := fun hrole => by
    rw [h, if_pos hrole, toNat_balanceToStake]
    decide
  cases hin with
  | removeWriter hdec hrole hset hupd =>
    cases (decode_toBuffer a).symm.trans hdec
    rw [setRole_toBuffer] at hset
    cases hset
    rw [update_toBuffer] at hupd
    cases hupd
    rw [NodeEntry.stake_toBuffer]
    exact hpos (by simpa using And.right (by simpa using hrole))
  | banValidator hwriter _ hset =>
    rw [setRole_toBuffer] at hset
    cases hset
    rw [NodeEntry.stake_toBuffer]
    exact hpos (by simpa using hwriter)

/-- Ten fees are staked for a writer or an indexer and nothing for another role, so that setting a
stake destroys none and a writer always has one to withdraw. -/
theorem stake_matches_role (hw : Visited env w) (hv : w.view.get (.account address) = some v) :
    v.length = nodeEntrySize ∧
      (∃ role : NodeRole, v.headD 0 = role.byte ∧ NodeEntry.stake v =
        if role = .writer ∨ role = .indexer then 10 * balanceFee.toNat else 0) ∧
      (∀ charged, StakeInput v charged → NodeEntry.stake charged = 0) ∧
      (∀ e, WithdrawInput v e → 0 < NodeEntry.stake e) := by
  obtain ⟨a, rfl, ha⟩ := hw.wellFormed.has hv
  have hstaked := hw.staked address a ha
  refine ⟨a.length_toBuffer, ⟨a.role, rfl, ?_⟩, fun _ => hstaked.stakeInput,
    fun _ => hstaked.withdrawInput⟩
  rw [NodeEntry.stake_toBuffer, hstaked.toNat_eq]

namespace Sample

theorem stake_matches_role_admin :
    ∃ v, founded.view.get (.account admin) = some v ∧ v.length = nodeEntrySize ∧
      (∃ role : NodeRole, v.headD 0 = role.byte ∧ NodeEntry.stake v =
        if role = .writer ∨ role = .indexer then 10 * balanceFee.toNat else 0) ∧
      (∀ charged, StakeInput v charged → NodeEntry.stake charged = 0) ∧
      (∀ e, WithdrawInput v e → 0 < NodeEntry.stake e) := by
  obtain ⟨v, hv⟩ := Option.isSome_iff_exists.mp
    (show (founded.view.get (.account admin)).isSome by decide +kernel)
  exact ⟨v, hv, stake_matches_role reachable_founded.visited hv⟩

end Sample

end SettlementBus
