import SettlementBus.Steps.Verified
import SettlementBus.Steps.Fees

/-! What the shared checks on the state establish. -/

namespace SettlementBus

open Lib

variable {env : Env} {w w' : World}

theorem verifyValidity_ok {txv : Buffer} {u : Unit} :
    (verifyValidity env txv).exec w = (.ok u, w') ↔
      txv = getIndexerSequenceStateApply env w.base ∧ w = w' := by
  simp [verifyValidity, and_comm]

theorem requireNotApplied_ok {exit : Exit} {tx : Buffer} {u : Unit} :
    (requireNotApplied exit tx).exec w = (.ok u, w') ↔
      w.view.get (.record tx) = none ∧ w = w' := by
  simp [requireNotApplied]

/-- The `init` entry holds zero. -/
def World.InitializationDisabled (w : World) : Prop :=
  w.view.get .initialization = some (safeWriteUInt32BE 0)

instance (w : World) : Decidable w.InitializationDisabled :=
  inferInstanceAs (Decidable (_ = _))

theorem isApplyInitalizationDisabled_ok {b : Bool} :
    isApplyInitalizationDisabled.exec w = (.ok b, w') ↔
      decide w.InitializationDisabled = b ∧ w = w' := by
  simp only [isApplyInitalizationDisabled, World.InitializationDisabled, bind_pure_comp,
    Exec.map_ok, getEntryApply_ok]
  aesop

/-- The admin entry names the key `wk` and an account with this public key. -/
structure AdminIs (env : Env) (w : World) (wk publicKey : Buffer) : Prop where
  entry : ∃ buffer address, w.view.get .admin = some buffer ∧
    AdminEntry.decode env buffer = some { address, wk } ∧
    address.elim nullBuffer env.crypto.decodeSafe = publicKey
  publicKey_ne : publicKey ≠ nullBuffer

theorem requireAdmin_ok {node : Node} {requester : Party} {u : Unit} :
    (requireAdmin env node requester).exec w = (.ok u, w') ↔
      AdminIs env w node.key requester.publicKey ∧ w = w' := by
  simp only [requireAdmin, Exec.bind_ok, getEntryApply_ok, Exec.orExit_ok, Exec.require_ok,
    Option.bind_eq_some_iff, isAdminApply, decide_eq_true_eq]
  constructor
  · rintro ⟨_, _, ⟨rfl, rfl⟩, ⟨address, wk⟩, _, ⟨⟨buffer, hbuf, hdec⟩, rfl⟩, ⟨⟩, _, ⟨rfl, rfl⟩, ⟨⟩,
      _,
      ⟨hne, rfl⟩, hpk, rfl⟩
    exact ⟨⟨⟨buffer, address, hbuf, hdec, hpk⟩, hpk ▸ hne⟩, rfl⟩
  · rintro ⟨⟨⟨buffer, address, hbuf, hdec, hpk⟩, hne⟩, rfl⟩
    exact ⟨_, _, ⟨rfl, rfl⟩, _, _, ⟨⟨buffer, hbuf, hdec⟩, rfl⟩, (), _, ⟨rfl, rfl⟩, (), _,
      ⟨hpk ▸ hne, rfl⟩, hpk, rfl⟩

theorem validatorEntryApply_ok (hw : w.WellFormed) {validator : Party} {node : Node}
    {b : Option Buffer} : (validatorEntryApply validator node).exec w = (.ok b, w') ↔
      ∃ v, w.Has validator.address v ∧ v.role.isWriter ∧ v.wk = node.key ∧
        b = some v.toBuffer ∧ w = w' := by
  simp only [validatorEntryApply, Exec.bind_ok, getEntryApply_ok, Exec.require_ok, Exec.exec_pure,
    Prod.mk.injEq, Except.ok.injEq]
  constructor
  · rintro ⟨_, _, ⟨rfl, rfl⟩, ⟨⟩, _, ⟨hvalid, rfl⟩, rfl, rfl⟩
    cases hget : w.view.get (.account validator.address) with
    | none => simp [hget, isValidatorValidApply] at hvalid
    | some buffer =>
      obtain ⟨v, rfl, hv⟩ := hw.has hget
      simp [hget, isValidatorValidApply] at hvalid
      exact ⟨v, hv, hvalid.1, hvalid.2, rfl, rfl⟩
  · rintro ⟨v, hv, hrole, hwk, rfl, rfl⟩
    refine ⟨_, _, ⟨hv, rfl⟩, (), _, ⟨?_, rfl⟩, rfl, rfl⟩
    simp [isValidatorValidApply, hrole, hwk]

/-- `length` counts the entries, and `next` is the buffer of `length + 1`. -/
structure Counts (entry : Option Buffer) (length : ℕ) (next : Buffer) : Prop where
  decode : LengthEntry.decodeBE (entry.getD LengthEntry.init) = some length
  increment : LengthEntry.incrementBE length = some next

theorem updateWritersIndex_ok {address : Buffer} {u : Unit} :
    (updateWritersIndex address).exec w = (.ok u, w') ↔
      ∃ length next, Counts (w.view.get .writersLength) length next ∧
        { w with view := (w.view.put (.writersIndex length) address).put .writersLength next } =
          w' := by
  simp only [updateWritersIndex, Exec.bind_ok, getEntryApply_ok, Exec.orExit_ok, exec_put,
    Prod.mk.injEq, true_and]
  constructor
  · rintro ⟨_, _, ⟨rfl, rfl⟩, length, _, ⟨hdec, rfl⟩, next, _, ⟨hinc, rfl⟩, ⟨⟩, _, rfl, rfl⟩
    exact ⟨length, next, ⟨hdec, hinc⟩, rfl⟩
  · rintro ⟨length, next, ⟨hdec, hinc⟩, rfl⟩
    exact ⟨_, _, ⟨rfl, rfl⟩, _, _, ⟨hdec, rfl⟩, _, _, ⟨hinc, rfl⟩, (), _, rfl, rfl⟩

theorem applyAssignNewLicense_ok {address newLicenseLength : Buffer} :
    (applyAssignNewLicense address).exec w = (.ok newLicenseLength, w') ↔
      ∃ count, Counts (w.view.get .licenseCount) count newLicenseLength ∧
        { w with
          view := (w.view.put .licenseCount newLicenseLength).put (.licenseIndex (count + 1))
            address } = w' := by
  simp only [applyAssignNewLicense, Exec.bind_ok, getEntryApply_ok, Exec.orExit_ok]
  constructor
  · rintro ⟨_, _, ⟨rfl, rfl⟩, count, _, ⟨hdec, rfl⟩, next, _, ⟨hinc, rfl⟩, decoded, _, ⟨hnext, rfl⟩,
      h⟩
    cases (LengthEntry.decodeBE_of_encodeBE hinc).symm.trans hnext
    simp at h
    obtain ⟨rfl, rfl⟩ := h
    exact ⟨count, ⟨hdec, hinc⟩, rfl⟩
  · rintro ⟨count, ⟨hdec, hinc⟩, rfl⟩
    refine ⟨_, _, ⟨rfl, rfl⟩, _, _, ⟨hdec, rfl⟩, _, _, ⟨hinc, rfl⟩, count + 1, _,
      ⟨LengthEntry.decodeBE_of_encodeBE hinc, rfl⟩, ?_⟩
    simp

end SettlementBus
