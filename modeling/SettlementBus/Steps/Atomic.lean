import SettlementBus.Steps.Control
import SettlementBus.Steps.Penalty

/-! A handler that leaves early has not written, unless it threw. -/

namespace SettlementBus

open Lib

variable {env : Env} {w : World} {node : Node} {op : Operation}

abbrev Atomic (x : Apply Unit) (w : World) : Prop := Exec.Atomic (· = .thrown) x w

theorem handleApplyInitializeBalanceOperation_atomic :
    Atomic (handleApplyInitializeBalanceOperation env op node) w := by
  simp [Exec.Atomic, handleApplyInitializeBalanceOperation, isApplyInitalizationDisabled,
    requireAdmin, verifyValidity, requireNotApplied]

theorem handleApplyDisableBalanceInitializationOperation_atomic :
    Atomic (handleApplyDisableBalanceInitializationOperation env op node) w := by
  simp [Exec.Atomic, handleApplyDisableBalanceInitializationOperation,
    isApplyInitalizationDisabled, requireAdmin, verifyValidity, requireNotApplied]

section Licenses

variable {address : Buffer} {E : Exit → World → Prop} (hE : ∀ w', E .thrown w')

include hE in
theorem wp_applyAssignNewLicense {Q : Buffer → World → Prop}
    (hQ : ∀ license w', license.length = licenseByteLength → Q license w') :
    (applyAssignNewLicense address).wp Q E w := by
  simp only [applyAssignNewLicense, Exec.wp_bind, wp_getEntryApply, Exec.wp_orExit, hE,
    implies_true, and_true]
  intro count _ license hinc n _
  have hlen := LengthEntry.length_of_encodeBE hinc
  simp [hQ _ _ hlen]

include hE in
/-- What follows the fee of `APPEND_WHITELIST` leaves early by exceptions only. -/
theorem wp_whitelistedEntry {entry : Option Buffer} {w₀ : World} {target : Str}
    (hw : w₀.WellFormed) (hget : w₀.view.get (.account target) = entry) :
    (whitelistedEntry address entry).wp (fun _ _ => True) E w := by
  cases entry with
  | none =>
    refine (Exec.wp_bind ..).mpr (wp_applyAssignNewLicense hE fun license w' hlen => ?_)
    simp [init_whitelisted hlen, nodeEntrySize]
  | some v =>
    obtain ⟨a, rfl, -⟩ := hw.has hget
    simp [whitelistedEntry, applyAssignNewLicense, hE]

end Licenses

theorem handleApplyAddAdminOperation_atomic :
    Atomic (handleApplyAddAdminOperation env op node) w := by
  simp [Exec.Atomic, handleApplyAddAdminOperation, verifyValidity, requireNotApplied]
  intro address o hcheck
  refine wpe_intro fun admin hadmin _ _ => wpe_intro fun _ _ _ _ _ _ => ?_
  have hlen := (Check.validateCoreAdminOperation_eq_some.mp hcheck).2.2.2.iw.length_eq
  refine wp_applyAssignNewLicense (by simp) fun license w' hlic => ?_
  have hne : o.iw ≠ [] := by
    intro h
    rw [h] at hlen
    cases hlen
  simp [init_initialAdmin hlen hlic, AdminEntry.encode_eq (party_eq_ok.mp hadmin).1 hlen, hne,
    updateWritersIndex]

theorem handleApplyAppendWhitelistOperation_atomic (hw : w.WellFormed) :
    Atomic (handleApplyAppendWhitelistOperation env op node) w := by
  simp [Exec.Atomic, handleApplyAppendWhitelistOperation, chargeWhitelistFee, requireAdmin,
    verifyValidity, requireNotApplied, isApplyInitalizationDisabled,
    wp_whitelistedEntry _ hw rfl]

theorem handleApplyAddWriterOperation_atomic :
    Atomic (handleApplyAddWriterOperation env op node) w := by
  simp [Exec.Atomic, handleApplyAddWriterOperation, addWriter, registerWriterKey, verifyValidity,
    validatorEntryApply, requireNotApplied, updateWritersIndex]

theorem handleApplyRemoveWriterOperation_atomic :
    Atomic (handleApplyRemoveWriterOperation env op node) w := by
  simp [Exec.Atomic, handleApplyRemoveWriterOperation, removeWriter, verifyValidity,
    validatorEntryApply, requireNotApplied]

theorem handleApplyAdminRecoveryOperation_atomic :
    Atomic (handleApplyAdminRecoveryOperation env op node) w := by
  simp [Exec.Atomic, handleApplyAdminRecoveryOperation, verifyValidity, validatorEntryApply,
    requireNotApplied]

theorem handleApplyAddIndexerOperation_atomic :
    Atomic (handleApplyAddIndexerOperation env op node) w := by
  simp [Exec.Atomic, handleApplyAddIndexerOperation, addIndexer, requireAdmin, verifyValidity,
    requireNotApplied]

theorem handleApplyRemoveIndexerOperation_atomic :
    Atomic (handleApplyRemoveIndexerOperation env op node) w := by
  simp [Exec.Atomic, handleApplyRemoveIndexerOperation, removeIndexer, requireAdmin,
    verifyValidity, requireNotApplied, updateWritersIndex]

theorem handleApplyBanValidatorOperation_atomic :
    Atomic (handleApplyBanValidatorOperation env op node) w := by
  simp [Exec.Atomic, handleApplyBanValidatorOperation, putBanned, requireAdmin, verifyValidity,
    requireNotApplied]

theorem handleApplyBootstrapDeploymentOperation_atomic :
    Atomic (handleApplyBootstrapDeploymentOperation env op node) w := by
  simp [Exec.Atomic, handleApplyBootstrapDeploymentOperation, verifyValidity, validatorEntryApply,
    requireNotApplied]

@[simp] theorem wp_putEntry {address : Str} {entry : Option Buffer} {Q : Unit → World → Prop}
    {E : Exit → World → Prop} : (putEntry address entry).wp Q E w ↔
      Q () { w with view := entry.elim w.view (w.view.put (.account address)) } := by
  cases entry <;> simp [putEntry]

theorem handleApplyTxOperation_atomic : Atomic (handleApplyTxOperation env op node) w := by
  simp [Exec.Atomic, handleApplyTxOperation, transferFeeTxOperation, verifyValidity,
    validatorEntryApply, requireNotApplied]

theorem handleApplyTransferOperation_atomic :
    Atomic (handleApplyTransferOperation env op node) w := by
  simp [Exec.Atomic, handleApplyTransferOperation, transfer, putRecipient, putRecipientAgain,
    verifyValidity, validatorEntryApply, requireNotApplied]

end SettlementBus
