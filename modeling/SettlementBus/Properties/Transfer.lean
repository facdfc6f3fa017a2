import SettlementBus.Properties.Alias
import SettlementBus.Steps.Payment
import SettlementBus.Sample

/-! The exact effect of `TRANSFER`. -/

namespace SettlementBus

open Lib View

variable {env : Env} {w w' : World} {node : Node} {op : Operation}

/-! ### The request -/

/-- A transfer that passes the checks of its handler before `#transfer`. -/
structure TransferRequest (env : Env) (w : World) (node : Node) (op : Operation) where
  s : Signed (TransferOperation Buffer)
  v : Account
  to_ : Party
  verified : verifyTransfer env op = .ok s
  admitted : Admitted env w node s.body.txv s.body.tx s.validator.address v
  party_to : party env s.body.to_ = .ok to_

namespace TransferRequest

variable (t : TransferRequest env w node op)

def sender : Str := t.s.requester.address

def recipient : Str := t.to_.address

def validator : Str := t.s.validator.address

theorem length_am : t.s.body.am.length = balanceByteLength :=
  (Check.validateTransferOperation_eq_some.mp (verifyTransfer_eq_ok.mp t.verified).1).2.2.2.am

def amount : Balance := ⟨t.s.body.am, t.length_am⟩

/-- What the sender pays. -/
def deducted : ℕ :=
  if t.recipient = t.sender then balanceFee.toNat else t.amount.toNat + balanceFee.toNat

/-- What the validator gets. -/
def rewarded : ℕ :=
  balanceFee.toNat * 75 / 100 + if t.recipient = t.validator then t.amount.toNat else 0

theorem rewarded_of_ne (h : t.recipient ≠ t.validator) : t.rewarded = reward75.toNat := by
  rw [rewarded, if_neg h, reward75_eq, Nat.add_zero]

theorem rewarded_of_eq (h : t.recipient = t.validator) :
    t.rewarded = t.amount.toNat + reward75.toNat := by
  rw [rewarded, if_pos h, reward75_eq, Nat.add_comm]

theorem rewarded_le (h : t.sender ≠ t.validator) : t.rewarded ≤ t.deducted := by
  have hfee := reward75_add_reward25
  rw [deducted]
  by_cases hv : t.recipient = t.validator
  · rw [if_neg (hv ▸ h.symm), t.rewarded_of_eq hv]
    omega
  · rw [t.rewarded_of_ne hv]
    split <;> omega

/-- The effect of the transfer. -/
structure Effected (w' : World) : Prop where
  sender : Loses w w' t.sender t.deducted
  validator : Gains w w' t.validator t.rewarded
  old : t.recipient ≠ t.sender → t.recipient ≠ t.validator →
    w.view.Present (.account t.recipient) → Gains w w' t.recipient t.amount.toNat
  new : ¬w.view.Present (.account t.recipient) → w'.Has t.recipient (.reader t.amount)
  only : ChangesOnly w w' t.s.body.tx node.value [t.sender, t.validator, t.recipient]

end TransferRequest

/-! ### The statuses of `#transfer` -/

section

variable {sender recipient : Str} {v : Account} {amount : Balance} {isSelf isValidator : Bool}

def totalDeducted (amount : Balance) (isSelf : Bool) : ℕ :=
  if isSelf then balanceFee.toNat else amount.toNat + balanceFee.toNat

theorem totalDeductedAmount_eq_some (h : totalDeducted amount isSelf < 2 ^ 128) :
    ∃ d : Balance, (if isSelf then some balanceFee else amount.add balanceFee) = some d ∧
      d.toNat = totalDeducted amount isSelf := by
  cases isSelf with
  | true => exact ⟨balanceFee, rfl, rfl⟩
  | false => exact Balance.exists_add h

theorem totalDeductedAmount_eq_none (h : 2 ^ 128 ≤ totalDeducted amount isSelf) :
    (if isSelf then some balanceFee else amount.add balanceFee) = none := by
  cases isSelf with
  | true => exact absurd balanceFee.toNat_lt (Nat.not_lt.mpr h)
  | false => exact Balance.add_eq_none.mpr h

theorem transfer_failure (amount : Balance)
    (h : ¬w.view.Present (.account sender) ∨ 2 ^ 128 ≤ totalDeducted amount isSelf) :
    (transfer sender recipient (some v.toBuffer) amount.value isSelf isValidator).exec w =
      (.error .failure, w) := by
  apply Exec.exec_eq_error
  simp only [transfer, Exec.wp_bind, Exec.wp_orExit, toBalance_value, Option.some.injEq, forall_eq',
    reduceCtorEq, false_imp_iff, and_true, and_self, implies_true, wp_getEntryApply]
  intro d hd buffer hbuf
  obtain h | h := h
  · exact absurd (Option.isSome_iff_exists.mpr ⟨buffer, hbuf⟩) h
  · cases (totalDeductedAmount_eq_none h).symm.trans hd

theorem transfer_ignore (amount : Balance) {r : Account} (hr : w.Has sender r)
    (hD : totalDeducted amount isSelf < 2 ^ 128)
    (h : r.balance.toNat < totalDeducted amount isSelf) :
    (transfer sender recipient (some v.toBuffer) amount.value isSelf isValidator).exec w =
      (.error .ignore, w) := by
  obtain ⟨d, hd, hdn⟩ := totalDeductedAmount_eq_some hD
  rw [← hdn, ← Nat.not_le, ← Balance.greaterThanOrEquals_iff] at h
  have hr : w.view.get (.account sender) = some r.toBuffer := hr
  apply Exec.exec_eq_error
  simp [transfer, hd, hr, h]

end

namespace TransferRequest

variable (t : TransferRequest env w node op)

/-- An exit of `#transfer` is the handler's. -/
theorem exec_eq_error (hw : w.WellFormed) {e : Exit}
    (h : (transfer t.sender t.recipient (some t.v.toBuffer) t.s.body.am
      (isSelfTransfer t.s.address t.s.body) (isRecipientValidator t.s.body t.s.completion)).exec w =
        (.error e, w)) : (handleApplyTransferOperation env op node).exec w = (.error e, w) := by
  obtain ⟨hcurrent, hvalidator, hfresh⟩ := t.admitted.exec hw
  simp only [sender, recipient] at h
  simp only [handleApplyTransferOperation, Exec.exec_bind, Exec.exec_liftM, t.verified, hcurrent,
    hvalidator, hfresh, t.party_to, h]

section

variable (halias : op.AliasFree)

include halias

/-- The addresses are the same bytes exactly when they name the same account. -/
theorem isSelfTransfer_eq :
    isSelfTransfer t.s.address t.s.body = decide (t.recipient = t.sender) := by
  have haddr := addresses_transfer (verifyTransfer_eq_ok.mp t.verified).1
  have hver := (verifyTransfer_eq_ok.mp t.verified).2
  obtain ⟨-, hto, -⟩ := (aliasFree_iff_three haddr).mp halias
  rw [isSelfTransfer, decide_eq_decide, recipient, sender, ← party_address t.party_to,
    ← party_address hver.requester]
  constructor
  · intro h
    rw [h]
  · intro h
    exact hto h.symm

theorem isRecipientValidator_eq :
    isRecipientValidator t.s.body t.s.completion = decide (t.recipient = t.validator) := by
  have haddr := addresses_transfer (verifyTransfer_eq_ok.mp t.verified).1
  have hver := (verifyTransfer_eq_ok.mp t.verified).2
  obtain ⟨-, -, htova⟩ := (aliasFree_iff_three haddr).mp halias
  rw [isRecipientValidator, decide_eq_decide, recipient, validator, ← party_address t.party_to,
    ← party_address hver.validator]
  constructor
  · intro h
    rw [h]
  · intro h
    exact htova h

theorem sender_ne_validator : t.sender ≠ t.validator := by
  have haddr := addresses_transfer (verifyTransfer_eq_ok.mp t.verified).1
  have hver := (verifyTransfer_eq_ok.mp t.verified).2
  obtain ⟨hva, -, -⟩ := (aliasFree_iff_three haddr).mp halias
  intro h
  exact hver.address_ne (hva (hver.aliased_iff.mp h))

theorem totalDeducted_eq :
    totalDeducted t.amount (isSelfTransfer t.s.address t.s.body) = t.deducted := by
  rw [totalDeducted, t.isSelfTransfer_eq halias, deducted]
  simp only [decide_eq_true_eq]

/-- The validator can take the fee and the amount, and so can the recipient, because the sender had
both. -/
theorem exists_kind (hw : w.WellFormed) (htotal : w.total < 2 ^ 128) {r : Account}
    (hr : w.Has t.sender r) (h : t.deducted ≤ r.balance.toNat) :
    ∃ kind : TransferCase, kind.Flags w t.recipient t.amount
        (isSelfTransfer t.s.address t.s.body) (isRecipientValidator t.s.body t.s.completion) ∧
      kind.deducted t.amount = t.deducted ∧ kind.rewarded t.amount = t.rewarded ∧
      t.v.balance.toNat + t.rewarded < 2 ^ 128 := by
  have hne := t.sender_ne_validator halias
  have hsum := View.add_le_total hne hr t.admitted.has
  rw [t.isSelfTransfer_eq halias, t.isRecipientValidator_eq halias]
  rw [World.total] at htotal
  simp only [Account.total] at hsum
  have hle := t.rewarded_le hne
  by_cases hs : t.recipient = t.sender
  · have hv : t.recipient ≠ t.validator := hs ▸ hne
    refine ⟨.self, by simp [TransferCase.Flags, hs, hne], ?_, ?_, by omega⟩
    · exact (if_pos hs).symm
    · exact (t.rewarded_of_ne hv).symm
  have hs' : t.deducted = t.amount.toNat + balanceFee.toNat := if_neg hs
  by_cases hv : t.recipient = t.validator
  · refine ⟨.validator, by simp [TransferCase.Flags, hv, hne.symm], hs'.symm, ?_, by omega⟩
    exact (t.rewarded_of_eq hv).symm
  · obtain ⟨c, hc⟩ := @exists_credited _ t.recipient t.amount hw fun a ha => by
      have hsum' := View.add_le_total (Ne.symm hs) hr ha
      simp only [Account.total] at hsum'
      omega
    refine ⟨.other c, by simp [TransferCase.Flags, hs, hv, hc], hs'.symm, ?_, by omega⟩
    exact (t.rewarded_of_ne hv).symm

end

/-- A step of the handler has the effect. -/
theorem effected (hne : t.sender ≠ t.validator) {r : Account} {rb vb : Balance}
    {kind : TransferCase} {isSelf isValidator : Bool}
    (hflags : kind.Flags w t.recipient t.amount isSelf isValidator)
    (hself : isSelf = decide (t.recipient = t.sender))
    (hvalidator : isValidator = decide (t.recipient = t.validator))
    (hr : w.Has t.sender r) (hcharged : rb.toNat + t.deducted = r.balance.toNat)
    (hrewarded : vb.toNat = t.v.balance.toNat + t.rewarded) (hw' : w' = {
      view := (kind.putAgain t.recipient (((kind.putFirst t.recipient
        { t.v with balance := vb } w.view).put (.account t.sender)
        { r with balance := rb }.toBuffer).put (.account t.validator)
        { t.v with balance := vb }.toBuffer)).put (.record t.s.body.tx) node.value
      base := w.base }) : t.Effected w' := by
  subst hself hvalidator hw'
  have hv : w.Has t.validator t.v := t.admitted.has
  cases kind with
  | self =>
    have hs : t.recipient = t.sender := of_decide_eq_true hflags.1
    refine ⟨⟨r, rb, hr, ?_, hcharged⟩, ⟨t.v, vb, hv, ?_, hrewarded⟩, fun h => absurd hs h,
      fun h => ?_, by simp, fun k htx hk => ?_, rfl⟩
    · simp [World.Has, TransferCase.putAgain, TransferCase.putFirst, hne]
    · simp [World.Has, TransferCase.putAgain, TransferCase.putFirst]
    · exact absurd (hs ▸ hr.present) h
    · simp only [List.forall_mem_cons] at hk
      simp [TransferCase.putAgain, TransferCase.putFirst, Store.get_put, htx, hk.1, hk.2.1]
  | validator =>
    have hv' : t.recipient = t.validator := of_decide_eq_true hflags.2
    refine ⟨⟨r, rb, hr, ?_, hcharged⟩, ⟨t.v, vb, hv, ?_, hrewarded⟩, fun _ h => absurd hv' h,
      fun h => ?_, by simp, fun k htx hk => ?_, rfl⟩
    · simp [World.Has, TransferCase.putAgain, TransferCase.putFirst, hne]
    · simp [World.Has, TransferCase.putAgain, TransferCase.putFirst]
    · exact absurd (hv' ▸ hv.present) h
    · simp only [List.forall_mem_cons] at hk
      simp [TransferCase.putAgain, TransferCase.putFirst, Store.get_put, htx, hk.1, hk.2.1, hv']
  | other c =>
    obtain ⟨hs, hv', hc⟩ := hflags
    simp only [Bool.not_eq_true', decide_eq_false_iff_not] at hs hv'
    refine ⟨⟨r, rb, hr, ?_, hcharged⟩, ⟨t.v, vb, hv, ?_, hrewarded⟩, fun _ _ h => ?_,
      fun h => ?_, by simp, fun k htx hk => ?_, rfl⟩
    · simp [World.Has, TransferCase.putAgain, TransferCase.putFirst, hne, Ne.symm hs]
    · simp [World.Has, TransferCase.putAgain, TransferCase.putFirst, Ne.symm hv']
    · cases hc with
      | new hget => simp [View.Present, hget] at h
      | old ha hb => exact ⟨_, _, ha, by simp [World.Has, TransferCase.putAgain], hb⟩
    · cases hc with
      | new hget => simp [World.Has, TransferCase.putAgain]
      | old ha hb => exact absurd ha.present h
    · simp only [List.forall_mem_cons] at hk
      simp [TransferCase.putAgain, TransferCase.putFirst, Store.get_put, htx, hk.1, hk.2.1, hk.2.2]

end TransferRequest

/-- The step of the handler when the sender has what it pays and the sums fit. -/
def TransferRequest.step (t : TransferRequest env w node op) {kind : TransferCase} {r : Account}
    {rb vb : Balance}
    (hflags : kind.Flags w t.recipient t.amount (isSelfTransfer t.s.address t.s.body)
      (isRecipientValidator t.s.body t.s.completion)) (hr : w.Has t.sender r)
    (hcharged : rb.toNat + kind.deducted t.amount = r.balance.toNat)
    (hrewarded : vb.toNat = t.v.balance.toNat + kind.rewarded t.amount) :
    TransferStep env w node op where
  s := t.s
  r := r
  v := t.v
  rb := rb
  vb := vb
  amount := t.amount
  recipient := t.to_
  kind := kind
  check := (verifyTransfer_eq_ok.mp t.verified).1
  completed := t.admitted.completed (verifyTransfer_eq_ok.mp t.verified).2 hr
  amount_eq := rfl
  to_ := t.party_to
  flags := hflags
  charged := hcharged
  rewarded := hrewarded

/-- A sender that has what it pays makes the transfer succeed. -/
theorem TransferRequest.exists_effected (t : TransferRequest env w node op) (hw : w.WellFormed)
    (htotal : w.total < 2 ^ 128) (halias : op.AliasFree) {r : Account}
    (hr : w.Has t.sender r) (h : t.deducted ≤ r.balance.toNat) :
    ∃ w', runHandler (handler env .transfer op node) w = some (.success, w') ∧
      t.Effected w' := by
  have hne := t.sender_ne_validator halias
  obtain ⟨kind, hflags, hdeducted, hrewarded, hfits⟩ := t.exists_kind halias hw htotal hr h
  obtain ⟨rb, hrb⟩ := exists_balance (n := r.balance.toNat - t.deducted)
    (by have := r.balance.toNat_lt; omega)
  have hcharged : rb.toNat + t.deducted = r.balance.toNat := by omega
  obtain ⟨vb, hvb⟩ := exists_balance hfits
  let e := t.step hflags hr (hdeducted ▸ hcharged) (hrewarded ▸ hvb)
  refine ⟨e.result, runHandler_eq_success.mpr
    ((handleApplyTransferOperation_ok hw).mpr ⟨e, rfl⟩), ?_⟩
  exact t.effected hne hflags (t.isSelfTransfer_eq halias) (t.isRecipientValidator_eq halias) hr
    hcharged hvb rfl

/-- What a transfer that passes the checks of its handler does. -/
theorem transfer_exact (hw : Visited env w) (htotal : w.total < 2 ^ 128)
    (hascii : op.AsciiAddresses) (t : TransferRequest env w node op) :
    (¬w.view.Present (.account t.sender) ∨ 2 ^ 128 ≤ t.deducted →
      runHandler (handler env .transfer op node) w = some (.failure, w)) ∧
    (w.view.Present (.account t.sender) → t.deducted < 2 ^ 128 →
      w.balance t.sender < t.deducted →
      runHandler (handler env .transfer op node) w = some (.ignore, w)) ∧
    (w.view.Present (.account t.sender) → t.deducted ≤ w.balance t.sender →
      ∃ w', runHandler (handler env .transfer op node) w = some (.success, w') ∧
        t.Effected w') := by
  refine ⟨fun h => ?_, fun hp hlt h => ?_, fun hp h => ?_⟩
  · rw [← t.totalDeducted_eq hascii.aliasFree] at h
    rw [runHandler, handler, t.exec_eq_error hw.wellFormed (transfer_failure t.amount h)]
  · obtain ⟨r, hr, hbalance⟩ := exists_has_balance hw.wellFormed hp
    rw [hbalance] at h
    rw [← t.totalDeducted_eq hascii.aliasFree] at h hlt
    rw [runHandler, handler, t.exec_eq_error hw.wellFormed (transfer_ignore t.amount hr hlt h)]
  · obtain ⟨r, hr, hbalance⟩ := exists_has_balance hw.wellFormed hp
    rw [hbalance] at h
    exact t.exists_effected hw.wellFormed htotal hascii.aliasFree hr h

namespace Sample

theorem payAdmin_facts :
    (runHandler (handler network .transfer payAdminOp (block bootstrap payAdminOp)) funded).map
      Prod.fst = some .success ∧
    funded.total < 2 ^ 128 ∧ ∀ b ∈ payAdminOp.addresses, ∀ x ∈ b, x < 128 := by
  decide +kernel

/-- Alice pays the admin, who validates the operation. -/
theorem transfer_exact_payAdmin :
    ∃ (t : TransferRequest network funded (block bootstrap payAdminOp) payAdminOp) (w' : World),
      runHandler (handler network .transfer payAdminOp (block bootstrap payAdminOp)) funded =
        some (.success, w') ∧ t.Effected w' := by
  obtain ⟨hstatus, htotal, hascii⟩ := payAdmin_facts
  obtain ⟨⟨_, w'⟩, hrun, rfl⟩ := Option.map_eq_some_iff.mp hstatus
  have hexec := runHandler_eq_success.mp hrun
  obtain ⟨e, -⟩ := (handleApplyTransferOperation_ok reachable_funded.wellFormed).mp hexec
  let t : TransferRequest network funded (block bootstrap payAdminOp) payAdminOp := {
    s := e.s, v := e.v, to_ := e.recipient
    verified := verifyTransfer_eq_ok.mpr ⟨e.check, e.completed.verified⟩
    admitted := e.completed.admitted
    party_to := e.to_ }
  obtain ⟨hfailure, hignore, hsuccess⟩ :=
    transfer_exact reachable_funded.visited htotal hascii t
  refine ⟨t, ?_⟩
  by_cases hf : ¬funded.view.Present (.account t.sender) ∨ 2 ^ 128 ≤ t.deducted
  · cases hrun.symm.trans (hfailure hf)
  rw [not_or, not_not, Nat.not_le] at hf
  by_cases hi : funded.balance t.sender < t.deducted
  · cases hrun.symm.trans (hignore hf.1 hf.2 hi)
  · exact hsuccess hf.1 (Nat.not_lt.mp hi)

end Sample

end SettlementBus
