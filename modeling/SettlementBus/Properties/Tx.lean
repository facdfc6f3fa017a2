import SettlementBus.Properties.Alias
import SettlementBus.Properties.Conservation
import SettlementBus.Steps.Payment
import SettlementBus.Properties.Deployment

/-! The exact split of the fee of `TX`. -/

namespace SettlementBus

open Lib View

variable {env : Env} {w w' : World} {node : Node} {op : Operation}

/-- A transaction that passes the checks of its handler before `#transferFeeTxOperation` and names
a registered bootstrap. -/
structure TxRequest (env : Env) (w : World) (node : Node) (op : Operation) where
  s : Signed (TxOperation Buffer)
  v : Account
  verified : verifyTx env op = .ok s
  admitted : Admitted env w node s.body.txv s.body.tx s.validator.address v
  registered : w.view.Present (.deployment s.body.bs)

namespace TxRequest

variable (t : TxRequest env w node op)

def requester : Str := t.s.requester.address

def validator : Str := t.s.validator.address

/-- What the validator gets when the creator of the subnetwork is `creator`. -/
def rewarded (creator : Str) : ℕ :=
  balanceFee.toNat * 50 / 100 + if creator = t.validator then balanceFee.toNat * 25 / 100 else 0

/-- What nobody gets. -/
def burned (creator : Str) : ℕ :=
  if t.requester = creator then balanceFee.toNat * 50 / 100 else balanceFee.toNat * 25 / 100

/-- The effect of the transaction. -/
structure Effected (c : Str) (w' : World) : Prop where
  requester : Loses w w' t.requester balanceFee.toNat
  validator : Gains w w' t.validator (t.rewarded c)
  creator : c ≠ t.requester → c ≠ t.validator → Gains w w' c (balanceFee.toNat * 25 / 100)
  only : ChangesOnly w w' t.s.body.tx node.value [t.requester, t.validator, c]
  burned : w'.total + t.burned c = w.total

end TxRequest

/-! ### The statuses of `#transferFeeTxOperation` -/

section

variable {requester validator creator : Str} {v : Account}

theorem transferFeeTxOperation_failure (h : ¬w.view.Present (.account requester)) :
    (transferFeeTxOperation requester validator (some v.toBuffer) creator).exec w =
      (.error .failure, w) := by
  have h : w.view.get (.account requester) = none := Option.not_isSome_iff_eq_none.mp h
  apply Exec.exec_eq_error
  simp [transferFeeTxOperation, h]

theorem transferFeeTxOperation_ignore {r : Account} (hr : w.Has requester r)
    (h : r.balance.toNat < balanceFee.toNat) :
    (transferFeeTxOperation requester validator (some v.toBuffer) creator).exec w =
      (.error .ignore, w) := by
  rw [← Nat.not_le, ← Balance.greaterThanOrEquals_iff] at h
  have hr : w.view.get (.account requester) = some r.toBuffer := hr
  apply Exec.exec_eq_error
  simp [transferFeeTxOperation, chargeFee, hr, h]

/-- The validator and the creator can take their shares, because the requester had the fee. -/
theorem exists_share {r : Account} (htotal : w.total < 2 ^ 128)
    (hfits : v.balance.toNat + balanceFee.toNat < 2 ^ 128) (hr : w.Has requester r)
    (hc : ∃ c, w.Has creator c) (h : balanceFee.toNat ≤ r.balance.toNat) :
    ∃ vb c, TxShare w requester validator creator v vb c := by
  have h75 := reward75_add_reward25
  have h50 := reward50_add_reward25
  by_cases hq : requester = creator
  · obtain ⟨vb, hvb⟩ := exists_balance (n := v.balance.toNat + reward50.toNat) (by omega)
    exact ⟨vb, _, .requester hq hvb⟩
  by_cases hv' : validator = creator
  · obtain ⟨vb, hvb⟩ := exists_balance (n := v.balance.toNat + (reward50.toNat + reward25.toNat))
      (by omega)
    exact ⟨vb, _, .validator hq hv' hvb⟩
  · obtain ⟨c, hc⟩ := hc
    have hsum' := View.add_le_total hq hr hc
    rw [World.total] at htotal
    simp only [Account.total] at hsum'
    obtain ⟨vb, hvb⟩ := exists_balance (n := v.balance.toNat + reward50.toNat) (by omega)
    obtain ⟨cb, hcb⟩ := exists_balance (n := c.balance.toNat + reward25.toNat) (by omega)
    exact ⟨vb, _, .other hq hv' hc hcb hvb⟩

end

namespace TxRequest

variable (t : TxRequest env w node op)

/-- The deployment names its creator, who has an account. -/
theorem exists_creator (h : w.Deployments env) :
    ∃ c, w.creator env t.s.body.bs = some c ∧ (∃ a, w.Has c a) ∧
      ∃ buffer entry, w.view.get (.deployment t.s.body.bs) = some buffer ∧
        DeploymentEntry.decode buffer env.config.addressLength = some entry ∧
        bufferToAddress env entry.address = some c := by
  obtain ⟨buffer, hbuf⟩ := Option.isSome_iff_exists.mp t.registered
  obtain ⟨hdec, hvalid, -, -, -, -, -, -, ha⟩ := h _ _ hbuf
  refine ⟨_, ?_, ⟨_, ha⟩, buffer, _, hbuf, hdec, hvalid⟩
  have hbuf : w.view.get (.deployment t.s.body.bs) = some buffer := hbuf
  rw [World.creator, hbuf, Option.bind_some, hdec, Option.bind_some, hvalid]

/-- An exit of `#transferFeeTxOperation` is the handler's. -/
theorem exec_eq_error (hw : w.WellFormed) {e : Exit} {c : Str} {buffer : Buffer}
    {entry : DecodedDeploymentEntry}
    (hbuf : w.view.get (.deployment t.s.body.bs) = some buffer)
    (hdec : DeploymentEntry.decode buffer env.config.addressLength = some entry)
    (hc : bufferToAddress env entry.address = some c)
    (h : (transferFeeTxOperation t.requester t.validator (some t.v.toBuffer) c).exec w =
      (.error e, w)) : (handleApplyTxOperation env op node).exec w = (.error e, w) := by
  obtain ⟨hcurrent, hvalidator, hfresh⟩ := t.admitted.exec hw
  simp only [requester, validator] at h
  simp [handleApplyTxOperation, Exec.exec_bind, t.verified, hcurrent, hvalidator, hfresh,
    getEntryApply, hbuf, orExit, hdec, hc, h]

theorem requester_ne_validator (halias : op.AliasFree) : t.requester ≠ t.validator := by
  have hver := verifyTx_eq_ok.mp t.verified
  intro h
  exact hver.2.2.2.address_ne ((aliasFree_iff (addresses_tx hver.1)).mp halias
    (hver.2.2.2.aliased_iff.mp h))

/-- A step of the handler has the effect. -/
theorem effected (hne : t.requester ≠ t.validator) {r : Account} {rb vb : Balance} {c : Str}
    {a : Option Account} (hr : w.Has t.requester r)
    (hcharged : rb.toNat + balanceFee.toNat = r.balance.toNat)
    (hshare : TxShare w t.requester t.validator c t.v vb a) (hw' : w' = {
      view := (putAccount ((w.view.put (.account t.requester)
        { r with balance := rb }.toBuffer).put (.account t.validator)
        { t.v with balance := vb }.toBuffer) c a).put (.record t.s.body.tx) node.value
      base := w.base }) (hburned : w'.total + t.burned c = w.total) : t.Effected c w' := by
  have hv : w.Has t.validator t.v := t.admitted.has
  cases hshare with
  | requester hc hrewarded =>
    subst hc hw'
    refine ⟨⟨r, rb, hr, ?_, hcharged⟩, ⟨t.v, vb, hv, ?_, ?_⟩, fun h => absurd rfl h,
      ⟨by simp, fun k htx hk => ?_, rfl⟩, hburned⟩
    · simp [World.Has, hne]
    · simp [World.Has]
    · rw [rewarded, if_neg hne, hrewarded, reward50_eq, Nat.add_zero]
    · simp only [List.forall_mem_cons] at hk
      simp [Store.get_put, htx, hk.1, hk.2.1]
  | validator hne' hc hrewarded =>
    subst hc hw'
    refine ⟨⟨r, rb, hr, ?_, hcharged⟩, ⟨t.v, vb, hv, ?_, ?_⟩, fun _ h => absurd rfl h,
      ⟨by simp, fun k htx hk => ?_, rfl⟩, hburned⟩
    · simp [World.Has, hne]
    · simp [World.Has]
    · rw [rewarded, if_pos rfl, hrewarded, reward50_eq, reward25_eq]
    · simp only [List.forall_mem_cons] at hk
      simp [Store.get_put, htx, hk.1, hk.2.1]
  | @other cb ca hq hv' has hcredited hrewarded =>
    subst hw'
    have hcb : cb.toNat = ca.balance.toNat + balanceFee.toNat * 25 / 100 := reward25_eq ▸ hcredited
    refine ⟨⟨r, rb, hr, ?_, hcharged⟩, ⟨t.v, vb, hv, ?_, ?_⟩, fun _ _ => ⟨ca, cb, has, ?_, hcb⟩,
      ⟨by simp, fun k htx hk => ?_, rfl⟩, hburned⟩
    · simp [World.Has, hne, hq]
    · simp [World.Has, hv']
    · rw [rewarded, if_neg (Ne.symm hv'), hrewarded, reward50_eq, Nat.add_zero]
    · simp [World.Has]
    · simp only [List.forall_mem_cons] at hk
      simp [Store.get_put, htx, hk.1, hk.2.1, hk.2.2]

end TxRequest

/-- The step of the handler when the requester has the fee and the shares fit. -/
def TxRequest.step (t : TxRequest env w node op) {c : Str} {r : Account} {rb vb : Balance}
    {a : Option Account} {buffer : Buffer} {entry : DecodedDeploymentEntry}
    (hbuf : w.view.get (.deployment t.s.body.bs) = some buffer)
    (hdec : DeploymentEntry.decode buffer env.config.addressLength = some entry)
    (hentry : bufferToAddress env entry.address = some c) (hr : w.Has t.requester r)
    (hcharged : rb.toNat + balanceFee.toNat = r.balance.toNat)
    (hshare : TxShare w t.requester t.validator c t.v vb a) : TxStep env w node op where
  s := t.s
  r := r
  v := t.v
  rb := rb
  vb := vb
  creator := c
  c := a
  check := (verifyTx_eq_ok.mp t.verified).1
  bs_ne := (verifyTx_eq_ok.mp t.verified).2.1
  mbs := (verifyTx_eq_ok.mp t.verified).2.2.1
  completed := t.admitted.completed (verifyTx_eq_ok.mp t.verified).2.2.2 hr
  deployed := ⟨buffer, entry, hbuf, hdec, hentry⟩
  charged := hcharged
  share := hshare

/-- A requester that has the fee makes the transaction succeed. -/
theorem TxRequest.exists_effected (t : TxRequest env w node op) (hw : w.WellFormed)
    (htotal : w.total < 2 ^ 128) (halias : op.AliasFree) {c : Str} {buffer : Buffer}
    {entry : DecodedDeploymentEntry}
    (hbuf : w.view.get (.deployment t.s.body.bs) = some buffer)
    (hdec : DeploymentEntry.decode buffer env.config.addressLength = some entry)
    (hentry : bufferToAddress env entry.address = some c) (hcreator : ∃ a, w.Has c a)
    {r : Account} (hr : w.Has t.requester r) (h : balanceFee.toNat ≤ r.balance.toNat) :
    ∃ w', runHandler (handler env .tx op node) w = some (.success, w') ∧ t.Effected c w' := by
  have hne := t.requester_ne_validator halias
  have hsum := View.add_le_total hne hr t.admitted.has
  simp only [Account.total] at hsum
  have hfits : t.v.balance.toNat + balanceFee.toNat < 2 ^ 128 := by
    rw [World.total] at htotal
    omega
  obtain ⟨vb, a, hshare⟩ := exists_share htotal hfits hr hcreator h
  obtain ⟨rb, hrb⟩ := exists_balance (n := r.balance.toNat - balanceFee.toNat)
    (by have := r.balance.toNat_lt; omega)
  have hcharged : rb.toNat + balanceFee.toNat = r.balance.toNat := by omega
  let e := t.step hbuf hdec hentry hr hcharged hshare
  refine ⟨e.result, runHandler_eq_success.mpr
    ((handleApplyTxOperation_ok hw).mpr ⟨e, rfl⟩), ?_⟩
  refine t.effected hne hr hcharged hshare rfl ?_
  rw [TxRequest.burned, ← reward50_eq, ← reward25_eq]
  exact e.total_eq hne

/-- What a transaction that passes the checks of its handler and names a registered bootstrap
does. -/
theorem tx_exact (hw : Visited env w) (htotal : w.total < 2 ^ 128) (hascii : op.AsciiAddresses)
    (t : TxRequest env w node op) :
    ∃ c, w.creator env t.s.body.bs = some c ∧
      (¬w.view.Present (.account t.requester) →
        runHandler (handler env .tx op node) w = some (.failure, w)) ∧
      (w.view.Present (.account t.requester) → w.balance t.requester < balanceFee.toNat →
        runHandler (handler env .tx op node) w = some (.ignore, w)) ∧
      (w.view.Present (.account t.requester) → balanceFee.toNat ≤ w.balance t.requester →
        ∃ w', runHandler (handler env .tx op node) w = some (.success, w') ∧ t.Effected c w') := by
  obtain ⟨c, hc, hcreator, buffer, entry, hbuf, hdec, hentry⟩ := t.exists_creator
    (hw.invariant deployments_genesis fun _ hs => hs.deployments)
  refine ⟨c, hc, fun h => ?_, fun hp h => ?_, fun hp h => ?_⟩
  · rw [runHandler, handler, t.exec_eq_error hw.wellFormed hbuf hdec hentry
      (transferFeeTxOperation_failure h)]
  · obtain ⟨r, hr, hbalance⟩ := exists_has_balance hw.wellFormed hp
    rw [hbalance] at h
    rw [runHandler, handler, t.exec_eq_error hw.wellFormed hbuf hdec hentry
      (transferFeeTxOperation_ignore hr h)]
  · obtain ⟨r, hr, hbalance⟩ := exists_has_balance hw.wellFormed hp
    rw [hbalance] at h
    exact t.exists_effected hw.wellFormed htotal hascii.aliasFree hbuf hdec hentry hcreator hr h

namespace Sample

/-- The call of Alice, signed by Bob. -/
def bobCallBody : TxOperation Buffer :=
  { callBody with
    is :=
      Bytes.ofNat 32 0xbec3663c9433eb05e88e084a1bf0aba0d23da8e4fbd3f10f7d44461859d41d09 ++
      Bytes.ofNat 32 0xdc10e8ce6ce41b5ca83883cac1c3d74848fa84407d00e619d620fed79c4d0a08 }

def bobCallOp : Operation where
  type := OperationType.tx.code
  address := .buffer bobAddress
  value := some (.txo bobCallBody.toField callCompletion.toField)

def bobNetwork : Env :=
  Recording.env { recording with
    signatures := (bobCallBody.is, callBody.tx, bobKey) :: recording.signatures
    operations := bobCallOp :: recording.operations } rfl

/-- Alice has deployed a subnetwork, and Bob has no account. -/
def bobDeployed : World := bobNetwork.after
  [block bootstrap addAdminOp, block bootstrap fundAliceOp, block bootstrap deployOp]
  (genesis bobNetwork)

theorem bobDeployed_facts :
    (apply bobNetwork
      [block bootstrap addAdminOp, block bootstrap fundAliceOp, block bootstrap deployOp]
      (genesis bobNetwork)).isSome ∧
    (runHandler (handler bobNetwork .tx callOp (block bootstrap callOp)) bobDeployed).map Prod.fst =
      some .success ∧
    bobDeployed.total < 2 ^ 128 ∧
    isValidatorValidApply (bobDeployed.view.get (.account admin)) (block bootstrap bobCallOp) ∧
    ¬bobDeployed.view.Present (.account bob) ∧
    txv = getIndexerSequenceStateApply bobNetwork bobDeployed.base ∧
    bobDeployed.view.get (.record callBody.tx) = none ∧
    bobDeployed.view.Present (.deployment subnetBootstrap) := by
  decide +kernel

theorem reachable_bobDeployed : Reachable bobNetwork bobDeployed :=
  .after .genesis bobDeployed_facts.1

/-- Alice calls the subnetwork that she deployed. -/
theorem tx_exact_call : ∃ (t : TxRequest bobNetwork bobDeployed (block bootstrap callOp) callOp)
      (c : Str) (w' : World),
    runHandler (handler bobNetwork .tx callOp (block bootstrap callOp)) bobDeployed =
      some (.success, w') ∧ t.Effected c w' := by
  obtain ⟨-, hstatus, htotal, -⟩ := bobDeployed_facts
  obtain ⟨⟨_, w'⟩, hrun, rfl⟩ := Option.map_eq_some_iff.mp hstatus
  have hexec := runHandler_eq_success.mp hrun
  obtain ⟨e, -⟩ := (handleApplyTxOperation_ok reachable_bobDeployed.wellFormed).mp hexec
  let t : TxRequest bobNetwork bobDeployed (block bootstrap callOp) callOp := {
    s := e.s, v := e.v
    verified := verifyTx_eq_ok.mpr ⟨e.check, e.bs_ne, e.mbs, e.completed.verified⟩
    admitted := e.completed.admitted
    registered := by
      obtain ⟨buffer, entry, hbuf, -⟩ := e.deployed
      exact Option.isSome_iff_exists.mpr ⟨buffer, hbuf⟩ }
  obtain ⟨c, -, hfailure, hignore, hsuccess⟩ := tx_exact reachable_bobDeployed.visited
    htotal (show ∀ b ∈ callOp.addresses, ∀ x ∈ b, x < 128 by decide +kernel) t
  refine ⟨t, c, ?_⟩
  by_cases hp : bobDeployed.view.Present (.account t.requester)
  · by_cases hi : bobDeployed.balance t.requester < balanceFee.toNat
    · cases hrun.symm.trans (hignore hp hi)
    · exact hsuccess hp (Nat.not_lt.mp hi)
  · cases hrun.symm.trans (hfailure hp)

def bobCallSigned : Signed (TxOperation Buffer) where
  address := bobAddress
  body := bobCallBody
  completion := callCompletion
  requester := { address := bob, publicKey := bobKey }
  validator := { address := admin, publicKey := adminKey }

theorem verifyTx_bobCall : verifyTx bobNetwork bobCallOp = .ok bobCallSigned := by
  rw [verifyTx_eq_ok, Signed.verified_iff, party_eq_ok, party_eq_ok, requesterSigned_iff]
  decide +kernel

/-- A requester without an account makes the transaction fail. -/
theorem not_tx_exact_bobCall : Reachable bobNetwork bobDeployed ∧ bobDeployed.total < 2 ^ 128 ∧
    bobCallOp.AsciiAddresses ∧
    ∃ t : TxRequest bobNetwork bobDeployed (block bootstrap bobCallOp) bobCallOp,
      t.requester = bob ∧ t.requester ≠ t.validator ∧
      ¬bobDeployed.view.Present (.account bob) ∧
      runHandler (handler bobNetwork .tx bobCallOp (block bootstrap bobCallOp)) bobDeployed =
        some (.failure, bobDeployed) := by
  have hw := reachable_bobDeployed.wellFormed
  obtain ⟨-, -, htotal, hvalid, hnone, hcurrent, hfresh, hregistered⟩ := bobDeployed_facts
  have hvalidator : (validatorEntryApply bobCallSigned.validator (block bootstrap bobCallOp)).exec
      bobDeployed = (.ok (bobDeployed.view.get (.account admin)), bobDeployed) := by
    simp [validatorEntryApply, Exec.exec_bind, getEntryApply, bobCallSigned, hvalid, require]
  obtain ⟨v, hv, hactive, hauthor, -⟩ := (validatorEntryApply_ok hw).mp hvalidator
  let t : TxRequest bobNetwork bobDeployed (block bootstrap bobCallOp) bobCallOp := {
    s := bobCallSigned, v
    verified := verifyTx_bobCall
    admitted := ⟨hcurrent, hv, hactive, hauthor, hfresh⟩
    registered := hregistered }
  obtain ⟨c, -, -, buffer, entry, hbuf, hdec, hentry⟩ := t.exists_creator
    (reachable_bobDeployed.visited.invariant deployments_genesis fun _ hs => hs.deployments)
  refine ⟨reachable_bobDeployed, htotal, ?_, t, rfl, show bob ≠ admin by decide, hnone, ?_⟩
  · exact show ∀ b ∈ bobCallOp.addresses, ∀ x ∈ b, x < 128 by decide +kernel
  · rw [runHandler, handler, t.exec_eq_error hw hbuf hdec hentry
      (transferFeeTxOperation_failure hnone)]

end Sample

end SettlementBus
