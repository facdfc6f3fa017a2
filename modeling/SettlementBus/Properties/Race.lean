import SettlementBus.Properties.Identity
import SettlementBus.Properties.RolePrevalidation

/-! Completed operations that others overtake. -/

namespace SettlementBus

open Lib View

/-- The account that `op.address` names. -/
def Operation.requester (env : Env) (op : Operation) : Option Str := op.address.account env

/-- The account that `va` names. -/
def Operation.validator (env : Env) (op : Operation) : Option Str :=
  op.completion.bind fun c => c.va.account env

variable {env : Env} {w w' w₁ : World} {node : Node} {op : Operation} {validator : Str}
  {v : Account} {type : OperationType}

/-! ### The operations in between -/

/-- Blocks, whatever becomes of them, and penalties lead from one state to the other. -/
inductive Interleaved (env : Env) (w : World) : World → Prop
  | refl : Interleaved env w w
  | block {w₁ w₂ : World} {node : Node} {status : Status} (h : Interleaved env w w₁)
      (happly : applyNode env node w₁ = some (status, w₂)) : Interleaved env w w₂
  | penalty {w₁ : World} {key : Buffer} {n : ℕ} (h : Interleaved env w w₁) (hpos : 0 < n)
      (hn : n ≤ batchSize) : Interleaved env w (penalize env key n w₁)

/-- The account that the admin entry names. -/
def World.adminAddress (env : Env) (w : World) : Option Str :=
  ((w.view.get .admin).bind (AdminEntry.decode env)).bind DecodedAdminEntry.address

theorem Interleaved.exists_path (h : Interleaved env w w') (hw : w.WellFormed) :
    ∃ es, Path env w es w' := by
  induction h with
  | refl => exact ⟨[], .nil⟩
  | block _ happly ih =>
    obtain ⟨es, hp⟩ := ih
    exact ⟨_, hp.append (applyNode_path (hp.wellFormed hw) happly)⟩
  | penalty _ hpos hn ih =>
    obtain ⟨es, hp⟩ := ih
    exact ⟨_, hp.append (penalize_path (hp.wellFormed hw) hpos hn)⟩

theorem Interleaved.wellFormed (h : Interleaved env w w') (hw : w.WellFormed) : w'.WellFormed := by
  obtain ⟨es, hp⟩ := h.exists_path hw
  exact hp.wellFormed hw

/-- The turn of a block comes after other operations. Its validator still is an active writer under
the key of the block, and the indexers are the same. -/
structure Overtaken (env : Env) (w w' : World) (node : Node) (validator : Str) (v : Account) :
    Prop where
  interleaved : Interleaved env w w'
  indexers : w'.base.indexers = w.base.indexers
  has : w'.Has validator v
  active : v.role.isWriter
  author : v.wk = node.key
  total : w'.total < 2 ^ 128

/-- The validator of the block is a writer under its key in the second state, and the indexers are
those of the first one. -/
structure Stays (w w' : World) (node : Node) (validator : Str) : Prop where
  indexers : w'.base.indexers = w.base.indexers
  exists_writer : ∃ v, w'.Has validator v ∧ v.role = .writer ∧ v.wk = node.key
  total : w'.total < 2 ^ 128

/-- Blocks that validators have completed for others than the admin lead from one state to the
other, and the validator of the block stays a writer all the time. -/
inductive Raced (env : Env) (w : World) (node : Node) (validator : Str) : World → Prop
  | refl (hstays : Stays w w node validator) : Raced env w node validator w
  | block {w₁ w₂ : World} {other : Node} {type : OperationType} {op : Operation} {status : Status}
      (h : Raced env w node validator w₁) (hdec : decodeNode env other = some (type, op))
      (htype : type.IsCompleted) (hrequester : op.requester env ≠ w₁.adminAddress env)
      (happly : applyNode env other w₁ = some (status, w₂))
      (hstays : Stays w w₂ node validator) : Raced env w node validator w₂

theorem Stays.overtaken (h : Stays w w' node validator) (hi : Interleaved env w w') :
    ∃ v, Overtaken env w w' node validator v := by
  obtain ⟨v, hv, hrole, hwk⟩ := h.exists_writer
  exact ⟨v, hi, h.indexers, hv, by rw [hrole]; rfl, hwk, h.total⟩

theorem Raced.interleaved (h : Raced env w node validator w') : Interleaved env w w' := by
  induction h with
  | refl => exact .refl
  | block _ _ _ _ happly _ ih => exact .block ih happly

theorem Raced.stays (h : Raced env w node validator w') : Stays w w' node validator := by
  cases h with
  | refl hstays => exact hstays
  | block _ _ _ _ _ hstays => exact hstays

/-- Races do no harm: whatever others ask for in between, a block that was valid when a writer
completed it does not fail as long as the writer stays one. -/
def RacesHarmless (env : Env) : Prop :=
  ∀ (w w' w₁ : World) (node : Node) (type : OperationType) (op : Operation) (validator : Str),
    Visited env w → decodeNode env node = some (type, op) → type.IsCompleted →
    op.validator env = some validator → applyNode env node w = some (.success, w₁) →
    Raced env w node validator w' →
    ∃ status w₂, applyNode env node w' = some (status, w₂) ∧ status ≠ .failure

/-- If the sender still has the amount and the fee, the recipient can take the amount, and the
validator its reward as well. -/
def Takes (w : World) (sender recipient : Str) (amount : ℕ) (isSelf isValidator : Bool) : Prop :=
  ∀ r a, w.Has sender r → w.Has recipient a → isSelf = false →
    amount + balanceFee.toNat ≤ r.balance.toNat →
    a.balance.toNat + (amount + if isValidator then reward75.toNat else 0) < 2 ^ 128

/-- What an operation that was valid needs of the state in which its turn comes. -/
inductive RaceSafe (env : Env) (w : World) (op : Operation) : OperationType → Prop
  -- Another validator has applied the operation.
  | recorded {type : OperationType} {tx : Buffer} (hne : type ≠ .adminRecovery)
      (htx : op.tx = .buffer tx) (h : w.view.Present (.record tx)) : RaceSafe env w op type
  -- The requester may become a writer under the key, and it can pay all or not even the fee.
  | addWriter {address : Buffer} {o : RoleAccessOperation Buffer} {c : Completion Buffer} {s : Str}
      {r : Account} (check : Check.validateRoleAccessOperation env op = some (address, o, some c))
      (requester : bufferToAddress env address = some s) (has : w.Has s r)
      (role : r.role = .whitelisted)
      (key : w.view.get (.writerAddress o.iw) = none ∨
        r.wk = o.iw ∧ w.view.get (.writerAddress o.iw) = some address)
      (funds : r.balance.toNat < balanceFee.toNat ∨
        balanceFee.toNat + balanceToStake.toNat ≤ r.balance.toNat ∧
          writersCounter.count w < 2 ^ 32 - 1) : RaceSafe env w op .addWriter
  | removeWriter {address : Buffer} {o : RoleAccessOperation Buffer} {c : Completion Buffer}
      {s : Str} {r : Account}
      (check : Check.validateRoleAccessOperation env op = some (address, o, some c))
      (requester : bufferToAddress env address = some s) (has : w.Has s r)
      (role : r.role = .writer) (wk : o.iw = r.wk)
      (key : w.view.get (.writerAddress o.iw) = some address) : RaceSafe env w op .removeWriter
  -- The requester is the admin, its old key is an indexer's and the new one nobody's.
  | adminRecovery {address : Buffer} {o : RoleAccessOperation Buffer} {c : Completion Buffer}
      {requester : Party} {oldWk : Buffer}
      (check : Check.validateRoleAccessOperation env op = some (address, o, some c))
      (signer : party env address = .ok requester) (fresh : w.view.get (.record o.tx) = none)
      (unregistered : w.view.get (.writerAddress o.iw) = none)
      (admin : AdminIs env w oldWk requester.publicKey) (old_mem : oldWk ∈ w.base.indexers) :
      RaceSafe env w op .adminRecovery
  | bootstrapDeployment : RaceSafe env w op .bootstrapDeployment
  | tx : RaceSafe env w op .tx
  | transfer {address : Buffer} {o : TransferOperation Buffer} {c : Completion Buffer}
      {sender recipient : Str}
      (check : Check.validateTransferOperation env op = some (address, o, some c))
      (requester : bufferToAddress env address = some sender)
      (to_ : bufferToAddress env o.to_ = some recipient)
      (takes : Takes w sender recipient (Bytes.toNat o.am) (isSelfTransfer address o)
        (isRecipientValidator o c)) : RaceSafe env w op .transfer

/-- The node does not count as an invalid operation. -/
def Spared (x : Apply Unit) (w : World) : Prop :=
  ∃ status w', runHandler x w = some (status, w') ∧ status ≠ .failure

theorem Spared.of_ok {x : Apply Unit} (h : x.exec w = (.ok (), w')) : Spared x w :=
  ⟨.success, w', runHandler_eq_success.mpr h, fun h => by cases h⟩

theorem Spared.of_ignore {x : Apply Unit} (h : x.exec w = (.error .ignore, w)) : Spared x w :=
  ⟨.ignore, w, by rw [runHandler, h], fun h => by cases h⟩

theorem Spared.ok_or_ignore {x : Apply Unit} (h : Spared x w) :
    (∃ w', x.exec w = (.ok (), w')) ∨ ∃ w', x.exec w = (.error .ignore, w') := by
  obtain ⟨status, w', hrun, hne⟩ := h
  rw [runHandler] at hrun
  rcases hx : x.exec w with ⟨exit | u, w₁⟩
  · cases exit with
    | ignore => exact .inr ⟨w₁, rfl⟩
    | failure =>
      rw [hx] at hrun
      cases hrun
      exact absurd rfl hne
    | thrown =>
      rw [hx] at hrun
      cases hrun
  · exact .inl ⟨w₁, rfl⟩

namespace Overtaken

variable (h : Overtaken env w w' node validator v)

include h

theorem wellFormed (hw : w.WellFormed) : w'.WellFormed :=
  h.interleaved.wellFormed hw

/-- An invariant of the events still holds. -/
theorem invariant {P : World → Prop} (hwf : w.WellFormed) (hw : P w)
    (hP : ∀ e : Event, e.Step env → e.before.WellFormed → P e.before → P e.after) : P w' := by
  obtain ⟨es, hp⟩ := h.interleaved.exists_path hwf
  exact hp.invariant hwf hw fun e _ => hP e

theorem present (hw : w.WellFormed) {k : EntryKey} (hk : w.view.Present k) : w'.view.Present k :=
  h.invariant (P := fun w => w.view.Present k) hw hk fun _ hs _ => hs.present

/-- Accounts do not disappear. -/
theorem exists_has (hw : w.WellFormed) {s : Str} {r : Account} (hr : w.Has s r) :
    ∃ r', w'.Has s r' := by
  obtain ⟨r', hr', -⟩ := exists_has_balance (h.wellFormed hw) (h.present hw hr.present)
  exact ⟨r', hr'⟩

theorem staked (hw : Visited env w) : w'.Staked :=
  h.invariant hw.wellFormed hw.staked fun _ hs => hs.staked

theorem decodes (hw : Visited env w) : writersCounter.Decodes w' :=
  (h.invariant
    (P := fun w => w.Founded env ∧ licenseCounter.Decodes w ∧ writersCounter.Decodes w)
    hw.wellFormed ⟨hw.founded, hw.decodes⟩ fun _ hs => hs.decodes).2.2

/-- The validator can take a fee and its reward, whoever the requester is. -/
theorem add_fee_lt (hw : Visited env w) : v.balance.toNat + balanceFee.toNat < 2 ^ 128 :=
  (h.staked hw).add_fee_lt h.total h.has h.active

theorem exists_rewarded (hw : Visited env w) :
    ∃ vb : Balance, vb.toNat = v.balance.toNat + reward75.toNat :=
  (h.staked hw).exists_rewarded h.total h.has h.active

variable {txv tx : Buffer} (hcurrent : txv = getIndexerSequenceStateApply env w.base)

include hcurrent

theorem current : txv = getIndexerSequenceStateApply env w'.base := by
  rw [hcurrent, getIndexerSequenceStateApply, getIndexerSequenceStateApply, h.indexers]

theorem admitted (hfresh : w'.view.get (.record tx) = none) :
    Admitted env w' node txv tx validator v :=
  ⟨h.current hcurrent, h.has, h.active, h.author, hfresh⟩

end Overtaken

/-! ### The handlers ignore an operation that is recorded -/

section Recorded

variable {p : Party} {txv tx : Buffer}

theorem Overtaken.exec (h : Overtaken env w w' node p.address v) (hw : w.WellFormed)
    (hcurrent : txv = getIndexerSequenceStateApply env w.base) :
    (verifyValidity env txv).exec w' = (.ok (), w') ∧
      (validatorEntryApply p node).exec w' = (.ok (some v.toBuffer), w') :=
  ⟨verifyValidity_ok.mpr ⟨h.current hcurrent, rfl⟩,
    (validatorEntryApply_ok (h.wellFormed hw)).mpr ⟨v, h.has, h.active, h.author, rfl, rfl⟩⟩

theorem requireNotApplied_ignore (h : w.view.Present (.record tx)) :
    (requireNotApplied .ignore tx).exec w = (.error .ignore, w) := by
  obtain ⟨value, hget⟩ := Option.isSome_iff_exists.mp h
  have hget : w.view.get (.record tx) = some value := hget
  apply Exec.exec_eq_error
  simp [requireNotApplied, hget]

end Recorded

theorem chargeFee_eq_error {a : Account} {exit : Exit}
    (h : a.balance.toNat < balanceFee.toNat) : chargeFee a.toBuffer exit = .error exit := by
  rw [← Nat.not_le, ← Balance.greaterThanOrEquals_iff] at h
  simp [chargeFee, require, orExit, h]
  rfl

theorem party_unique {address : Buffer} {p : Party} {s : Str}
    (h : party env address = .ok p) (hs : bufferToAddress env address = some s) :
    s = p.address :=
  Option.some.inj (hs.symm.trans (party_eq_ok.mp h).1)

/-! ### Operations on value -/

theorem transfer_tx {address : Buffer} {o : TransferOperation Buffer} {c : Completion Buffer}
    (h : Check.validateTransferOperation env op = some (address, o, some c)) :
    op.tx = .buffer o.tx := by
  obtain ⟨-, -, ⟨f, hv, -⟩, -⟩ := Check.validateTransferOperation_eq_some.mp h
  rw [Operation.tx, hv]
  rfl

theorem TxStep.spared (e : TxStep env w node op) (hw : Visited env w)
    (h : Overtaken env w w' node e.s.validator.address v) :
    Spared (handler env .tx op node) w' := by
  have hw' := h.wellFormed hw.wellFormed
  have hverified := verifyTx_eq_ok.mpr ⟨e.check, e.bs_ne, e.mbs, e.completed.verified⟩
  by_cases hp : w'.view.Present (.record e.s.body.tx)
  · obtain ⟨hcurrent, hvalidator⟩ := h.exec hw.wellFormed e.completed.current
    refine .of_ignore ?_
    simp only [handler, handleApplyTxOperation, Exec.exec_bind, Exec.exec_liftM, hverified,
      hcurrent, hvalidator, requireNotApplied_ignore hp]
  obtain ⟨buffer, entry, hbuf, -⟩ := e.deployed
  let t : TxRequest env w' node op := {
    s := e.s, v
    verified := hverified
    admitted := h.admitted e.completed.current (Option.not_isSome_iff_eq_none.mp hp)
    registered := h.present hw.wellFormed (Option.isSome_iff_exists.mpr ⟨buffer, hbuf⟩) }
  obtain ⟨r, hr⟩ := h.exists_has hw.wellFormed e.completed.requester
  have hdeployments : w'.Deployments env :=
    h.invariant hw.wellFormed (hw.invariant deployments_genesis fun _ hs => hs.deployments)
      fun _ hs => hs.deployments
  obtain ⟨c, -, hcreator, buffer, entry, hbuf, hdec, hentry⟩ := t.exists_creator hdeployments
  by_cases hlt : r.balance.toNat < balanceFee.toNat
  · exact .of_ignore (t.exec_eq_error hw' hbuf hdec hentry (transferFeeTxOperation_ignore hr hlt))
  · obtain ⟨vb, a, hshare⟩ :=
      exists_share h.total (h.add_fee_lt hw) hr hcreator (Nat.not_lt.mp hlt)
    obtain ⟨rb, hrb⟩ := exists_balance (n := r.balance.toNat - balanceFee.toNat)
      (by have := r.balance.toNat_lt; omega)
    have hcharged : rb.toNat + balanceFee.toNat = r.balance.toNat := by omega
    exact .of_ok ((handleApplyTxOperation_ok hw').mpr
      ⟨t.step hbuf hdec hentry hr hcharged hshare, rfl⟩)

theorem BootstrapDeploymentStep.spared (e : BootstrapDeploymentStep env w node op)
    (hw : Visited env w) (h : Overtaken env w w' node e.s.validator.address v) :
    Spared (handler env .bootstrapDeployment op node) w' := by
  have hw' := h.wellFormed hw.wellFormed
  have hverified := verifyBootstrapDeployment_eq_ok.mpr
    ⟨e.check, e.bs_ne, e.completed.verified⟩
  obtain ⟨hcurrent, hvalidator⟩ := h.exec hw.wellFormed e.completed.current
  by_cases hp : w'.view.Present (.record e.s.body.tx)
  · refine .of_ignore ?_
    simp only [handler, handleApplyBootstrapDeploymentOperation, Exec.exec_bind, Exec.exec_liftM,
      hverified, hcurrent, hvalidator, requireNotApplied_ignore hp]
  have hadmitted := h.admitted e.completed.current (Option.not_isSome_iff_eq_none.mp hp)
  obtain ⟨-, -, hfresh⟩ := hadmitted.exec hw'
  obtain ⟨r, hr⟩ := h.exists_has hw.wellFormed e.completed.requester
  have htx := (Check.validateBootstrapDeploymentOperation_eq_some.mp e.check).2.2.2.tx.length_eq
  have hreq := party_eq_ok.mp e.completed.verified.requester
  have hget : w'.view.get (.account e.s.requester.address) = some r.toBuffer := hr
  have hne : DeploymentEntry.encode env e.s.body.tx e.s.address ≠ [] := by
    rw [DeploymentEntry.encode_eq hreq.1 htx]
    exact List.append_ne_nil_of_left_ne_nil (ne_nil_of_length htx) _
  by_cases hd : w'.view.get (.deployment e.s.body.bs) = none
  · by_cases hlt : r.balance.toNat < balanceFee.toNat
    · refine .of_ignore ?_
      simp [handler, handleApplyBootstrapDeploymentOperation, Exec.exec_bind, hverified, hcurrent,
        hvalidator, hfresh, getEntryApply, require, orExit, hd, hne, hget, chargeFee_eq_error hlt]
    · obtain ⟨vb, hvb⟩ := h.exists_rewarded hw
      obtain ⟨rb, hrb⟩ := exists_balance (n := r.balance.toNat - balanceFee.toNat)
        (by have := r.balance.toNat_lt; omega)
      let e' : BootstrapDeploymentStep env w' node op := {
        s := e.s, r, v, rb, vb
        check := e.check
        bs_ne := e.bs_ne
        completed := hadmitted.completed e.completed.verified hr
        undeployed := hd
        charged := by omega
        rewarded := hvb }
      exact .of_ok ((handleApplyBootstrapDeploymentOperation_ok hw').mpr ⟨e', rfl⟩)
  · refine .of_ignore ?_
    simp [handler, handleApplyBootstrapDeploymentOperation, Exec.exec_bind, hverified, hcurrent,
      hvalidator, hfresh, getEntryApply, require, hd]

section Transfer

variable {sender recipient : Str} {r : Account} {amount : Balance} {isSelf isValidator : Bool}

theorem TransferCase.Flags.totalDeducted_eq {kind : TransferCase}
    (h : kind.Flags w recipient amount isSelf isValidator) :
    totalDeducted amount isSelf = kind.deducted amount := by
  cases kind with
  | self =>
    obtain ⟨rfl, -⟩ := h
    rfl
  | validator =>
    obtain ⟨hself, -⟩ := h
    rw [totalDeducted, if_neg (by simpa using hself)]
    rfl
  | other =>
    obtain ⟨hself, -⟩ := h
    rw [totalDeducted, if_neg (by simpa using hself)]
    rfl

/-- What two accounts hold together is below the total, so one can always pay the other. -/
theorem Takes.of_ne (htotal : w.total < 2 ^ 128) (hne : sender ≠ recipient) {n : ℕ} :
    Takes w sender recipient n isSelf isValidator := by
  intro r a hr ha _ hle
  have hsum := View.add_le_total hne hr ha
  rw [World.total] at htotal
  rw [Account.total, Account.total] at hsum
  have hreward := reward75_add_reward25
  cases isValidator
  all_goals simp only [Bool.false_eq_true, if_false, if_true]
  all_goals omega

/-- The accounts that a transfer credits can take what they get. -/
theorem Takes.exists_kind (h : Takes w sender recipient amount.toNat isSelf isValidator)
    (hw : w.WellFormed) (hr : w.Has sender r)
    (hle : totalDeducted amount isSelf ≤ r.balance.toNat) {validator : Str}
    (hv : w.Has validator v) (hvfits : v.balance.toNat + balanceFee.toNat < 2 ^ 128)
    (hsame : isValidator = true → recipient = validator)
    (hboth : isSelf = true → isValidator = false) :
    ∃ kind : TransferCase, kind.Flags w recipient amount isSelf isValidator ∧
      v.balance.toNat + kind.rewarded amount < 2 ^ 128 := by
  have hreward := reward75_add_reward25
  cases isSelf with
  | true =>
    have hfits : v.balance.toNat + reward75.toNat < 2 ^ 128 := by omega
    exact ⟨.self, ⟨rfl, by rw [hboth rfl]; rfl⟩, hfits⟩
  | false =>
    have hle : amount.toNat + balanceFee.toNat ≤ r.balance.toNat := hle
    cases isValidator with
    | true =>
      obtain rfl := hsame rfl
      have hfits := h r v hr hv rfl hle
      rw [if_pos rfl] at hfits
      exact ⟨.validator, ⟨rfl, rfl⟩, hfits⟩
    | false =>
      obtain ⟨c, hc⟩ := @exists_credited _ recipient amount hw fun a ha => by
        simpa using h r a hr ha rfl hle
      have hfits : v.balance.toNat + reward75.toNat < 2 ^ 128 := by omega
      exact ⟨.other c, ⟨rfl, rfl, hc⟩, hfits⟩

/-- What a transfer credits was taken. -/
theorem TransferCase.Flags.takes {kind : TransferCase} {vb : Balance}
    (h : kind.Flags w recipient amount isSelf isValidator) {validator : Str}
    (hv : w.Has validator v) (hrewarded : vb.toNat = v.balance.toNat + kind.rewarded amount)
    (hsame : isValidator = true → recipient = validator) :
    Takes w sender recipient amount.toNat isSelf isValidator := by
  rintro r a - ha rfl -
  cases kind with
  | self => exact absurd h.1 (by decide)
  | validator =>
    obtain ⟨-, rfl⟩ := h
    obtain rfl := hsame rfl
    have hlt := vb.toNat_lt
    rw [hrewarded, hv.unique ha] at hlt
    rwa [if_pos rfl]
  | other c =>
    obtain ⟨-, hvalidator, hc⟩ := h
    rw [if_neg (by simpa using hvalidator)]
    cases hc with
    | new hget =>
      have hget' : w.view.get (.account recipient) = some a.toBuffer := ha
      rw [hget] at hget'
      cases hget'
    | @old a' b ha' hcredited =>
      obtain rfl := ha.unique ha'
      have hlt := b.toNat_lt
      rwa [hcredited] at hlt

/-- `#transfer` does not leave with `IGNORE` when the sender can pay. -/
theorem wp_transfer {Q : TransferResult → World → Prop} (hr : w.Has sender r)
    (hge : totalDeducted amount isSelf ≤ r.balance.toNat) (hQ : ∀ result, Q result w) :
    (transfer sender recipient (some v.toBuffer) amount.value isSelf isValidator).wp Q
      (fun e _ => e ≠ .ignore) w := by
  have hd : ∀ d, (if isSelf then some balanceFee else amount.add balanceFee) = some d →
      r.balance.greaterThanOrEquals d := by
    intro d hd
    obtain ⟨d', hd', hdn⟩ :=
      totalDeductedAmount_eq_some (Nat.lt_of_le_of_lt hge r.balance.toNat_lt)
    cases hd.symm.trans hd'
    rwa [Balance.greaterThanOrEquals_iff, hdn]
  have hr : w.view.get (.account sender) = some r.toBuffer := hr
  cases hrecipient : w.view.get (.account recipient) <;> cases isSelf <;> cases isValidator <;>
    simp at hd <;>
    simp [transfer, hd, hr, hrecipient, otherRecipientEntry, creditedEntry, rewardedBalance, hQ]
  all_goals exact hd

end Transfer

/-- The schema check reads the fields of a transfer off. -/
theorem transfer_unique {address address' : Buffer} {o o' : TransferOperation Buffer}
    {c c' : Completion Buffer}
    (h : Check.validateTransferOperation env op = some (address, o, some c))
    (h' : Check.validateTransferOperation env op = some (address', o', some c')) :
    address' = address ∧ o' = o ∧ c' = c := by
  obtain ⟨rfl, rfl, hc⟩ : address = address' ∧ o = o' ∧ some c = some c' := by
    simpa using h.symm.trans h'
  exact ⟨rfl, rfl, (Option.some.inj hc).symm⟩

namespace TransferStep

variable (e : TransferStep env w node op)

theorem toNat_amount : e.amount.toNat = Bytes.toNat e.s.body.am := congrArg Bytes.toNat e.amount_eq

/-- A recipient that has the bytes of the validator has its account. -/
theorem recipient_eq_validator (h : isRecipientValidator e.s.body e.s.completion = true) :
    e.recipient.address = e.s.validator.address := by
  have heq : e.s.body.to_ = e.s.completion.va := of_decide_eq_true h
  rw [← party_address e.to_, ← party_address e.completed.verified.validator, heq]

theorem not_isRecipientValidator (h : isSelfTransfer e.s.address e.s.body = true) :
    isRecipientValidator e.s.body e.s.completion = false := by
  have heq : e.s.address = e.s.body.to_ := of_decide_eq_true h
  exact decide_eq_false (heq ▸ e.completed.verified.address_ne)

include e in
theorem raceSafe : RaceSafe env w op .transfer := by
  refine .transfer e.check (party_eq_ok.mp e.completed.verified.requester).1
    (party_eq_ok.mp e.to_).1 ?_
  rw [← e.toNat_amount]
  exact e.flags.takes e.completed.validator e.rewarded e.recipient_eq_validator

include e in
/-- In any state a transfer between two accounts is safe. -/
theorem raceSafe_of_aliasFree (hfree : op.AliasFree) (htotal : w'.total < 2 ^ 128) :
    RaceSafe env w' op .transfer := by
  refine .transfer e.check (party_eq_ok.mp e.completed.verified.requester).1
    (party_eq_ok.mp e.to_).1 ?_
  obtain ⟨-, hto, -⟩ := (aliasFree_iff_three (addresses_transfer e.check)).mp hfree
  by_cases heq : e.s.requester.address = e.recipient.address
  · rw [← party_address e.completed.verified.requester, ← party_address e.to_] at heq
    intro r a _ _ hself
    exact absurd (hto heq) (of_decide_eq_false hself)
  · exact .of_ne htotal heq

theorem spared_iff (hw : Visited env w) (h : Overtaken env w w' node e.s.validator.address v) :
    Spared (handler env .transfer op node) w' ↔ RaceSafe env w' op .transfer := by
  have hw' := h.wellFormed hw.wellFormed
  have hver := e.completed.verified
  have hverified := verifyTransfer_eq_ok.mpr ⟨e.check, hver⟩
  by_cases hp : w'.view.Present (.record e.s.body.tx)
  · obtain ⟨hcurrent, hvalidator⟩ := h.exec hw.wellFormed e.completed.current
    refine iff_of_true (.of_ignore ?_) (.recorded (by decide) (transfer_tx e.check) hp)
    simp only [handler, handleApplyTransferOperation, Exec.exec_bind, Exec.exec_liftM, hverified,
      hcurrent, hvalidator, requireNotApplied_ignore hp]
  have hadmitted := h.admitted e.completed.current (Option.not_isSome_iff_eq_none.mp hp)
  obtain ⟨r, hr⟩ := h.exists_has hw.wellFormed e.completed.requester
  constructor
  · intro hspared
    obtain ⟨w₁, hok⟩ | ⟨w₁, hignore⟩ := hspared.ok_or_ignore
    · obtain ⟨e', -⟩ := (handleApplyTransferOperation_ok hw').mp hok
      exact e'.raceSafe
    · refine .transfer e.check (party_eq_ok.mp hver.requester).1 (party_eq_ok.mp e.to_).1 ?_
      rintro r' a hr' - hself hle
      exfalso
      obtain rfl := hr.unique hr'
      obtain ⟨hcurrent, hvalidator, hfresh⟩ := hadmitted.exec hw'
      have hle : totalDeducted e.amount (isSelfTransfer e.s.address e.s.body) ≤
          r.balance.toNat := by
        rwa [totalDeducted, hself, if_neg Bool.false_ne_true, e.toNat_amount]
      refine Exec.wp_of_error (Q := fun _ _ => True) (E := fun e _ => e ≠ .ignore) ?_ hignore rfl
      simp only [handler, handleApplyTransferOperation, Exec.wp_bind, Exec.wp_liftM, hverified,
        wpe_ok, Exec.wp_of_exec hcurrent, Exec.wp_of_exec hvalidator, Exec.wp_of_exec hfresh, e.to_]
      rw [← e.amount_eq]
      refine wp_transfer hr hle fun result => ?_
      rw [hself]
      cases isRecipientValidator e.s.body e.s.completion <;>
        simp [putRecipient, putRecipientAgain, putEntry]
      intro entry hentry
      simp [hentry]
  · intro hsafe
    cases hsafe with
    | recorded hne htx hrecorded =>
      cases htx.symm.trans (transfer_tx e.check)
      exact absurd hrecorded hp
    | transfer hcheck hrequester hto htakes =>
      obtain ⟨rfl, rfl, rfl⟩ := transfer_unique e.check hcheck
      obtain rfl := party_unique hver.requester hrequester
      obtain rfl := party_unique e.to_ hto
      let t : TransferRequest env w' node op := {
        s := e.s, v, to_ := e.recipient
        verified := hverified
        admitted := hadmitted
        party_to := e.to_ }
      by_cases hlt : r.balance.toNat <
          totalDeducted t.amount (isSelfTransfer e.s.address e.s.body)
      · refine .of_ignore (t.exec_eq_error hw' (transfer_ignore t.amount hr ?_ hlt))
        have hpaid : totalDeducted e.amount (isSelfTransfer e.s.address e.s.body) < 2 ^ 128 := by
          rw [e.flags.totalDeducted_eq]
          have hcharged := e.charged
          have hbalance := e.r.balance.toNat_lt
          omega
        rwa [totalDeducted, e.toNat_amount] at hpaid
      · have hge := Nat.not_lt.mp hlt
        have htakes : Takes w' t.sender t.recipient t.amount.toNat _ _ := htakes
        obtain ⟨kind, hflags, hfits⟩ := htakes.exists_kind hw' hr hge h.has (h.add_fee_lt hw)
          e.recipient_eq_validator e.not_isRecipientValidator
        rw [hflags.totalDeducted_eq] at hge
        obtain ⟨rb, hrb⟩ := exists_balance (n := r.balance.toNat - kind.deducted t.amount)
          (by have := r.balance.toNat_lt; omega)
        have hcharged : rb.toNat + kind.deducted t.amount = r.balance.toNat := by omega
        obtain ⟨vb, hvb⟩ := exists_balance hfits
        exact .of_ok ((handleApplyTransferOperation_ok hw').mpr
          ⟨t.step hflags hr hcharged hvb, rfl⟩)

end TransferStep

/-! ### Role operations -/

/-- The schema check reads the fields of an operation off. -/
theorem roleAccess_unique {address address' : Buffer} {o o' : RoleAccessOperation Buffer}
    {c c' : Completion Buffer}
    (h : Check.validateRoleAccessOperation env op = some (address, o, some c))
    (h' : Check.validateRoleAccessOperation env op = some (address', o', some c')) :
    address' = address ∧ o' = o := by
  obtain ⟨rfl, rfl, -⟩ : address = address' ∧ o = o' ∧ some c = some c' := by
    simpa using h.symm.trans h'
  exact ⟨rfl, rfl⟩

theorem roleAccess_tx {address : Buffer} {o : RoleAccessOperation Buffer}
    {c : Completion Buffer}
    (h : Check.validateRoleAccessOperation env op = some (address, o, some c)) :
    op.tx = .buffer o.tx := by
  obtain ⟨-, -, ⟨f, hv, -⟩, -⟩ := Check.validateRoleAccessOperation_eq_some.mp h
  rw [Operation.tx, hv]
  rfl

section AddWriter

variable {o : RoleAccessOperation Buffer} {requester : Str} {address : Buffer} {r : Account}

theorem addWriter_ignore (hr : w.Has requester r) (hrole : r.role = .whitelisted)
    (hkey : w.view.get (.writerAddress o.iw) = none ∨
      r.wk = o.iw ∧ w.view.get (.writerAddress o.iw) = some address)
    (h : r.balance.toNat < balanceFee.toNat) :
    (addWriter o node requester address validator (some v.toBuffer)).exec w =
      (.error .ignore, w) := by
  rw [← Nat.not_le, ← Balance.greaterThanOrEquals_iff] at h
  have hr : w.view.get (.account requester) = some r.toBuffer := hr
  apply Exec.exec_eq_error
  simp [addWriter, hr, hrole, h]
  exact ⟨fun _ => by decide, hkey.resolve_left⟩

/-- `#addWriter` leaves with `IGNORE` only when nothing but the fee is missing. -/
theorem addWriter_ignored {w₁ : World} (hr : w.Has requester r)
    (h : (addWriter o node requester address validator (some v.toBuffer)).exec w =
      (.error .ignore, w₁)) :
    r.role = .whitelisted ∧ (w.view.get (.writerAddress o.iw) = none ∨
      r.wk = o.iw ∧ w.view.get (.writerAddress o.iw) = some address) ∧
      r.balance.toNat < balanceFee.toNat := by
  have hr : w.view.get (.account requester) = some r.toBuffer := hr
  refine Exec.wp_of_error (Q := fun _ _ => True) (E := fun e _ => e = Exit.ignore → _) ?_ h rfl
  simp [-toNat_balanceFee, addWriter, hr, registerWriterKey, rewardFee, updateWritersIndex]
  intro hkey hindexer hwriter hwhitelisted hlt
  refine ⟨?_, hkey, ?_⟩
  · revert hindexer hwriter hwhitelisted
    cases r.role <;> decide
  · rw [← Nat.not_le, ← Balance.greaterThanOrEquals_iff, hlt]
    exact Bool.false_ne_true

end AddWriter

section RemoveWriter

variable {o : RoleAccessOperation Buffer} {requester : Str} {address : Buffer} {r : Account}

theorem removeWriter_ignore (hr : w.Has requester r) (hrole : r.role = .writer)
    (hwk : o.iw = r.wk) (hkey : w.view.get (.writerAddress o.iw) = some address)
    (h : r.balance.toNat < balanceFee.toNat) :
    (removeWriter o node requester address validator (some v.toBuffer)).exec w =
      (.error .ignore, w) := by
  rw [← Nat.not_le, ← Balance.greaterThanOrEquals_iff] at h
  have hr : w.view.get (.account requester) = some r.toBuffer := hr
  apply Exec.exec_eq_error
  simp [removeWriter, hr, hrole, hwk, h]
  exact ⟨fun _ _ => hwk ▸ hkey, by decide⟩

theorem removeWriter_ignored {w₁ : World} (hr : w.Has requester r)
    (h : (removeWriter o node requester address validator (some v.toBuffer)).exec w =
      (.error .ignore, w₁)) :
    r.role = .writer ∧ o.iw = r.wk ∧ w.view.get (.writerAddress o.iw) = some address := by
  have hr : w.view.get (.account requester) = some r.toBuffer := hr
  refine Exec.wp_of_error (Q := fun _ _ => True) (E := fun e _ => e = Exit.ignore → _) ?_ h rfl
  simp [removeWriter, hr, rewardFee]
  intro hindexer hwriter hwk hkey _
  refine ⟨?_, hwk, hkey⟩
  revert hindexer hwriter
  cases r.role <;> decide

end RemoveWriter

theorem adminRecovery_ignored {s : Signed (RoleAccessOperation Buffer)} {w₁ : World}
    (hverified : verifyRoleAccess env .adminRecovery op = .ok s)
    (h : (handleApplyAdminRecoveryOperation env op node).exec w = (.error .ignore, w₁)) :
    w.view.get (.record s.body.tx) = none ∧ w.view.get (.writerAddress s.body.iw) = none ∧
      ∃ oldWk, AdminIs env w oldWk s.requester.publicKey ∧ oldWk ∈ w.base.indexers := by
  refine Exec.wp_of_error (Q := fun _ _ => True) (E := fun e _ => e = Exit.ignore → _) ?_ h rfl
  simp [handleApplyAdminRecoveryOperation, hverified, verifyValidity, validatorEntryApply,
    requireNotApplied, rewardFee]
  intro hunregistered _ _ entry hentry hpublicKey hfresh hold _ _ buffer _
  have hrequester := party_eq_ok.mp (verifyRoleAccess_eq_ok.mp hverified).2.2.requester
  obtain ⟨stored, hstored, hdec⟩ := Option.bind_eq_some_iff.mp hentry
  cases chargeFee buffer Exit.ignore with
  | ok _ => trivial
  | error _ =>
    exact fun _ => ⟨hfresh, hunregistered, entry.wk,
      ⟨⟨stored, entry.address, hstored, hdec, hpublicKey.symm⟩, hrequester.2.2⟩,
      of_decide_eq_true hold⟩

theorem AddWriterStep.raceSafe (e : AddWriterStep env w node op) : RaceSafe env w op .addWriter :=
  .addWriter e.check (party_eq_ok.mp e.completed.verified.requester).1 e.completed.requester e.role
    e.key (.inr ⟨by have := e.charged; omega, e.count_lt⟩)

theorem AddWriterStep.spared_iff (e : AddWriterStep env w node op) (hw : Visited env w)
    (h : Overtaken env w w' node e.s.validator.address v) :
    Spared (handler env .addWriter op node) w' ↔ RaceSafe env w' op .addWriter := by
  have hw' := h.wellFormed hw.wellFormed
  have hrequester := (party_eq_ok.mp e.completed.verified.requester).1
  have hverified := verifyRoleAccess_eq_ok.mpr ⟨e.check, fun _ => e.nonzero, e.completed.verified⟩
  obtain ⟨hcurrent, hvalidator⟩ := h.exec hw.wellFormed e.completed.current
  by_cases hp : w'.view.Present (.record e.s.body.tx)
  · refine iff_of_true (.of_ignore ?_) (.recorded (by decide) (roleAccess_tx e.check) hp)
    simp only [handler, handleApplyAddWriterOperation, Exec.exec_bind, Exec.exec_liftM, hverified,
      hcurrent, hvalidator, requireNotApplied_ignore hp]
  have hadmitted := h.admitted e.completed.current (Option.not_isSome_iff_eq_none.mp hp)
  obtain ⟨-, -, hfresh⟩ := hadmitted.exec hw'
  constructor
  · intro hspared
    obtain ⟨w₁, hok⟩ | ⟨w₁, hignore⟩ := hspared.ok_or_ignore
    · obtain ⟨e', -⟩ := (handleApplyAddWriterOperation_ok hw').mp hok
      exact e'.raceSafe
    · obtain ⟨r, hr⟩ := h.exists_has hw.wellFormed e.completed.requester
      simp only [handler, handleApplyAddWriterOperation, Exec.exec_bind, Exec.exec_liftM,
        hverified, hcurrent, hvalidator, hfresh] at hignore
      obtain ⟨hrole, hkey, hlt⟩ := addWriter_ignored hr hignore
      exact .addWriter e.check hrequester hr hrole hkey (.inl hlt)
  · intro hsafe
    cases hsafe with
    | recorded hne htx hrecorded =>
      cases htx.symm.trans (roleAccess_tx e.check)
      exact absurd hrecorded hp
    | @addWriter _ _ _ _ r hcheck hrequester' hr hrole hkey hfunds =>
      obtain ⟨rfl, rfl⟩ := roleAccess_unique e.check hcheck
      obtain rfl := party_unique e.completed.verified.requester hrequester'
      obtain hlt | ⟨hle, hcount⟩ := hfunds
      · refine .of_ignore ?_
        simp only [handler, handleApplyAddWriterOperation, Exec.exec_bind, Exec.exec_liftM,
          hverified, hcurrent, hvalidator, hfresh, addWriter_ignore hr hrole hkey hlt]
      · obtain ⟨vb, hvb⟩ := h.exists_rewarded hw
        obtain ⟨rb, hrb⟩ := exists_balance
          (n := r.balance.toNat - (balanceFee.toNat + balanceToStake.toNat))
          (Nat.lt_of_le_of_lt (Nat.sub_le _ _) r.balance.toNat_lt)
        obtain ⟨n, next, hcounts⟩ := (h.decodes hw).ready hcount
        let e' : AddWriterStep env w' node op := {
          s := e.s, r, v, rb, vb
          length := n
          next
          check := e.check
          completed := hadmitted.completed e.completed.verified hr
          nonzero := e.nonzero
          length_iw := e.length_iw
          role := hrole
          key := hkey
          charged := by rw [hrb]; omega
          rewarded := hvb
          counts := hcounts }
        exact .of_ok ((handleApplyAddWriterOperation_ok hw').mpr ⟨e', rfl⟩)

theorem RemoveWriterStep.raceSafe (e : RemoveWriterStep env w node op) :
    RaceSafe env w op .removeWriter :=
  .removeWriter e.check (party_eq_ok.mp e.completed.verified.requester).1 e.completed.requester
    e.role e.wk (e.wk ▸ e.key)

theorem RemoveWriterStep.spared_iff (e : RemoveWriterStep env w node op) (hw : Visited env w)
    (h : Overtaken env w w' node e.s.validator.address v) :
    Spared (handler env .removeWriter op node) w' ↔ RaceSafe env w' op .removeWriter := by
  have hw' := h.wellFormed hw.wellFormed
  have hrequester := (party_eq_ok.mp e.completed.verified.requester).1
  have hverified : verifyRoleAccess env .removeWriter op = .ok e.s :=
    verifyRoleAccess_eq_ok.mpr ⟨e.check, (fun htype => by cases htype), e.completed.verified⟩
  obtain ⟨hcurrent, hvalidator⟩ := h.exec hw.wellFormed e.completed.current
  by_cases hp : w'.view.Present (.record e.s.body.tx)
  · refine iff_of_true (.of_ignore ?_) (.recorded (by decide) (roleAccess_tx e.check) hp)
    simp only [handler, handleApplyRemoveWriterOperation, Exec.exec_bind, Exec.exec_liftM,
      hverified, hcurrent, hvalidator, requireNotApplied_ignore hp]
  have hadmitted := h.admitted e.completed.current (Option.not_isSome_iff_eq_none.mp hp)
  obtain ⟨-, -, hfresh⟩ := hadmitted.exec hw'
  constructor
  · intro hspared
    obtain ⟨w₁, hok⟩ | ⟨w₁, hignore⟩ := hspared.ok_or_ignore
    · obtain ⟨e', -⟩ := (handleApplyRemoveWriterOperation_ok hw').mp hok
      exact e'.raceSafe
    · obtain ⟨r, hr⟩ := h.exists_has hw.wellFormed e.completed.requester
      simp only [handler, handleApplyRemoveWriterOperation, Exec.exec_bind, Exec.exec_liftM,
        hverified, hcurrent, hvalidator, hfresh] at hignore
      obtain ⟨hrole, hwk, hkey⟩ := removeWriter_ignored hr hignore
      exact .removeWriter e.check hrequester hr hrole hwk hkey
  · intro hsafe
    cases hsafe with
    | recorded hne htx hrecorded =>
      cases htx.symm.trans (roleAccess_tx e.check)
      exact absurd hrecorded hp
    | @removeWriter _ _ _ _ r hcheck hrequester' hr hrole hwk hkey =>
      obtain ⟨rfl, rfl⟩ := roleAccess_unique e.check hcheck
      obtain rfl := party_unique e.completed.verified.requester hrequester'
      by_cases hlt : r.balance.toNat < balanceFee.toNat
      · refine .of_ignore ?_
        simp only [handler, handleApplyRemoveWriterOperation, Exec.exec_bind, Exec.exec_liftM,
          hverified, hcurrent, hvalidator, hfresh, removeWriter_ignore hr hrole hwk hkey hlt]
      · have hstaked : r.stakedBalance = balanceToStake := by
          rw [h.staked hw _ _ hr, hrole]
          rfl
        have hpos : 0 < r.stakedBalance.toNat := by
          rw [hstaked, toNat_balanceToStake]
          decide
        obtain ⟨vb, hvb⟩ := h.exists_rewarded hw
        have hsum := View.le_total hr
        have htotal := h.total
        rw [World.total] at htotal
        rw [Account.total] at hsum
        obtain ⟨rb, hrb⟩ := exists_balance
          (n := r.balance.toNat + r.stakedBalance.toNat - balanceFee.toNat) (by omega)
        let e' : RemoveWriterStep env w' node op := {
          s := e.s, r, v, rb, vb
          check := e.check
          completed := hadmitted.completed e.completed.verified hr
          role := hrole
          wk := hwk
          key := hwk ▸ hkey
          staked := hpos
          affordable := Nat.not_lt.mp hlt
          charged := by rw [hrb]; omega
          rewarded := hvb }
        exact .of_ok ((handleApplyRemoveWriterOperation_ok hw').mpr ⟨e', rfl⟩)

theorem AdminRecoveryStep.raceSafe (e : AdminRecoveryStep env w node op) :
    RaceSafe env w op .adminRecovery :=
  .adminRecovery e.check e.completed.verified.requester e.completed.fresh e.unregistered e.admin
    e.old_mem

theorem AdminRecoveryStep.spared_iff (e : AdminRecoveryStep env w node op) (hw : Visited env w)
    (h : Overtaken env w w' node e.s.validator.address v) :
    Spared (handler env .adminRecovery op node) w' ↔ RaceSafe env w' op .adminRecovery := by
  have hw' := h.wellFormed hw.wellFormed
  have hverified : verifyRoleAccess env .adminRecovery op = .ok e.s :=
    verifyRoleAccess_eq_ok.mpr ⟨e.check, (fun htype => by cases htype), e.completed.verified⟩
  obtain ⟨hcurrent, hvalidator⟩ := h.exec hw.wellFormed e.completed.current
  constructor
  · intro hspared
    obtain ⟨w₁, hok⟩ | ⟨w₁, hignore⟩ := hspared.ok_or_ignore
    · obtain ⟨e', -⟩ := (handleApplyAdminRecoveryOperation_ok hw').mp hok
      exact e'.raceSafe
    · obtain ⟨hfresh, hunregistered, oldWk, hadmin, hold⟩ := adminRecovery_ignored hverified hignore
      exact .adminRecovery e.check e.completed.verified.requester hfresh hunregistered hadmin hold
  · intro hsafe
    cases hsafe with
    | recorded hne => exact absurd rfl hne
    | @adminRecovery _ _ _ requester oldWk hcheck hsigner hfresh hunregistered hadmin hold =>
      obtain ⟨rfl, rfl⟩ := roleAccess_unique e.check hcheck
      cases hsigner.symm.trans e.completed.verified.requester
      have hadmitted := h.admitted e.completed.current hfresh
      have hnew : (requireNotApplied .failure e.s.body.tx).exec w' = (.ok (), w') :=
        requireNotApplied_ok.mpr ⟨hfresh, rfl⟩
      obtain ⟨r, hr⟩ := h.exists_has hw.wellFormed e.completed.requester
      obtain ⟨⟨buffer, string, hbuf, hdec, hpk⟩, hpk_ne⟩ := hadmin
      have hnotMem : e.s.body.iw ∉ w'.base.indexers := h.indexers ▸ e.new_notMem
      by_cases hlt : r.balance.toNat < balanceFee.toNat
      · refine .of_ignore ?_
        have hget : w'.view.get (.account e.s.requester.address) = some r.toBuffer := hr
        have hreq := party_eq_ok.mp e.completed.verified.requester
        have hne : e.s.body.iw ≠ [] := ne_nil_of_length e.length_iw
        have hcharge : chargeFee { r with wk := e.s.body.iw, length_wk := e.length_iw }.toBuffer
            .ignore = .error .ignore := chargeFee_eq_error hlt
        simp [handler, handleApplyAdminRecoveryOperation, Exec.exec_bind, hverified, hcurrent,
          hvalidator, hnew, getEntryApply, require, orExit, hunregistered, hbuf, hdec, hpk, hget,
          isWriterKeyInIndexerListApply, hold, hnotMem, AdminEntry.encode_eq hreq.1 e.length_iw,
          Account.setWritingKey_toBuffer _ e.length_iw, hcharge, hne]
      · obtain ⟨vb, hvb⟩ := h.exists_rewarded hw
        obtain ⟨rb, hrb⟩ := exists_balance (n := r.balance.toNat - balanceFee.toNat)
          (Nat.lt_of_le_of_lt (Nat.sub_le _ _) r.balance.toNat_lt)
        let e' : AdminRecoveryStep env w' node op := {
          s := e.s, r, v, rb, vb, oldWk
          check := e.check
          completed := hadmitted.completed e.completed.verified hr
          length_iw := e.length_iw
          admin := ⟨⟨buffer, string, hbuf, hdec, hpk⟩, hpk_ne⟩
          unregistered := hunregistered
          old_mem := hold
          new_notMem := hnotMem
          charged := by rw [hrb]; omega
          rewarded := hvb }
        exact .of_ok ((handleApplyAdminRecoveryOperation_ok hw').mpr ⟨e', rfl⟩)

/-! ### Every completed operation -/

section Completion

variable {address : Buffer} {c : Completion Buffer}

theorem completion_roleAccess {o : RoleAccessOperation Buffer}
    (h : Check.validateRoleAccessOperation env op = some (address, o, some c)) :
    op.completion = some c.toField := by
  obtain ⟨-, -, ⟨f, hv, hf⟩, -⟩ := Check.validateRoleAccessOperation_eq_some.mp h
  rw [Operation.completion, hv, (Check.completion_eq_some.mp hf).1]

theorem completion_bootstrapDeployment {o : BootstrapDeploymentOperation Buffer}
    (h : Check.validateBootstrapDeploymentOperation env op = some (address, o, some c)) :
    op.completion = some c.toField := by
  obtain ⟨-, -, ⟨f, hv, hf⟩, -⟩ := Check.validateBootstrapDeploymentOperation_eq_some.mp h
  rw [Operation.completion, hv, (Check.completion_eq_some.mp hf).1]

theorem completion_tx {o : TxOperation Buffer}
    (h : Check.validateTransactionOperation env op = some (address, o, some c)) :
    op.completion = some c.toField := by
  obtain ⟨-, -, ⟨f, hv, hf⟩, -⟩ := Check.validateTransactionOperation_eq_some.mp h
  rw [Operation.completion, hv, (Check.completion_eq_some.mp hf).1]

theorem completion_transfer {o : TransferOperation Buffer}
    (h : Check.validateTransferOperation env op = some (address, o, some c)) :
    op.completion = some c.toField := by
  obtain ⟨-, -, ⟨f, hv, hf⟩, -⟩ := Check.validateTransferOperation_eq_some.mp h
  rw [Operation.completion, hv, (Check.completion_eq_some.mp hf).1]

theorem Completed.validator_eq {α : Type} {args : List MessagePart}
    {txv tx in_ is : Buffer} {s : Signed α} {r v : Account}
    (h : Completed env w node type args txv tx in_ is s r v)
    (hc : op.completion = some s.completion.toField)
    (hv : op.validator env = some validator) : validator = s.validator.address := by
  rw [Operation.validator, hc, Option.bind_some] at hv
  exact party_unique h.verified.validator hv

end Completion

theorem OperationStep.spared_iff (e : OperationStep env w node op type) (hw : Visited env w)
    (htype : type.IsCompleted) (hvalidator : op.validator env = some validator)
    (h : Overtaken env w w' node validator v) :
    Spared (handler env type op node) w' ↔ RaceSafe env w' op type := by
  cases type with
  | addWriter =>
    obtain rfl := Completed.validator_eq e.completed (completion_roleAccess e.check) hvalidator
    exact AddWriterStep.spared_iff e hw h
  | removeWriter =>
    obtain rfl := Completed.validator_eq e.completed (completion_roleAccess e.check) hvalidator
    exact RemoveWriterStep.spared_iff e hw h
  | adminRecovery =>
    obtain rfl := Completed.validator_eq e.completed (completion_roleAccess e.check) hvalidator
    exact AdminRecoveryStep.spared_iff e hw h
  | bootstrapDeployment =>
    obtain rfl :=
      Completed.validator_eq e.completed (completion_bootstrapDeployment e.check) hvalidator
    exact iff_of_true (BootstrapDeploymentStep.spared e hw h) .bootstrapDeployment
  | tx =>
    obtain rfl := Completed.validator_eq e.completed (completion_tx e.check) hvalidator
    exact iff_of_true (TxStep.spared e hw h) .tx
  | transfer =>
    obtain rfl := Completed.validator_eq e.completed (completion_transfer e.check) hvalidator
    exact TransferStep.spared_iff e hw h
  | _ => exact absurd htype id

/-- Whatever comes in between, a deployment, a transaction or a transfer between two accounts that
was valid when its validator completed it succeeds or is ignored. -/
theorem value_race_safe (hw : Visited env w) (hdec : decodeNode env node = some (type, op))
    (htype : type ∈ [OperationType.bootstrapDeployment, .tx, .transfer])
    (hfree : type = .transfer → op.AliasFree)
    (hsuccess : applyNode env node w = some (.success, w₁))
    (hvalidator : op.validator env = some validator) (h : Overtaken env w w' node validator v) :
    ∃ status w₂, applyNode env node w' = some (status, w₂) ∧ status ≠ .failure := by
  obtain ⟨_, _, hdec', e, -⟩ := (applyNode_eq_success hw.wellFormed).mp hsuccess
  cases hdec.symm.trans hdec'
  simp only [applyNode, hdec]
  have hsafe : type.IsCompleted ∧ RaceSafe env w' op type := by
    cases type with
    | bootstrapDeployment => exact ⟨trivial, .bootstrapDeployment⟩
    | tx => exact ⟨trivial, .tx⟩
    | transfer => exact ⟨trivial, TransferStep.raceSafe_of_aliasFree e (hfree rfl) h.total⟩
    | _ => simp at htype
  exact (e.spared_iff hw hsafe.1 hvalidator h).mpr hsafe.2

namespace Sample

/-- The deployment of Alice comes before the transfer that she has asked for. -/
def overtaken : World :=
  (applyNode network (block bootstrap deployOp) funded).elim funded Prod.snd

theorem overtaken_facts :
    decodeNode network (block bootstrap payAdminOp) = some (.transfer, payAdminOp) ∧
    (applyNode network (block bootstrap payAdminOp) funded).map Prod.fst = some .success ∧
    payAdminOp.validator network = some admin ∧ payAdminOp.AliasFree ∧
    (applyNode network (block bootstrap deployOp) funded).map Prod.fst = some .success ∧
    overtaken.base.indexers = funded.base.indexers ∧ overtaken.total < 2 ^ 128 ∧
    isValidatorValidApply (overtaken.view.get (.account admin)) (block bootstrap payAdminOp) := by
  decide +kernel

theorem value_race_safe_payAdmin :
    ∃ status w₂, applyNode network (block bootstrap payAdminOp) overtaken = some (status, w₂) ∧
      status ≠ .failure := by
  obtain ⟨hdec, hsuccess, hvalidator, hfree, hdeploy, hindexers, htotal, hvalid⟩ := overtaken_facts
  obtain ⟨w₁, hsuccess⟩ := exists_applyNode hsuccess
  obtain ⟨w', happly⟩ := exists_applyNode hdeploy
  obtain rfl : overtaken = w' := by rw [overtaken, happly]; rfl
  have hinterleaved : Interleaved network funded overtaken := .block .refl happly
  obtain ⟨v, hv, hactive, hauthor⟩ :=
    exists_validator (hinterleaved.wellFormed reachable_funded.wellFormed) hvalid
  exact value_race_safe reachable_funded.visited hdec (by simp) (fun _ => hfree) hsuccess hvalidator
    ⟨hinterleaved, hindexers, hv, hactive, hauthor, htotal⟩

end Sample

/-- A block that was valid when its validator completed it succeeds or is ignored after blocks and
penalties that come in between exactly when they left its operation what it needs. -/
theorem race_safe_iff (hw : Visited env w) (hdec : decodeNode env node = some (type, op))
    (htype : type.IsCompleted) (hsuccess : applyNode env node w = some (.success, w₁))
    (hvalidator : op.validator env = some validator) (h : Overtaken env w w' node validator v) :
    (∃ status w₂, applyNode env node w' = some (status, w₂) ∧ status ≠ .failure) ↔
      RaceSafe env w' op type := by
  obtain ⟨_, _, hdec', e, -⟩ := (applyNode_eq_success hw.wellFormed).mp hsuccess
  cases hdec.symm.trans hdec'
  simp only [applyNode, hdec]
  exact e.spared_iff hw htype hvalidator h

namespace Sample

/-- Bob is a writer, after the first of his two requests. -/
def bobAdded : World :=
  (applyNode network (block aliceCore addBobOp) invited).elim invited Prod.snd

theorem bobAdded_facts :
    (applyNode network (block aliceCore addBobOp) invited).map Prod.fst = some .success ∧
    decodeNode network (block aliceCore addBobOp) = some (.addWriter, addBobOp) ∧
    addBobOp.requester network ≠ invited.adminAddress network ∧
    decodeNode network (block aliceCore addBobAgainOp) = some (.addWriter, addBobAgainOp) ∧
    (applyNode network (block aliceCore addBobAgainOp) invited).map Prod.fst = some .success ∧
    addBobAgainOp.validator network = some alice ∧
    bobAdded.base.indexers = invited.base.indexers ∧ invited.total < 2 ^ 128 ∧
    bobAdded.total < 2 ^ 128 ∧
    isValidatorValidApply (invited.view.get (.account alice)) (block aliceCore addBobAgainOp) ∧
    isValidatorValidApply (bobAdded.view.get (.account alice)) (block aliceCore addBobAgainOp) ∧
    (invited.view.get (.account alice)).map (List.headD · 0) = some NodeRole.writer.byte ∧
    (bobAdded.view.get (.account alice)).map (List.headD · 0) = some NodeRole.writer.byte ∧
    (applyNode network (block aliceCore addBobAgainOp) bobAdded).map Prod.fst =
      some .failure := by
  decide +kernel

theorem role_of_headD {w : World} {s : Str} {a : Account} {role : NodeRole} (ha : w.Has s a)
    (h : (w.view.get (.account s)).map (List.headD · 0) = some role.byte) : a.role = role := by
  have ha : w.view.get (.account s) = some a.toBuffer := ha
  rw [ha] at h
  exact NodeRole.byte_injective (Option.some.inj h)

theorem stays_of_headD {w w' : World} {node : Node} {s : Str} (hw : w'.WellFormed)
    (hindexers : w'.base.indexers = w.base.indexers) (htotal : w'.total < 2 ^ 128)
    (hvalid : isValidatorValidApply (w'.view.get (.account s)) node)
    (hrole : (w'.view.get (.account s)).map (List.headD · 0) = some NodeRole.writer.byte) :
    Stays w w' node s := by
  obtain ⟨v, hv, -, hauthor⟩ := exists_validator hw hvalid
  exact ⟨hindexers, ⟨v, hv, role_of_headD hv hrole, hauthor⟩, htotal⟩

theorem raced_bobAdded :
    Raced network invited (block aliceCore addBobAgainOp) alice bobAdded := by
  obtain ⟨hfirst, hdec, hrequester, -, -, -, hindexers, hbefore, hafter, hvalid, hvalid', hwriter,
    hwriter', -⟩ := bobAdded_facts
  obtain ⟨w', happly⟩ := exists_applyNode hfirst
  obtain rfl : bobAdded = w' := by rw [bobAdded, happly]; rfl
  have hw : invited.WellFormed := reachable_invited.wellFormed
  have hw' : bobAdded.WellFormed := (Interleaved.refl.block happly).wellFormed hw
  exact .block (.refl (stays_of_headD hw rfl hbefore hvalid hwriter)) hdec trivial hrequester happly
    (stays_of_headD hw' hindexers hafter hvalid' hwriter')

/-- Bob asks twice to be a writer, and Alice completes both requests. -/
theorem race_safe_iff_addBobAgain :
    (∃ status w₂, applyNode network (block aliceCore addBobAgainOp) bobAdded = some (status, w₂) ∧
      status ≠ .failure) ↔ RaceSafe network bobAdded addBobAgainOp .addWriter := by
  obtain ⟨-, -, -, hdec, hsuccess, hvalidator, -⟩ := bobAdded_facts
  obtain ⟨w₁, hsuccess⟩ := exists_applyNode hsuccess
  obtain ⟨v, hovertaken⟩ := raced_bobAdded.stays.overtaken raced_bobAdded.interleaved
  exact race_safe_iff reachable_invited.visited hdec trivial hsuccess hvalidator hovertaken

/-- The second request fails, and Alice loses her stake. -/
theorem not_racesHarmless_addBobAgain : ¬RacesHarmless network := by
  intro h
  obtain ⟨-, -, -, hdec, hsuccess, hvalidator, -, -, -, -, -, -, -, hfailure⟩ := bobAdded_facts
  obtain ⟨w₁, hsuccess⟩ := exists_applyNode hsuccess
  obtain ⟨status, w₂, happly, hne⟩ := h invited bobAdded w₁ _ _ _ alice
    reachable_invited.visited hdec trivial hvalidator hsuccess raced_bobAdded
  rw [happly] at hfailure
  exact hne (Option.some.inj hfailure)

end Sample

end SettlementBus
