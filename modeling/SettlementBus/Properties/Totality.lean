import SettlementBus.Invariants.Counter
import SettlementBus.Properties.Transfer

/-! Exceptions of `#apply`. -/

namespace SettlementBus

open Lib View

variable {env : Env} {w w' : World} {node : Node} {op : Operation} {type : OperationType}
  {nodes : List Node}

/-! ### Checks that do not throw -/

section Checks

variable {α : Type} {Q : α → Prop} {x : Except Exit α}

/-- A check that does not throw, so that only its results matter. -/
theorem wpe_total (h : wpe x (fun _ => True) (fun e => ¬e = .thrown)) :
    wpe x Q (fun e => ¬e = .thrown) ↔ ∀ a, x = .ok a → Q a := by
  cases x with
  | error e => exact iff_of_true h (fun _ h => by cases h)
  | ok a => exact ⟨fun hQ _ h => Except.ok.inj h ▸ hQ, fun h => h a rfl⟩

variable {Q : Party → Prop} {address : Buffer}

@[simp] theorem wpe_party : wpe (party env address) Q (fun e => ¬e = .thrown) ↔
    ∀ p, party env address = .ok p → Q p := wpe_total (by simp [party])

@[simp] theorem wpe_verifyRequester {Q : Unit → Prop} {args : List MessagePart}
    {tx is publicKey : Buffer} :
    wpe (verifyRequester env args tx is publicKey) Q (fun e => ¬e = .thrown) ↔
      ∀ u, verifyRequester env args tx is publicKey = .ok u → Q u :=
  wpe_total (by simp [verifyRequester, messageHash])

@[simp] theorem wpe_verifyRoleAccess {Q : Signed (RoleAccessOperation Buffer) → Prop} :
    wpe (verifyRoleAccess env type op) Q (fun e => ¬e = .thrown) ↔
      ∀ s, verifyRoleAccess env type op = .ok s → Q s :=
  wpe_total (by simp [verifyRoleAccess, distinctSigners, verifyValidator, messageHash])

@[simp] theorem wpe_verifyBootstrapDeployment
    {Q : Signed (BootstrapDeploymentOperation Buffer) → Prop} :
    wpe (verifyBootstrapDeployment env op) Q (fun e => ¬e = .thrown) ↔
      ∀ s, verifyBootstrapDeployment env op = .ok s → Q s :=
  wpe_total (by simp [verifyBootstrapDeployment, distinctSigners, verifyValidator, messageHash])

@[simp] theorem wpe_verifyTx {Q : Signed (TxOperation Buffer) → Prop} :
    wpe (verifyTx env op) Q (fun e => ¬e = .thrown) ↔ ∀ s, verifyTx env op = .ok s → Q s :=
  wpe_total (by simp [verifyTx, distinctSigners, verifyValidator, messageHash])

@[simp] theorem wpe_verifyTransfer {Q : Signed (TransferOperation Buffer) → Prop} :
    wpe (verifyTransfer env op) Q (fun e => ¬e = .thrown) ↔
      ∀ s, verifyTransfer env op = .ok s → Q s :=
  wpe_total (by simp [verifyTransfer, distinctSigners, verifyValidator, messageHash])

variable {Q : Buffer → Prop} {entry : Buffer}

@[simp] theorem wpe_chargeFee_failure :
    wpe (chargeFee entry .failure) Q (fun e => ¬e = .thrown) ↔
      ∀ b, chargeFee entry .failure = .ok b → Q b := wpe_total (by simp [chargeFee])

@[simp] theorem wpe_chargeFee_ignore :
    wpe (chargeFee entry .ignore) Q (fun e => ¬e = .thrown) ↔
      ∀ b, chargeFee entry .ignore = .ok b → Q b := wpe_total (by simp [chargeFee])

@[simp] theorem wpe_rewardFee75 : wpe (rewardFee entry percent75) Q (fun e => ¬e = .thrown) ↔
    ∀ b, rewardFee entry percent75 = .ok b → Q b := wpe_total (by simp [rewardFee])

@[simp] theorem wpe_rewardFee50 : wpe (rewardFee entry percent50) Q (fun e => ¬e = .thrown) ↔
    ∀ b, rewardFee entry percent50 = .ok b → Q b := wpe_total (by simp [rewardFee])

@[simp] theorem wpe_rewardFee25 : wpe (rewardFee entry percent25) Q (fun e => ¬e = .thrown) ↔
    ∀ b, rewardFee entry percent25 = .ok b → Q b := wpe_total (by simp [rewardFee])

end Checks

/-- The handler does not throw. -/
abbrev Total (x : Apply Unit) (w : World) : Prop :=
  x.wp (fun _ _ => True) (fun e _ => ¬e = .thrown) w

theorem runHandler_eq_none {x : Apply Unit} : runHandler x w = none ↔ ¬Total x w := by
  unfold runHandler Total Exec.wp
  rcases x.exec w with ⟨e | u, w'⟩
  · cases e <;> simp
  · simp

theorem total_initializeBalance : Total (handleApplyInitializeBalanceOperation env op node) w := by
  simp [Total, handleApplyInitializeBalanceOperation, isApplyInitalizationDisabled,
    requireAdmin, verifyValidity, requireNotApplied]
  intro _ _ _ _ _ recipient _ _ _ _ _ _ _ _ _ _ _ _
  cases Store.get w.view (.account recipient.address) <;> simp [initializedEntry]

theorem total_disableInitialization :
    Total (handleApplyDisableBalanceInitializationOperation env op node) w := by
  simp [Total, handleApplyDisableBalanceInitializationOperation, isApplyInitalizationDisabled,
    requireAdmin, verifyValidity, requireNotApplied]

theorem total_addIndexer : Total (handleApplyAddIndexerOperation env op node) w := by
  simp [Total, handleApplyAddIndexerOperation, addIndexer, requireAdmin, verifyValidity,
    requireNotApplied]

theorem total_banValidator : Total (handleApplyBanValidatorOperation env op node) w := by
  simp [Total, handleApplyBanValidatorOperation, putBanned, requireAdmin, verifyValidity,
    requireNotApplied]

theorem total_adminRecovery : Total (handleApplyAdminRecoveryOperation env op node) w := by
  simp [Total, handleApplyAdminRecoveryOperation, validatorEntryApply, verifyValidity,
    requireNotApplied]

theorem total_removeWriter : Total (handleApplyRemoveWriterOperation env op node) w := by
  simp [Total, handleApplyRemoveWriterOperation, removeWriter, validatorEntryApply, verifyValidity,
    requireNotApplied]

theorem total_bootstrapDeployment :
    Total (handleApplyBootstrapDeploymentOperation env op node) w := by
  simp [Total, handleApplyBootstrapDeploymentOperation, validatorEntryApply, verifyValidity,
    requireNotApplied]

theorem total_tx : Total (handleApplyTxOperation env op node) w := by
  simp [Total, handleApplyTxOperation, transferFeeTxOperation, validatorEntryApply, verifyValidity,
    requireNotApplied]

/-! ### Handlers that count -/

/-- The counter can be read and has a next number. -/
def Counter.Ready (c : Counter) (w : World) : Prop :=
  ∃ n next, Counts (w.view.get c.length) n next

theorem ready_writers (h : writersCounter.Ready w) : ∃ n next,
    LengthEntry.decodeBE ((Store.get w.view .writersLength).getD LengthEntry.init) = some n ∧
      LengthEntry.incrementBE n = some next := by
  obtain ⟨n, next, hdec, hinc⟩ := h
  exact ⟨n, next, hdec, hinc⟩

theorem ready_licenses (h : licenseCounter.Ready w) : ∃ n next,
    LengthEntry.decodeBE ((Store.get w.view .licenseCount).getD LengthEntry.init) = some n ∧
      LengthEntry.incrementBE n = some next ∧ LengthEntry.decodeBE next = some (n + 1) ∧
      next.length = licenseByteLength := by
  obtain ⟨n, next, hcounts⟩ := h
  exact ⟨n, next, hcounts.decode, hcounts.increment,
    LengthEntry.decodeBE_of_encodeBE hcounts.increment, hcounts.length_next⟩

theorem total_addWriter (h : writersCounter.Ready w) :
    Total (handleApplyAddWriterOperation env op node) w := by
  obtain ⟨n, next, hdec, hinc⟩ := ready_writers h
  simp [Total, handleApplyAddWriterOperation, addWriter, registerWriterKey, validatorEntryApply,
    verifyValidity, requireNotApplied, updateWritersIndex, Store.get_put, hdec, hinc]

theorem total_removeIndexer (h : writersCounter.Ready w) :
    Total (handleApplyRemoveIndexerOperation env op node) w := by
  obtain ⟨n, next, hdec, hinc⟩ := ready_writers h
  simp [Total, handleApplyRemoveIndexerOperation, removeIndexer, requireAdmin, verifyValidity,
    requireNotApplied, updateWritersIndex, hdec, hinc]

theorem total_addAdmin (h : writersCounter.Ready w) (hl : licenseCounter.Ready w) :
    Total (handleApplyAddAdminOperation env op node) w := by
  obtain ⟨n, next, hdec, hinc⟩ := ready_writers h
  obtain ⟨n', next', hdec', hinc', hnext, -⟩ := ready_licenses hl
  simp [Total, handleApplyAddAdminOperation, verifyValidity, requireNotApplied, updateWritersIndex,
    applyAssignNewLicense, Store.get_put, hdec, hinc, hdec', hinc', hnext]

theorem total_whitelistedEntry {address : Buffer} {entry : Option Buffer}
    (hentry : ∀ v, entry = some v → ∃ a : Account, v = a.toBuffer)
    (h : licenseCounter.Ready w) :
    (whitelistedEntry address entry).wp (fun _ _ => True) (fun e _ => ¬e = .thrown) w := by
  obtain ⟨n, next, hdec, hinc, hnext, hlen⟩ := ready_licenses h
  cases entry with
  | none => simp [whitelistedEntry, applyAssignNewLicense, hdec, hinc, hnext]
  | some v =>
    obtain ⟨a, rfl⟩ := hentry v rfl
    have hlicense := Account.setLicense_toBuffer { a with role := .whitelisted } hlen
    simp [whitelistedEntry, applyAssignNewLicense, hdec, hinc, hnext, hlicense]

theorem total_appendWhitelist (hw : w.WellFormed) (h : licenseCounter.Ready w) :
    Total (handleApplyAppendWhitelistOperation env op node) w := by
  have hentry : ∀ address v, Store.get w.view (.account address) = some v →
      ∃ a : Account, v = a.toBuffer := hw
  have hready : ∀ address entry, licenseCounter.Ready { w with
      view := w.view.put (.account address) entry } := by
    intro address entry
    simpa [Counter.Ready, licenseCounter, Store.get_put] using h
  simp [Total, handleApplyAppendWhitelistOperation, requireAdmin, verifyValidity, requireNotApplied,
    isApplyInitalizationDisabled, chargeWhitelistFee,
    total_whitelistedEntry (hentry _) h, total_whitelistedEntry (hentry _) (hready _ _)]

/-! ### Transfers -/

/-- A transfer to its validator whose sender can pay, with an amount that the validator's balance
cannot take. -/
def Overflows (env : Env) (w : World) (node : Node) (op : Operation) : Prop :=
  ∃ (t : TransferRequest env w node op) (r : Account), t.s.body.to_ = t.s.completion.va ∧
    w.Has t.sender r ∧ t.amount.toNat + balanceFee.toNat ≤ r.balance.toNat ∧
    2 ^ 128 ≤ t.v.balance.toNat + t.amount.toNat

theorem wpe_otherRecipientEntry {amount : Balance} {entry : Option Buffer} {isOther : Bool}
    {Q : Option Buffer → Prop} :
    wpe (otherRecipientEntry amount entry isOther) Q (fun e => ¬e = .thrown) ↔
      ∀ e, otherRecipientEntry amount entry isOther = .ok e → Q e := by
  apply wpe_total
  cases isOther with
  | false => simp [otherRecipientEntry]
  | true => cases entry <;> simp [otherRecipientEntry, creditedEntry]

theorem wpe_rewardedBalance {b amount : Balance} {isValidator : Bool}
    (h : isValidator → b.toNat + amount.toNat < 2 ^ 128) :
    wpe (rewardedBalance b amount reward75 isValidator) (fun _ => True)
      (fun e => ¬e = .thrown) := by
  cases isValidator with
  | false => simp [rewardedBalance]
  | true =>
    obtain ⟨c, hc, -⟩ := Balance.exists_add (h rfl)
    simp [rewardedBalance, hc]

theorem total_transfer (hw : w.WellFormed) (h : ¬Overflows env w node op) :
    Total (handleApplyTransferOperation env op node) w := by
  simp [Total, handleApplyTransferOperation, transfer, putRecipient, putRecipientAgain,
    verifyValidity, validatorEntryApply, requireNotApplied, wpe_otherRecipientEntry]
  intro s hver hcurrent hvalid hfresh p hparty vbuf hv amount ham d hd rbuf hr rentry hrentry rb hrb
    hge _ _ _ _ _ _ ventry hventry vb hvb
  refine wpe_rewardedBalance fun hval => ?_
  have hval : s.body.to_ = s.completion.va := of_decide_eq_true hval
  have hself : isSelfTransfer s.address s.body = false := by
    have hne := (verifyTransfer_eq_ok.mp hver).2.address_ne
    exact decide_eq_false (hval ▸ hne)
  rw [hself] at hd
  obtain ⟨v, rfl, hv⟩ := hw.has hv
  obtain ⟨r, rfl, hr⟩ := hw.has hr
  simp only [Account.decode_toBuffer, Option.some.injEq] at hventry hrentry
  subst hventry hrentry
  simp only [toBalance_value, Option.some.injEq] at hvb hrb
  subst hvb hrb
  have hgetv : Store.get w.view (.account s.validator.address) = some v.toBuffer := hv
  simp [hgetv, isValidatorValidApply] at hvalid
  let t : TransferRequest env w node op := {
    s, v, to_ := p
    verified := hver
    admitted := ⟨hcurrent, hv, hvalid.1, hvalid.2, hfresh⟩
    party_to := hparty }
  have hamount : t.amount = amount := Option.some.inj ((toBalance_value t.amount).symm.trans ham)
  rw [Balance.greaterThanOrEquals_iff, Balance.toNat_of_add hd] at hge
  by_contra hlt
  exact h ⟨t, r, hval, hr, hamount ▸ hge, hamount ▸ Nat.not_lt.mp hlt⟩

theorem transfer_thrown {sender recipient : Str} {r v : Account} {amount : Balance}
    (hr : w.Has sender r) (h : amount.toNat + balanceFee.toNat ≤ r.balance.toNat)
    (hv : 2 ^ 128 ≤ v.balance.toNat + amount.toNat) :
    (transfer sender recipient (some v.toBuffer) amount.value false true).exec w =
      (.error .thrown, w) := by
  have hr : w.view.get (.account sender) = some r.toBuffer := hr
  obtain ⟨d, hd, hdn⟩ := Balance.exists_add (h.trans_lt r.balance.toNat_lt)
  rw [← hdn, ← Balance.greaterThanOrEquals_iff] at h
  obtain ⟨rb, hrb, -⟩ := Balance.exists_sub (Balance.greaterThanOrEquals_iff.mp h)
  apply Exec.exec_eq_error
  simp [transfer, hd, hr, h, hrb, otherRecipientEntry, rewardedBalance, Balance.add_eq_none.mpr hv]

theorem Overflows.not_total (hw : w.WellFormed) (h : Overflows env w node op) :
    ¬Total (handleApplyTransferOperation env op node) w := by
  obtain ⟨t, r, hval, hr, hpays, hover⟩ := h
  have hself : isSelfTransfer t.s.address t.s.body = false := by
    have hne := (verifyTransfer_eq_ok.mp t.verified).2.address_ne
    exact decide_eq_false (hval ▸ hne)
  have hisValidator : isRecipientValidator t.s.body t.s.completion = true := decide_eq_true hval
  have hthrown := @transfer_thrown w t.sender t.recipient r t.v t.amount hr hpays hover
  have hexec := t.exec_eq_error hw (by rw [hself, hisValidator]; exact hthrown)
  intro htotal
  exact Exec.wp_of_error htotal hexec rfl

/-! ### The counters -/

namespace Counter

variable {c : Counter}

def Decodes (c : Counter) (w : World) : Prop :=
  (LengthEntry.decodeBE ((w.view.get c.length).getD LengthEntry.init)).isSome

theorem Same.decodes (h : c.Same w w') (hw : c.Decodes w) : c.Decodes w' := by
  rw [Decodes, h.length]
  exact hw

/-- A number that was counted up was written. -/
theorem Extended.decodes {address : Buffer} (h : c.Extended w address w') : c.Decodes w' := by
  have hlength := h.length
  rw [Counter.count, LengthEntry.count] at hlength
  rw [Decodes]
  cases hdec : LengthEntry.decodeBE ((w'.view.get c.length).getD LengthEntry.init) with
  | some n => rfl
  | none =>
    rw [hdec] at hlength
    cases hlength

theorem Decodes.ready (h : c.Decodes w) (hlt : c.count w < 2 ^ 32 - 1) : c.Ready w := by
  obtain ⟨n, hn⟩ := Option.isSome_iff_exists.mp h
  have hcount : c.count w = n := by rw [Counter.count, LengthEntry.count, hn, Option.getD_some]
  exact ⟨n, Bytes.ofNat 4 (n + 1), hn, if_pos (by omega)⟩

end Counter

/-- Both counts can still grow. -/
def World.CountsBelow (w : World) : Prop :=
  licenseCounter.count w < 2 ^ 32 - 1 ∧ writersCounter.count w < 2 ^ 32 - 1

theorem Event.Step.decodes {e : Event} (hs : e.Step env) (hw : e.before.WellFormed)
    (h : e.before.Founded env ∧ licenseCounter.Decodes e.before ∧ writersCounter.Decodes e.before) :
    e.after.Founded env ∧ licenseCounter.Decodes e.after ∧ writersCounter.Decodes e.after := by
  obtain ⟨hf, hlicenses, hwriters⟩ := h
  refine ⟨hs.founded hf, ?_, ?_⟩
  · cases hs.assigns hw hf with
    | same index => exact index.decodes hlicenses
    | assigned index => exact index.decodes
  · cases hs.appends hw with
    | same index => exact index.decodes hwriters
    | appended index => exact index.decodes

theorem Visited.decodes (h : Visited env w) :
    licenseCounter.Decodes w ∧ writersCounter.Decodes w :=
  (h.invariant (P := fun w => w.Founded env ∧ licenseCounter.Decodes w ∧ writersCounter.Decodes w)
    ⟨.inl rfl, rfl, rfl⟩ fun _ hs => hs.decodes).2

theorem Visited.ready (h : Visited env w) (hcounts : w.CountsBelow) :
    licenseCounter.Ready w ∧ writersCounter.Ready w :=
  ⟨h.decodes.1.ready hcounts.1, h.decodes.2.ready hcounts.2⟩

/-! ### Batches -/

theorem total_handler (hw : w.WellFormed)
    (hready : licenseCounter.Ready w ∧ writersCounter.Ready w) :
    Total (handler env type op node) w ↔ ¬(type = .transfer ∧ Overflows env w node op) := by
  by_cases htype : type = .transfer
  · subst htype
    exact ⟨fun h hover => hover.2.not_total hw h, fun h => total_transfer hw fun ho => h ⟨rfl, ho⟩⟩
  · refine iff_of_true ?_ fun h => htype h.1
    cases type with
    | balanceInitialization => exact total_initializeBalance
    | disableInitialization => exact total_disableInitialization
    | addAdmin => exact total_addAdmin hready.2 hready.1
    | appendWhitelist => exact total_appendWhitelist hw hready.1
    | addWriter => exact total_addWriter hready.2
    | removeWriter => exact total_removeWriter
    | adminRecovery => exact total_adminRecovery
    | addIndexer => exact total_addIndexer
    | removeIndexer => exact total_removeIndexer hready.2
    | banValidator => exact total_banValidator
    | bootstrapDeployment => exact total_bootstrapDeployment
    | tx => exact total_tx
    | transfer => exact absurd rfl htype

/-- The node holds a transfer that overflows the balance of its validator. -/
def Halts (env : Env) (w : World) (node : Node) : Prop :=
  ∃ op, decodeNode env node = some (.transfer, op) ∧ Overflows env w node op

theorem applyNode_eq_none (hw : Visited env w) (hcounts : w.CountsBelow) :
    applyNode env node w = none ↔ Halts env w node := by
  have hready := hw.ready hcounts
  cases hdec : decodeNode env node with
  | none => simp [applyNode, hdec, Halts]
  | some decoded =>
    obtain ⟨type, op⟩ := decoded
    simp only [applyNode, hdec, runHandler_eq_none, total_handler hw.wellFormed hready, not_not,
      Halts, Option.some.injEq, Prod.mk.injEq]
    constructor
    · rintro ⟨rfl, h⟩
      exact ⟨op, ⟨rfl, rfl⟩, h⟩
    · rintro ⟨_, ⟨rfl, rfl⟩, h⟩
      exact ⟨rfl, h⟩

theorem applyNodes_append {pre post : List Node} {n : ℕ}
    (h : applyNodes env pre w = some (n, w')) :
    applyNodes env (pre ++ post) w = (applyNodes env post w').map fun r => (n + r.1, r.2) := by
  induction pre generalizing w n with
  | nil =>
    cases h
    simp
  | cons node pre ih =>
    obtain ⟨status, w₁, m, hnode, hpre, rfl⟩ := applyNodes_cons.mp h
    rw [List.cons_append, applyNodes, hnode]
    simp only [Option.bind_eq_bind, Option.bind_some, ih hpre]
    cases applyNodes env post w' with
    | none => rfl
    | some r => simp [Nat.add_assoc]

theorem Visited.applyNodes {pre : List Node} {n : ℕ} (hw : Visited env w)
    (h : applyNodes env pre w = some (n, w')) : Visited env w' := by
  obtain @⟨w₀, _, before, m, hr, hnodes⟩ := hw
  have hsome : SettlementBus.applyNodes env (before ++ pre) w₀ = some (m + n, w') := by
    rw [applyNodes_append hnodes, h]
    rfl
  exact .mk hr hsome

/-- No node of the batch halts it when its turn comes. -/
def Runs (env : Env) (nodes : List Node) (w : World) : Prop :=
  ∀ pre node post n w', nodes = pre ++ node :: post → applyNodes env pre w = some (n, w') →
    ¬Halts env w' node

/-- The counts stay below their limit while the batch is applied. -/
def CountsStayBelow (env : Env) (nodes : List Node) (w : World) : Prop :=
  ∀ pre post n w', nodes = pre ++ post → applyNodes env pre w = some (n, w') → w'.CountsBelow

theorem applyNodes_cons_eq {status : Status} (h : applyNode env node w = some (status, w')) :
    (applyNodes env (node :: nodes) w).isSome = (applyNodes env nodes w').isSome := by
  simp only [applyNodes, h, Option.bind_eq_bind, Option.bind_some]
  cases applyNodes env nodes w' <;> rfl

theorem applyNodes_singleton {status : Status} (h : applyNode env node w = some (status, w')) :
    ∃ n, applyNodes env [node] w = some (n, w') := ⟨_, applyNodes_cons.mpr ⟨_, _, _, h, rfl, rfl⟩⟩

/-- What comes after a node is a batch of its own. -/
theorem applyNodes_isSome (hw : Visited env w) (hcounts : CountsStayBelow env nodes w) :
    (applyNodes env nodes w).isSome ↔ Runs env nodes w := by
  induction nodes generalizing w with
  | nil =>
    refine iff_of_true rfl fun pre node post n w' h => ?_
    cases pre <;> cases h
  | cons node nodes ih =>
    have hnone : applyNode env node w = none ↔ Halts env w node :=
      applyNode_eq_none hw (hcounts [] _ 0 w rfl rfl)
    cases hnode : applyNode env node w with
    | none =>
      refine iff_of_false ?_ fun h => ?_
      · rw [applyNodes, hnode]
        exact Bool.false_ne_true
      · exact h [] node nodes 0 w rfl rfl (hnone.mp hnode)
    | some r =>
      obtain ⟨status, w₁⟩ := r
      obtain ⟨n, hsingle⟩ := applyNodes_singleton hnode
      have hrest : CountsStayBelow env nodes w₁ := by
        rintro pre post m w' rfl h
        exact hcounts (node :: pre) post _ w' rfl
          (applyNodes_cons.mpr ⟨_, _, _, hnode, h, rfl⟩)
      rw [applyNodes_cons_eq hnode, ih (hw.applyNodes hsingle) hrest]
      constructor
      · intro h pre node' post m w' heq hpre
        cases pre with
        | nil =>
          cases heq
          cases hpre
          exact fun hhalts => by cases hnode.symm.trans (hnone.mpr hhalts)
        | cons first pre =>
          cases heq
          obtain ⟨status', w₂, m', hfirst, hpre, -⟩ := applyNodes_cons.mp hpre
          cases hnode.symm.trans hfirst
          exact h pre node' post m' w' rfl hpre
      · rintro h pre node' post m w' rfl hpre
        exact h (node :: pre) node' post _ w' rfl (applyNodes_cons.mpr ⟨_, _, _, hnode, hpre, rfl⟩)

/-- A batch is applied without an exception exactly when none of its nodes halts it. -/
theorem apply_isSome_iff (hw : Reachable env w) (hne : nodes ≠ [])
    (hcounts : CountsStayBelow env nodes w) :
    (apply env nodes w).isSome ↔ (nodes.length ≤ batchSize → Runs env nodes w) := by
  obtain ⟨first, rest, rfl⟩ := List.exists_cons_of_ne_nil hne
  by_cases hlen : batchSize < (first :: rest).length
  · rw [apply, if_pos hlen]
    exact iff_of_true rfl fun h => absurd h (Nat.not_le.mpr hlen)
  · rw [← applyNodes_isSome hw.visited hcounts, apply, if_neg hlen]
    cases applyNodes env (first :: rest) w with
    | none => exact iff_of_false (fun h => by cases h) fun h => by cases h (Nat.not_lt.mp hlen)
    | some r => exact iff_of_true rfl fun _ => rfl

namespace Sample

/-- The admin has as much as an entry holds. -/
def rich : World := network.after [block bootstrap fundAdminOp] funded

/-- Alice pays the admin, who validates the payment. -/
theorem rich_facts :
    (apply network [block bootstrap fundAdminOp] funded).isSome ∧
    licenseCounter.count rich < 2 ^ 32 - 1 ∧ writersCounter.count rich < 2 ^ 32 - 1 ∧
    applyNode network (block bootstrap payAdminOp) rich = none := by
  decide +kernel

theorem reachable_rich : Reachable network rich := reachable_funded.after rich_facts.1

theorem countsBelow_rich : rich.CountsBelow := ⟨rich_facts.2.1, rich_facts.2.2.1⟩

theorem applyNode_payAdmin_rich : applyNode network (block bootstrap payAdminOp) rich = none :=
  rich_facts.2.2.2

theorem countsStayBelow_rich : CountsStayBelow network [block bootstrap payAdminOp] rich := by
  rintro (_ | ⟨node, pre⟩) post n w' heq h
  · cases h
    exact countsBelow_rich
  · obtain ⟨rfl, -⟩ := List.cons.inj heq
    obtain ⟨status, w₁, m, hnode, -⟩ := applyNodes_cons.mp h
    cases applyNode_payAdmin_rich.symm.trans hnode

theorem apply_payAdmin_rich : apply network [block bootstrap payAdminOp] rich = none := by
  rw [apply, if_neg (by decide), applyNodes, applyNode_payAdmin_rich]
  rfl

theorem not_runs_rich : ¬Runs network [block bootstrap payAdminOp] rich := by
  intro h
  have hsome := (apply_isSome_iff reachable_rich (List.cons_ne_nil _ _) countsStayBelow_rich).mpr
    fun _ => h
  rw [apply_payAdmin_rich] at hsome
  cases hsome

/-- The payment throws. -/
theorem not_apply_isSome_rich : Reachable network rich ∧
    CountsStayBelow network [block bootstrap payAdminOp] rich ∧
    ¬(apply network [block bootstrap payAdminOp] rich).isSome := by
  refine ⟨reachable_rich, countsStayBelow_rich, ?_⟩
  rw [apply_payAdmin_rich]
  exact Bool.false_ne_true

end Sample

end SettlementBus
