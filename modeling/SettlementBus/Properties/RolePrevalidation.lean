import SettlementBus.Properties.Prevalidation
import SettlementBus.Properties.Stake
import SettlementBus.Properties.Totality

/-! What a validator accepts of role operations and what their handlers check besides. -/

namespace SettlementBus

open Lib View

variable {env : Env} {w w' : World} {node : Node} {op : Operation} {p : PartialPayload}
  {requester : Str} {validator : Party} {v r : Account} {c : Completion Buffer}
  {o : RoleAccessOperation Buffer}

/-- What the handler of a role operation checks and its pre-validation does not. -/
def RoleUnchecked (env : Env) (w : World) (p : PartialPayload) : Prop :=
  match p.type, p.body with
  | .addWriter, _ => writersCounter.count w < 2 ^ 32 - 1
  | .removeWriter, .rao o => (∃ r, w.Has (toAscii p.address) r ∧ r.wk = o.iw) ∧
      w.view.get (.writerAddress o.iw) = some p.address
  | .adminRecovery, .rao o => w.view.get (.writerAddress o.iw) = none ∧ o.iw ∉ w.base.indexers ∧
      ∃ entry, (w.view.get .admin).bind (AdminEntry.decode env) = some entry ∧
        entry.wk ∈ w.base.indexers
  | _, _ => False

/-- What the pre-validation of a role operation establishes. -/
structure RoleAccepted (env : Env) (w : World) (validator : Party) (op : Operation)
    (p : PartialPayload) (o : RoleAccessOperation Buffer) (requester : Str) (r : Account) :
    Prop where
  common : CommonValid env (.of w w) (some validator.address) op p requester
  body : p.body = .rao o
  mem : p.type ∈ [OperationType.addWriter, .removeWriter, .adminRecovery]
  check : Check.validateRoleAccessOperation env op = some (p.address, o, none)
  has : w.Has requester r
  fee : balanceFee.toNat ≤ r.balance.toNat
  addWriter : p.type = .addWriter → r.role = .whitelisted ∧
    balanceFee.toNat * 11 ≤ r.balance.toNat ∧ (w.view.get (.writerAddress o.iw) = none ∨
      r.wk = o.iw ∧ w.view.get (.writerAddress o.iw) = some p.address)
  removeWriter : p.type = .removeWriter → r.role = .writer
  adminRecovery : p.type = .adminRecovery → ∃ entry,
    (w.view.get .admin).bind (AdminEntry.decode env) = some entry ∧
      entry.address = some requester ∧ o.iw ≠ entry.wk

/-- A registered key is looked up as its address, unless it is not one. -/
theorem LocalState.getRegisteredWriterKey_eq {key address : Buffer} {s : Str}
    (haddress : bufferToAddress env address = some s) :
    (LocalState.of w' w).getRegisteredWriterKey env key = some address ↔
      w.view.get (.writerAddress key) = some address := by
  have hvalid : isAddressBufferValid env address := by
    obtain ⟨hvalid, rfl⟩ := bufferToAddress_eq_some.mp haddress
    exact hvalid
  have hne : nullBuffer ≠ address := by
    rintro rfl
    obtain ⟨-, ⟨x, hx, -⟩⟩ := nonzero_of_bufferToAddress haddress
    cases hx
  rw [LocalState.getRegisteredWriterKey, Option.map_eq_some_iff]
  constructor
  · rintro ⟨entry, hget, heq⟩
    split at heq
    · exact heq ▸ hget
    · exact absurd heq hne
  · intro hget
    exact ⟨address, hget, if_pos hvalid⟩

theorem LocalState.getRegisteredWriterKey_eq_none {key : Buffer} :
    (LocalState.of w' w).getRegisteredWriterKey env key = none ↔
      w.view.get (.writerAddress key) = none := by
  rw [LocalState.getRegisteredWriterKey, Option.map_eq_none_iff]
  rfl

theorem feeBigInt_eq : feeBigInt = balanceFee.toNat := rfl

theorem LocalState.exists_requireBalance (hw : w.WellFormed) {s : Str} {required : ℕ}
    {code : ResultCode} {u : Unit}
    (h : requireBalance ((LocalState.of w' w).getNodeEntryUnsigned s) required code = .ok u) :
    ∃ r, w.Has s r ∧ required ≤ r.balance.toNat := by
  obtain ⟨e, he, hle⟩ := requireBalance_eq_ok.mp h
  obtain ⟨r, hr, hbalance⟩ := LocalState.exists_has hw he
  exact ⟨r, hr, hbalance ▸ hle⟩

namespace PartialRoleAccess

/-- An entry is found under the address of an account only if it is the account's. -/
theorem getNodeEntry_eq {s : Str} (hr : w.Has s r) :
    (LocalState.of w w').getNodeEntry s = NodeEntry.decode r.toBuffer := by
  rw [LocalState.getNodeEntry, LocalState.getSigned,
    show (LocalState.of w w').signed.get (.account s) = some r.toBuffer from hr, Option.bind_some]

theorem validateWriterKey_eq_ok {u : Unit} (hr : w.Has requester r) (hbody : p.body = .rao o)
    (haddress : bufferToAddress env p.address = some requester) :
    validateWriterKey env (.of w w) p requester = .ok u ↔
      w.view.get (.writerAddress o.iw) = none ∨
        r.wk = o.iw ∧ w.view.get (.writerAddress o.iw) = some p.address := by
  simp [validateWriterKey, getNodeEntry_eq hr, rao, hbody,
    LocalState.getRegisteredWriterKey_eq haddress, LocalState.getRegisteredWriterKey_eq_none]

theorem isRequesterAllowedToChangeRole_addWriter {u : Unit} (hr : w.Has requester r)
    (htype : p.type = .addWriter) :
    isRequesterAllowedToChangeRole env (.of w w) p requester = .ok u ↔ r.role = .whitelisted := by
  simp [isRequesterAllowedToChangeRole, htype, getNodeEntry_eq hr]
  cases r.role <;> decide

theorem isRequesterAllowedToChangeRole_removeWriter {u : Unit} (hr : w.Has requester r)
    (htype : p.type = .removeWriter) :
    isRequesterAllowedToChangeRole env (.of w w) p requester = .ok u ↔ r.role = .writer := by
  simp [isRequesterAllowedToChangeRole, htype, getNodeEntry_eq hr]
  cases r.role <;> decide

theorem isRequesterAllowedToChangeRole_adminRecovery {u : Unit} (hbody : p.body = .rao o)
    (htype : p.type = .adminRecovery) :
    isRequesterAllowedToChangeRole env (.of w w') p requester = .ok u ↔
      ∃ entry, (w.view.get .admin).bind (AdminEntry.decode env) = some entry ∧
        entry.address = some requester ∧ o.iw ≠ entry.wk := by
  simp [isRequesterAllowedToChangeRole, htype, rao, hbody]
  rfl

/-- What `PartialRoleAccessValidator.validate` accepts. -/
theorem validate_eq_ok (hw : w.WellFormed)
    (h : validate env (.of w w) (some validator.address) op = .ok p) :
    ∃ o requester r, RoleAccepted env w validator op p o requester r := by
  simp only [validate, bind_eq_ok] at h
  obtain ⟨⟨p, requester⟩, hcommon, h⟩ := h
  have hp := validateCommon_eq_ok hcommon
  split at h
  case isTrue htype =>
    simp only [bind_eq_ok, pure_eq_ok] at h
    obtain ⟨_, hbalance, _, -, _, hkey, _, hrole, rfl⟩ := h
    obtain ⟨r, hr, hle⟩ := LocalState.exists_requireBalance hw hbalance
    have hschema := hp.schema
    cases hschema with
    | @rao _ _ o _ hmem _ hcheck =>
      have hnot := hp.notCompleted
      cases hnot
      have hkey := (validateWriterKey_eq_ok hr rfl hp.address).mp hkey
      have hrole := (isRequesterAllowedToChangeRole_addWriter hr htype).mp hrole
      rw [feeBigInt_eq] at hle
      exact ⟨o, requester, r, {
        common := hp
        body := rfl
        mem := hmem
        check := hcheck
        has := hr
        fee := by omega
        addWriter := fun _ => ⟨hrole, hle, hkey⟩
        removeWriter := fun hremove => by cases htype.symm.trans hremove
        adminRecovery := fun hrecovery => by cases htype.symm.trans hrecovery }⟩
    | _ => cases htype
  case isFalse htype =>
    simp only [bind_eq_ok, pure_eq_ok] at h
    obtain ⟨_, -, _, hbalance, _, hrole, rfl⟩ := h
    obtain ⟨r, hr, hle⟩ := LocalState.exists_requireBalance hw hbalance
    have hschema := hp.schema
    cases hschema with
    | @rao _ _ o _ hmem _ hcheck =>
      have hnot := hp.notCompleted
      cases hnot
      exact ⟨o, requester, r, {
        common := hp
        body := rfl
        mem := hmem
        check := hcheck
        has := hr
        fee := hle
        addWriter := fun hadd => absurd hadd htype
        removeWriter := fun hremove =>
          (isRequesterAllowedToChangeRole_removeWriter hr hremove).mp hrole
        adminRecovery := fun hrecovery =>
          (isRequesterAllowedToChangeRole_adminRecovery rfl hrecovery).mp hrole }⟩
    | _ => cases hrole

end PartialRoleAccess

/-! ### The handlers -/

theorem validateRoleAccessOperation_complete {d : Option (Completion Buffer)}
    (hbody : p.body = .rao o)
    (hmem : p.type ∈ [OperationType.addWriter, .removeWriter, .adminRecovery])
    (h : Check.validateRoleAccessOperation env op = some (p.address, o, d))
    (hc : Check.CompletionSchema env c) :
    Check.validateRoleAccessOperation env (p.complete c) = some (p.address, o, some c) := by
  obtain ⟨-, -, -, hs⟩ := Check.validateRoleAccessOperation_eq_some.mp h
  refine Check.validateRoleAccessOperation_eq_some.mpr
    ⟨List.mem_map_of_mem hmem, rfl, ⟨_, ?_, Check.completion_eq_some.mpr ⟨rfl, hc⟩⟩, hs⟩
  rw [PartialPayload.complete, Payload.toOperation, CompleteBody.toBody, hbody]
  rfl

theorem AddWriterStep.count_lt (e : AddWriterStep env w node op) :
    writersCounter.count w < 2 ^ 32 - 1 :=
  e.counts.count_eq.trans_lt e.counts.lt

namespace RoleAccepted

variable (h : RoleAccepted env w validator op p o requester r)
  (hv : HoldsCompleted env w node validator v p c) (hascii : op.AsciiAddresses)

include h hv

theorem check_complete :
    Check.validateRoleAccessOperation env (p.complete c) = some (p.address, o, some c) :=
  validateRoleAccessOperation_complete h.body h.mem h.check hv.signed.schema

theorem completed : RoleCompleted env w node p.type (p.signed env requester validator o c) r v := by
  have hcompleted := (h.common.admitted hv).completed (h.common.verified o hv.signed) h.has
  simp only [messageComponents, h.body, PartialBody.tx, PartialBody.txv, PartialBody.in_,
    PartialBody.is] at hcompleted
  exact hcompleted

include hascii

theorem requester_ne_validator : requester ≠ validator.address := by
  have hascii := h.common.schema.asciiAddresses hascii hv.signed.ascii
  exact ((h.completed hv).address_ne_iff (addresses_roleAccess (h.check_complete hv))).mpr
    hascii.aliasFree

theorem exists_rewarded (htotal : w.total < 2 ^ 128) :
    ∃ vb : Balance, vb.toNat = v.balance.toNat + reward75.toNat := by
  have hsum := View.add_le_total (h.requester_ne_validator hv hascii) h.has hv.has
  have hreward := reward75_add_reward25
  have hfee := h.fee
  rw [World.total] at htotal
  simp only [Account.total] at hsum
  exact exists_balance (by omega)

omit hascii in
/-- The step of a handler is about the completed payload. -/
theorem signed_eq {s : Signed (RoleAccessOperation Buffer)} {type : OperationType}
    {args : List MessagePart} {tx in_ is : Buffer}
    (hcheck : Check.validateRoleAccessOperation env (p.complete c) =
      some (s.address, s.body, some s.completion)) (hs : s.Verified env type args tx in_ is) :
    s.address = p.address ∧ s.body = o ∧ s.requester.address = requester := by
  obtain ⟨haddress, hbody, -⟩ :
      s.address = p.address ∧ s.body = o ∧ some s.completion = some c := by
    simpa using hcheck.symm.trans (h.check_complete hv)
  refine ⟨haddress, hbody, ?_⟩
  rw [← party_address hs.requester, haddress]
  exact (bufferToAddress_eq_some.mp h.common.address).2

theorem addWriter_iff (hw : Visited env w) (htotal : w.total < 2 ^ 128)
    (htype : p.type = .addWriter) :
    (∃ w', runHandler (handler env .addWriter (p.complete c) node) w = some (.success, w')) ↔
      writersCounter.count w < 2 ^ 32 - 1 := by
  simp only [runHandler_eq_success, handler, handleApplyAddWriterOperation_ok hw.wellFormed]
  constructor
  · rintro ⟨w', e, rfl⟩
    exact e.count_lt
  · intro hcount
    obtain ⟨hrole, hle, hkey⟩ := h.addWriter htype
    obtain ⟨vb, hvb⟩ := h.exists_rewarded hv hascii htotal
    obtain ⟨n, next, hcounts⟩ := hw.decodes.2.ready hcount
    have hstake := toNat_balanceToStake_eq
    obtain ⟨rb, hrb⟩ := exists_balance
      (n := r.balance.toNat - (balanceFee.toNat + balanceToStake.toNat))
      (by have := r.balance.toNat_lt; omega)
    have hcompleted := h.completed hv
    rw [htype] at hcompleted
    obtain ⟨-, -, -, hs⟩ := Check.validateRoleAccessOperation_eq_some.mp (h.check_complete hv)
    let e : AddWriterStep env w node (p.complete c) := {
      s := p.signed env requester validator o c
      r, v, rb, vb
      length := n
      next
      check := h.check_complete hv
      completed := hcompleted
      nonzero := fun hz => by
        obtain ⟨x, hx, hne⟩ := hs.iw.nonzero
        rw [show o.iw = zeroWk from hz] at hx
        exact hne (List.eq_of_mem_replicate hx)
      length_iw := hs.iw.length_eq
      role := hrole
      key := hkey
      charged := by omega
      rewarded := hvb
      counts := hcounts }
    exact ⟨e.result, e, rfl⟩

theorem removeWriter_iff (hw : Visited env w) (htotal : w.total < 2 ^ 128)
    (htype : p.type = .removeWriter) :
    (∃ w', runHandler (handler env .removeWriter (p.complete c) node) w = some (.success, w')) ↔
      r.wk = o.iw ∧ w.view.get (.writerAddress o.iw) = some p.address := by
  simp only [runHandler_eq_success, handler, handleApplyRemoveWriterOperation_ok hw.wellFormed]
  constructor
  · rintro ⟨w', e, rfl⟩
    obtain ⟨haddress, hbody, hrequester⟩ := h.signed_eq hv e.check e.completed.verified
    have hr := e.completed.requester
    have hwk := e.wk
    have hkey := e.key
    rw [hrequester] at hr
    rw [hbody] at hwk
    rw [← hwk, haddress] at hkey
    exact ⟨hr.unique h.has ▸ hwk.symm, hkey⟩
  · rintro ⟨hwk, hkey⟩
    have hrole := h.removeWriter htype
    obtain ⟨vb, hvb⟩ := h.exists_rewarded hv hascii htotal
    have hstaked : r.stakedBalance = balanceToStake := by
      rw [hw.staked _ _ h.has, hrole]
      rfl
    have hpos : 0 < r.stakedBalance.toNat := by
      rw [hstaked, toNat_balanceToStake]
      decide
    have hsum := View.le_total h.has
    have hfee := h.fee
    rw [World.total] at htotal
    rw [Account.total] at hsum
    obtain ⟨rb, hrb⟩ := exists_balance
      (n := r.balance.toNat + r.stakedBalance.toNat - balanceFee.toNat) (by omega)
    have hcompleted := h.completed hv
    rw [htype] at hcompleted
    let e : RemoveWriterStep env w node (p.complete c) := {
      s := p.signed env requester validator o c
      r, v, rb, vb
      check := h.check_complete hv
      completed := hcompleted
      role := hrole
      wk := hwk.symm
      key := hwk ▸ hkey
      staked := hpos
      affordable := hfee
      charged := by omega
      rewarded := hvb }
    exact ⟨e.result, e, rfl⟩

theorem adminRecovery_iff (hw : Visited env w) (htotal : w.total < 2 ^ 128)
    (htype : p.type = .adminRecovery) :
    (∃ w', runHandler (handler env .adminRecovery (p.complete c) node) w = some (.success, w')) ↔
      w.view.get (.writerAddress o.iw) = none ∧ o.iw ∉ w.base.indexers ∧
        ∃ entry, (w.view.get .admin).bind (AdminEntry.decode env) = some entry ∧
          entry.wk ∈ w.base.indexers := by
  simp only [runHandler_eq_success, handler, handleApplyAdminRecoveryOperation_ok hw.wellFormed]
  constructor
  · rintro ⟨w', e, rfl⟩
    obtain ⟨-, hbody, -⟩ := h.signed_eq hv e.check e.completed.verified
    obtain ⟨buffer, address, hbuf, hdec, -⟩ := e.admin.entry
    have hunregistered := e.unregistered
    have hnew := e.new_notMem
    rw [hbody] at hunregistered hnew
    exact ⟨hunregistered, hnew, _, Option.bind_eq_some_iff.mpr ⟨buffer, hbuf, hdec⟩, e.old_mem⟩
  · rintro ⟨hunregistered, hnew, entry, hentry, hold⟩
    obtain ⟨vb, hvb⟩ := h.exists_rewarded hv hascii htotal
    obtain ⟨rb, hrb⟩ := exists_balance (n := r.balance.toNat - balanceFee.toNat)
      (by have := r.balance.toNat_lt; omega)
    have hfee := h.fee
    have hcompleted := h.completed hv
    rw [htype] at hcompleted
    obtain ⟨entry', hentry', haddress, -⟩ := h.adminRecovery htype
    cases hentry.symm.trans hentry'
    obtain ⟨buffer, hbuf, hdec⟩ := Option.bind_eq_some_iff.mp hentry
    obtain ⟨address, wk⟩ := entry
    obtain ⟨-, -, -, hs⟩ := Check.validateRoleAccessOperation_eq_some.mp (h.check_complete hv)
    let e : AdminRecoveryStep env w node (p.complete c) := {
      s := p.signed env requester validator o c
      r, v, rb, vb
      oldWk := wk
      check := h.check_complete hv
      completed := hcompleted
      length_iw := hs.iw.length_eq
      admin := {
        entry := ⟨buffer, address, hbuf, hdec, congrArg (Option.elim · nullBuffer _) haddress⟩
        publicKey_ne := ne_nil_of_length h.common.publicKey }
      unregistered := hunregistered
      old_mem := hold
      new_notMem := hnew
      charged := by omega
      rewarded := hvb }
    exact ⟨e.result, e, rfl⟩

end RoleAccepted

/-- A block that holds one operation is applied successfully exactly when its handler succeeds. -/
theorem apply_singleton_iff {type : OperationType} (hdec : decodeNode env node = some (type, op)) :
    (∃ w', applyNode env node w = some (.success, w') ∧ apply env [node] w = some w') ↔
      ∃ w', runHandler (handler env type op node) w = some (.success, w') := by
  constructor
  · rintro ⟨w', hnode, -⟩
    rw [applyNode, hdec] at hnode
    exact ⟨w', hnode⟩
  · rintro ⟨w', hrun⟩
    exact ⟨w', apply_singleton hdec hrun⟩

/-- A role operation that a validator accepts succeeds, when the validator completes and applies it
in the same state, exactly when it also passes what its handler checks besides. -/
theorem role_prevalidation_iff (hw : Reachable env w) (htotal : w.total < 2 ^ 128)
    (hascii : op.AsciiAddresses)
    (h : PartialRoleAccess.validate env (.of w w) (some validator.address) op = .ok p)
    (hv : HoldsCompleted env w node validator v p c) :
    (∃ w', applyNode env node w = some (.success, w') ∧ apply env [node] w = some w') ↔
      RoleUnchecked env w p := by
  obtain ⟨o, requester, r, h⟩ := PartialRoleAccess.validate_eq_ok hw.wellFormed h
  have haddress := (bufferToAddress_eq_some.mp h.common.address).2
  have hmem := h.mem
  rw [apply_singleton_iff hv.decode, RoleUnchecked, h.body]
  simp only [List.mem_cons, List.not_mem_nil, or_false] at hmem
  obtain htype | htype | htype := hmem
  · simp only [htype]
    exact h.addWriter_iff hv hascii hw.visited htotal htype
  · simp only [htype, haddress]
    rw [h.removeWriter_iff hv hascii hw.visited htotal htype]
    refine and_congr_left fun _ => ⟨fun hwk => ⟨r, h.has, hwk⟩, ?_⟩
    rintro ⟨r', hr', hwk⟩
    exact h.has.unique hr' ▸ hwk
  · simp only [htype]
    exact h.adminRecovery_iff hv hascii hw.visited htotal htype

namespace Sample

def invitedNodes : List Node := [block bootstrap fundBobOp, block bootstrap whitelistBobOp]

/-- Bob has tokens and may become a writer. -/
def invited : World := network.after invitedNodes joined

def addBobPayload : PartialPayload where
  type := .addWriter
  address := bobAddress
  body := .rao addBobBody
  completion := none

/-- The request of Bob before Alice completes it. -/
def addBobPartial : Operation := { addBobOp with value := some (.rao addBobBody.toField .absent) }

theorem invited_facts :
    (apply network invitedNodes joined).isSome ∧ invited.total < 2 ^ 128 ∧
    isValidatorValidApply (invited.view.get (.account alice)) (block aliceCore addBobOp) ∧
    decodeNode network (block aliceCore addBobOp) = some (.addWriter, addBobOp) ∧
    writersCounter.count invited < 2 ^ 32 - 1 ∧
    (PartialRoleAccess.validate network (.of invited invited) (some aliceParty.address)
      addBobPartial).map PartialPayload.fields = .ok addBobPayload.fields := by
  decide +kernel

theorem reachable_invited : Reachable network invited := reachable_joined.after invited_facts.1

theorem addBob_signedBy :
    addBobCompletion.SignedBy network aliceParty .addWriter (.rao addBobBody) := by
  rw [Completion.signedBy_iff, party_eq_ok, Check.nonzeroBuffer_iff, Check.nonzeroBuffer_iff]
  decide +kernel

/-- Alice accepts, completes and applies the request of Bob. -/
theorem role_prevalidation_iff_addBob :
    ∃ w', applyNode network (block aliceCore addBobOp) invited = some (.success, w') ∧
      apply network [block aliceCore addBobOp] invited = some w' := by
  obtain ⟨-, htotal, hvalid, hdecode, hcount, hfields⟩ := invited_facts
  obtain ⟨v, hv, hactive, hauthor⟩ := exists_validator reachable_invited.wellFormed hvalid
  have hheld : HoldsCompleted network invited (block aliceCore addBobOp) aliceParty v addBobPayload
      addBobCompletion := ⟨hv, hactive, hauthor, addBob_signedBy, hdecode⟩
  have hascii : addBobPartial.AsciiAddresses :=
    show ∀ b ∈ addBobPartial.addresses, ∀ x ∈ b, x < 128 by decide +kernel
  have hunchecked : RoleUnchecked network invited addBobPayload := by
    simp only [RoleUnchecked, addBobPayload]
    exact hcount
  exact (role_prevalidation_iff reachable_invited htotal hascii (eq_ok_of_map_fields hfields)
    hheld).mpr hunchecked

def recoverAdminPayload : PartialPayload where
  type := .adminRecovery
  address := adminAddress
  body := .rao recoverAdminBody
  completion := none

/-- The recovery of the admin before Alice completes it. -/
def recoverAdminPartial : Operation :=
  { recoverAdminOp with value := some (.rao recoverAdminBody.toField .absent) }

theorem recoverAdmin_facts :
    isValidatorValidApply (paid.view.get (.account alice)) (block aliceCore recoverAdminOp) ∧
    (paid.view.get (.account alice)).map NodeEntry.isIndexer = some false ∧
    decodeNode network (block aliceCore recoverAdminOp) = some (.adminRecovery, recoverAdminOp) ∧
    (PartialRoleAccess.validate network (.of paid paid) (some aliceParty.address)
      recoverAdminPartial).map PartialPayload.fields = .ok recoverAdminPayload.fields ∧
    (applyNode network (block aliceCore recoverAdminOp) paid).map Prod.fst = some .failure := by
  decide +kernel

theorem recoverAdmin_signedBy :
    recoverAdminCompletion.SignedBy network aliceParty .adminRecovery
      (.rao recoverAdminBody) := by
  rw [Completion.signedBy_iff, party_eq_ok, Check.nonzeroBuffer_iff, Check.nonzeroBuffer_iff]
  decide +kernel

/-- The admin asks for the key of Alice, who accepts and completes the recovery and fails. -/
theorem not_role_prevalidation_recoverAdmin : Reachable network paid ∧ paid.total < 2 ^ 128 ∧
    recoverAdminPartial.AsciiAddresses ∧
    PartialRoleAccess.validate network (.of paid paid) (some aliceParty.address)
      recoverAdminPartial = .ok recoverAdminPayload ∧
    (∃ v, v.role = .writer ∧ HoldsCompleted network paid (block aliceCore recoverAdminOp)
      aliceParty v recoverAdminPayload recoverAdminCompletion) ∧
    (applyNode network (block aliceCore recoverAdminOp) paid).map Prod.fst = some .failure := by
  obtain ⟨hvalid, hindexer, hdecode, hfields, hfailure⟩ := recoverAdmin_facts
  obtain ⟨v, hv, hactive, hauthor⟩ := exists_validator reachable_paid.wellFormed hvalid
  refine ⟨reachable_paid, paid_facts.1,
    show ∀ b ∈ recoverAdminPartial.addresses, ∀ x ∈ b, x < 128 by decide +kernel,
    eq_ok_of_map_fields hfields, ⟨v, ?_, hv, hactive, hauthor, recoverAdmin_signedBy, hdecode⟩,
    hfailure⟩
  rw [show paid.view.get (.account alice) = some v.toBuffer from hv, Option.map_some,
    Option.some.injEq, Account.isIndexer_toBuffer] at hindexer
  exact NodeRole.isWriter_only.mp ⟨hindexer, hactive⟩

end Sample

end SettlementBus
