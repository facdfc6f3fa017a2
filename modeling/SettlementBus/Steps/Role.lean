import SettlementBus.Steps.Common

/-! The steps of the role access operations. -/

namespace SettlementBus

open Lib

variable {env : Env} {w w' : World} {node : Node} {op : Operation}

/-- What the six completed operations have in common when they succeed: `r` is the account of the
requester and `v` that of the validator. -/
structure Completed {α : Type} (env : Env) (w : World) (node : Node) (type : OperationType)
    (args : List MessagePart) (txv tx in_ is : Buffer) (s : Signed α) (r v : Account) : Prop where
  verified : s.Verified env type args tx in_ is
  current : txv = getIndexerSequenceStateApply env w.base
  fresh : w.view.get (.record tx) = none
  requester : w.Has s.requester.address r
  validator : w.Has s.validator.address v
  active : v.role.isWriter
  author : v.wk = node.key

abbrev RoleCompleted (env : Env) (w : World) (node : Node) (type : OperationType)
    (s : Signed (RoleAccessOperation Buffer)) (r v : Account) : Prop :=
  Completed env w node type (roleAccessMessage env type s.body) s.body.txv s.body.tx s.body.in_
    s.body.is s r v

/-- `wka/<key>` is put only when the key is new. -/
def registerKey (view : View) (key address : Buffer) : View :=
  if view.get (.writerAddress key) = none then view.put (.writerAddress key) address else view

/-! ### ADD_WRITER -/

structure AddWriterStep (env : Env) (w : World) (node : Node) (op : Operation) where
  s : Signed (RoleAccessOperation Buffer)
  r : Account
  v : Account
  rb : Balance
  vb : Balance
  length : ℕ
  next : Buffer
  check : Check.validateRoleAccessOperation env op = some (s.address, s.body, some s.completion)
  completed : RoleCompleted env w node .addWriter s r v
  nonzero : s.body.iw ≠ zeroWk
  length_iw : s.body.iw.length = writerByteLength
  role : r.role = .whitelisted
  key : w.view.get (.writerAddress s.body.iw) = none ∨
    r.wk = s.body.iw ∧ w.view.get (.writerAddress s.body.iw) = some s.address
  charged : rb.toNat + (balanceFee.toNat + balanceToStake.toNat) = r.balance.toNat
  rewarded : vb.toNat = v.balance.toNat + reward75.toNat
  counts : Counts (w.view.get .writersLength) length next

namespace AddWriterStep

variable (e : AddWriterStep env w node op)

def requester : Account :=
  { e.r with
    role := .writer, wk := e.s.body.iw, length_wk := e.length_iw, balance := e.rb,
    stakedBalance := balanceToStake }

def validator : Account := { e.v with balance := e.vb }

def result : World where
  view := ((((registerKey
    (w.view.put (.account e.s.requester.address) e.requester.toBuffer) e.s.body.iw e.s.address).put
    (.writersIndex e.length) e.s.address).put
    .writersLength e.next).put
    (.account e.s.validator.address) e.validator.toBuffer).put
    (.record e.s.body.tx) node.value
  base := w.base.addWriter e.s.body.iw false

end AddWriterStep

theorem registerWriterKey_ok {key address : Buffer} {registered : Option Buffer} {u : Unit}
    (h : w.view.get (.writerAddress key) = registered) :
    (registerWriterKey registered key address).exec w = (.ok u, w') ↔
      { w with view := registerKey w.view key address } = w' := by
  subst h
  unfold registerWriterKey registerKey
  split <;> simp

theorem get_registerKey (view : View) (key address : Buffer) (k : EntryKey) :
    (registerKey view key address).get k =
      if k = .writerAddress key ∧ view.get k = none then some address else view.get k := by
  unfold registerKey
  split
  · simp only [Store.get_put]
    aesop
  · aesop

theorem NodeRole.isWhitelisted_only {r : NodeRole} :
    (r.isIndexer = false ∧ r.isWriter = false) ∧ r.isWhitelisted = true ↔ r = .whitelisted := by
  cases r <;> decide

theorem handleApplyAddWriterOperation_ok (hw : w.WellFormed) :
    (handleApplyAddWriterOperation env op node).exec w = (.ok (), w') ↔
      ∃ e : AddWriterStep env w node op, e.result = w' := by
  simp only [handleApplyAddWriterOperation, Exec.bind_ok, Exec.exec_liftM, Prod.mk.injEq,
    verifyRoleAccess_eq_ok, verifyValidity_ok, validatorEntryApply_ok hw, requireNotApplied_ok,
    addWriter, getEntryApply_ok, Exec.orExit_ok, Exec.require_ok, exists_const, and_assoc,
    exists_and_left, exists_eq_left', updateWritersIndex_ok]
  constructor
  · rintro ⟨s, hcheck, hz, hver, hcur, _, _, ⟨v, hv, hact, hauth, rfl, rfl⟩, hfresh, rbuf, hr, h⟩
    obtain ⟨r, rfl, hr⟩ := hw.has hr
    have hiw := (Check.validateRoleAccessOperation_eq_some.mp hcheck).2.2.2.iw.length_eq
    simp [Account.setRoleAndWriterKey_toBuffer _ _ hiw, rewardFee_eq_ok balanceFee_percentage75,
      stakeBalanceApply_eq_some, Balance.sub_eq_some, registerWriterKey_ok, Store.get_put,
      get_registerKey, NodeRole.isWhitelisted_only] at h
    obtain ⟨hkey, hrole, -, b, hb, vb, hvb, rb, hrb, length, next, hcounts, rfl⟩ := h
    exact ⟨{
      s, r, v, rb, vb, length, next
      check := hcheck
      completed := ⟨hver, hcur, hfresh, hr, hv, hact, hauth⟩
      nonzero := hz trivial
      length_iw := hiw
      role := hrole
      key := hkey
      charged := by simp; omega
      rewarded := hvb
      counts := hcounts }, rfl⟩
  · rintro ⟨e, rfl⟩
    have hc := e.completed
    have hcharged := e.charged
    have hrewarded := e.rewarded
    simp only [toNat_balanceFee, toNat_balanceToStake] at hcharged
    have hr : w.view.get (.account e.s.requester.address) = some e.r.toBuffer := hc.requester
    have hle : balanceFee.toNat ≤ e.r.balance.toNat := by
      simp only [toNat_balanceFee]
      omega
    obtain ⟨b, hb, hbn⟩ := Balance.exists_sub hle
    refine ⟨e.s, e.check, fun _ => e.nonzero, hc.verified, hc.current, _, _, ⟨e.v, hc.validator,
      hc.active, hc.author, rfl, rfl⟩, hc.fresh, _, hr, ?_⟩
    simp [Account.setRoleAndWriterKey_toBuffer _ _ e.length_iw,
      rewardFee_eq_ok balanceFee_percentage75, stakeBalanceApply_eq_some, Balance.sub_eq_some,
      registerWriterKey_ok, Store.get_put, get_registerKey, NodeRole.isWhitelisted_only,
      Balance.greaterThanOrEquals_iff]
    simp at hbn
    refine ⟨e.key, e.role, by omega, b, hbn, e.vb, hrewarded, e.rb,
      by omega, e.length, e.next, e.counts, rfl⟩

/-! ### REMOVE_WRITER -/

structure RemoveWriterStep (env : Env) (w : World) (node : Node) (op : Operation) where
  s : Signed (RoleAccessOperation Buffer)
  r : Account
  v : Account
  rb : Balance
  vb : Balance
  check : Check.validateRoleAccessOperation env op = some (s.address, s.body, some s.completion)
  completed : RoleCompleted env w node .removeWriter s r v
  role : r.role = .writer
  wk : s.body.iw = r.wk
  key : w.view.get (.writerAddress r.wk) = some s.address
  staked : 0 < r.stakedBalance.toNat
  affordable : balanceFee.toNat ≤ r.balance.toNat
  charged : rb.toNat + balanceFee.toNat = r.balance.toNat + r.stakedBalance.toNat
  rewarded : vb.toNat = v.balance.toNat + reward75.toNat

namespace RemoveWriterStep

variable (e : RemoveWriterStep env w node op)

def requester : Account :=
  { e.r with role := .whitelisted, balance := e.rb, stakedBalance := balanceZero }

def validator : Account := { e.v with balance := e.vb }

def result : World where
  view := ((w.view.put (.account e.s.requester.address) e.requester.toBuffer).put
    (.account e.s.validator.address) e.validator.toBuffer).put
    (.record e.s.body.tx) node.value
  base := w.base.removeWriter e.r.wk

end RemoveWriterStep

theorem NodeRole.isWriter_only {r : NodeRole} :
    r.isIndexer = false ∧ r.isWriter = true ↔ r = .writer := by
  cases r <;> decide

theorem handleApplyRemoveWriterOperation_ok (hw : w.WellFormed) :
    (handleApplyRemoveWriterOperation env op node).exec w = (.ok (), w') ↔
      ∃ e : RemoveWriterStep env w node op, e.result = w' := by
  simp only [handleApplyRemoveWriterOperation, Exec.bind_ok, Exec.exec_liftM, Prod.mk.injEq,
    verifyRoleAccess_eq_ok, verifyValidity_ok, validatorEntryApply_ok hw, requireNotApplied_ok,
    removeWriter, getEntryApply_ok, Exec.orExit_ok, Exec.require_ok, exists_const, and_assoc,
    exists_and_left, exists_eq_left']
  constructor
  · rintro ⟨s, hcheck, -, hver, hcur, _, _, ⟨v, hv, hact, hauth, rfl, rfl⟩, hfresh, rbuf, hr, h⟩
    obtain ⟨r, rfl, hr⟩ := hw.has hr
    simp [rewardFee_eq_ok balanceFee_percentage75, withdrawStakedBalanceApply_eq_some,
      Balance.sub_eq_some, NodeRole.isWriter_only, Balance.greaterThanOrEquals_iff] at h
    obtain ⟨hrole, hwk, hkey, hle, b, hb, vb, hvb, rb, ⟨hpos, hrb⟩, rfl⟩ := h
    exact ⟨{
      s, r, v, rb, vb
      check := hcheck
      completed := ⟨hver, hcur, hfresh, hr, hv, hact, hauth⟩
      role := hrole
      wk := hwk
      key := hwk ▸ hkey
      staked := hpos
      affordable := by simpa using hle
      charged := by simp; omega
      rewarded := hvb }, rfl⟩
  · rintro ⟨⟨s, r, v, rb, vb, hcheck, hc, hrole, hwk, hkey, hpos, hle, hcharged, hrewarded⟩, rfl⟩
    obtain ⟨b, hb, hbn⟩ := Balance.exists_sub hle
    refine ⟨s, hcheck, (fun h => by cases h), hc.verified, hc.current, _, _, ⟨v, hc.validator, hc.active,
      hc.author, rfl, rfl⟩, hc.fresh, _, hc.requester, ?_⟩
    simp [rewardFee_eq_ok balanceFee_percentage75, withdrawStakedBalanceApply_eq_some,
      Balance.sub_eq_some, NodeRole.isWriter_only, Balance.greaterThanOrEquals_iff]
    simp at hbn hle hcharged
    exact ⟨hrole, hwk, hwk ▸ hkey, hle, b, hbn, vb, hrewarded, rb,
      ⟨hpos, by omega⟩, rfl⟩

/-! ### ADMIN_RECOVERY -/

structure AdminRecoveryStep (env : Env) (w : World) (node : Node) (op : Operation) where
  s : Signed (RoleAccessOperation Buffer)
  r : Account
  v : Account
  rb : Balance
  vb : Balance
  oldWk : Buffer
  check : Check.validateRoleAccessOperation env op = some (s.address, s.body, some s.completion)
  completed : RoleCompleted env w node .adminRecovery s r v
  length_iw : s.body.iw.length = writerByteLength
  admin : AdminIs env w oldWk s.requester.publicKey
  unregistered : w.view.get (.writerAddress s.body.iw) = none
  old_mem : oldWk ∈ w.base.indexers
  new_notMem : s.body.iw ∉ w.base.indexers
  charged : rb.toNat + balanceFee.toNat = r.balance.toNat
  rewarded : vb.toNat = v.balance.toNat + reward75.toNat

namespace AdminRecoveryStep

variable (e : AdminRecoveryStep env w node op)

def requester : Account :=
  { e.r with wk := e.s.body.iw, length_wk := e.length_iw, balance := e.rb }

def validator : Account := { e.v with balance := e.vb }

def result : World where
  view := ((((w.view.put (.writerAddress e.s.body.iw) e.s.address).put
    .admin (e.s.address ++ e.s.body.iw)).put
    (.account e.s.requester.address) e.requester.toBuffer).put
    (.account e.s.validator.address) e.validator.toBuffer).put
    (.record e.s.body.tx) node.value
  base := (w.base.removeWriter e.oldWk).addWriter e.s.body.iw true

end AdminRecoveryStep

theorem handleApplyAdminRecoveryOperation_ok (hw : w.WellFormed) :
    (handleApplyAdminRecoveryOperation env op node).exec w = (.ok (), w') ↔
      ∃ e : AdminRecoveryStep env w node op, e.result = w' := by
  simp only [handleApplyAdminRecoveryOperation, Exec.bind_ok, Exec.exec_liftM, Prod.mk.injEq,
    verifyRoleAccess_eq_ok, verifyValidity_ok, validatorEntryApply_ok hw, requireNotApplied_ok,
    getEntryApply_ok, Exec.orExit_ok, Exec.require_ok, exists_const, and_assoc,
    exists_and_left, exists_eq_left']
  constructor
  · rintro ⟨s, hcheck, -, hver, hnone, hcur, _, _, ⟨v, hv, hact, hauth, rfl, rfl⟩, ⟨address, wk⟩,
      hadm, hpk, hfresh, h⟩
    have hiw := (Check.validateRoleAccessOperation_eq_some.mp hcheck).2.2.2.iw.length_eq
    have hreq := party_eq_ok.mp hver.requester
    obtain ⟨buffer, hbuf, hdec⟩ := Option.bind_eq_some_iff.mp hadm
    cases hget : w.view.get (.account s.requester.address) with
    | none => simp [hget] at h
    | some rbuf =>
      obtain ⟨r, rfl, hr⟩ := hw.has hget
      simp [hget, Account.setWritingKey_toBuffer _ hiw, rewardFee_eq_ok balanceFee_percentage75,
        chargeFee_eq_ok, isWriterKeyInIndexerListApply, AdminEntry.encode_eq hreq.1 hiw] at h
      obtain ⟨hold, -, hnew, rb, hrb, vb, hvb, rfl⟩ := h
      exact ⟨{
        s, r, v, rb, vb
        oldWk := wk
        check := hcheck
        completed := ⟨hver, hcur, hfresh, hr, hv, hact, hauth⟩
        length_iw := hiw
        admin := ⟨⟨buffer, address, hbuf, hdec, hpk.symm⟩, hreq.2.2⟩
        unregistered := hnone
        old_mem := hold
        new_notMem := hnew
        charged := by simpa using hrb
        rewarded := hvb }, rfl⟩
  · rintro ⟨⟨s, r, v, rb, vb, oldWk, hcheck, hc, hiw, hadm, hnone, hold, hnew, hcharged,
      hrewarded⟩, rfl⟩
    obtain ⟨⟨buffer, address, hbuf, hdec, hpk⟩, -⟩ := hadm
    have hreq := party_eq_ok.mp hc.verified.requester
    have hr : w.view.get (.account s.requester.address) = some r.toBuffer := hc.requester
    refine ⟨s, hcheck, (fun h => by cases h), hc.verified, hnone, hc.current, _, _, ⟨v, hc.validator, hc.active,
      hc.author, rfl, rfl⟩, _, Option.bind_eq_some_iff.mpr ⟨buffer, hbuf, hdec⟩, hpk.symm, hc.fresh,
      ?_⟩
    simp [hr, Account.setWritingKey_toBuffer _ hiw, rewardFee_eq_ok balanceFee_percentage75,
      chargeFee_eq_ok, isWriterKeyInIndexerListApply, AdminEntry.encode_eq hreq.1 hiw]
    refine ⟨hold, ?_, hnew, rb, by simpa using hcharged, vb, hrewarded,
      rfl⟩
    rintro - hnil
    rw [hnil] at hiw
    cases hiw

end SettlementBus
