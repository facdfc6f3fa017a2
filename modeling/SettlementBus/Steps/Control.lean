import SettlementBus.Steps.Admin

/-! The steps by which the admin controls indexers and bans validators. -/

namespace SettlementBus

open Lib

variable {env : Env} {w w' : World} {node : Node} {op : Operation}

/-! ### ADD_INDEXER and REMOVE_INDEXER -/

structure AddIndexerStep (env : Env) (w : World) (node : Node) (op : Operation) where
  address : Buffer
  o : AdminControlOperation Buffer
  requester : Party
  pretender : Party
  p : Account
  a : Account
  ab : Balance
  check : Check.validateAdminControlOperation env op = some (address, o)
  signed : AdminSigned env w node (adminControlMessage env .addIndexer o) address o.txv o.tx o.is
    requester
  ia : party env o.ia = .ok pretender
  has : w.Has pretender.address p
  role : p.role = .writer
  wk_notMem : p.wk ∉ w.base.indexers
  payer : w.Has requester.address a
  charged : ab.toNat + balanceFee.toNat = a.balance.toNat

namespace AddIndexerStep

variable (e : AddIndexerStep env w node op)

def account : Account := { e.p with role := .indexer }

def admin : Account := { e.a with balance := e.ab }

def result : World where
  view := ((w.view.put (.account e.pretender.address) e.account.toBuffer).put
    (.account e.requester.address) e.admin.toBuffer).put (.record e.o.tx) node.value
  base := (w.base.removeWriter e.p.wk).addWriter e.p.wk true

end AddIndexerStep

theorem NodeRole.isWriter_and_not_isIndexer {r : NodeRole} :
    (r.isWriter && !r.isIndexer) = true ↔ r = .writer := by
  cases r <;> decide

theorem handleApplyAddIndexerOperation_ok (hw : w.WellFormed) :
    (handleApplyAddIndexerOperation env op node).exec w = (.ok (), w') ↔
      ∃ e : AddIndexerStep env w node op, e.result = w' := by
  simp only [handleApplyAddIndexerOperation, addIndexer, Exec.bind_ok, Exec.exec_liftM,
    Prod.mk.injEq, verifyRequester_eq_ok, verifyValidity_ok, requireAdmin_ok, requireNotApplied_ok,
    getEntryApply_ok, Exec.orExit_ok, Exec.require_ok, exists_const, and_assoc, exists_and_left,
    exists_eq_left', exec_put, true_and, exec_baseRemoveWriter, exec_baseAddWriter, Exec.exec_get,
    Except.ok.injEq]
  constructor
  · rintro ⟨⟨address, o⟩, hcheck, requester, hreq, pretender, hia, hadm, hsig, hcur, hfresh, pbuf,
      hp, h⟩
    obtain ⟨p, rfl, hp⟩ := hw.has hp
    simp only [Account.decode_toBuffer, Option.some.injEq, exists_eq_left',
      Account.isWriter_toBuffer,
      Account.isIndexer_toBuffer, NodeRole.isWriter_and_not_isIndexer, Account.setRole_toBuffer,
      isWriterKeyInIndexerListApply, Bool.not_eq_true', decide_eq_false_iff_not] at h
    obtain ⟨hrole, hnot, abuf, ha, ae, hae, rfl⟩ := h
    obtain ⟨a, rfl, ha⟩ := hw.has ha
    obtain ⟨ab, hab, rfl⟩ := chargeFee_eq_ok.mp hae
    exact ⟨{
      address, o, requester, pretender, p, a, ab
      check := hcheck
      signed := ⟨hreq, hadm, hsig, hcur, hfresh⟩
      ia := hia
      has := hp
      role := hrole
      wk_notMem := hnot
      payer := ha
      charged := hab }, rfl⟩
  · rintro ⟨⟨address, o, requester, pretender, p, a, ab, hcheck, hs, hia, hp, hrole, hnot, ha, hab⟩,
      rfl⟩
    refine ⟨_, hcheck, _, hs.decoded, _, hia, hs.admin, hs.signed, hs.current, hs.fresh, _, hp, ?_⟩
    simp only [Account.decode_toBuffer, Option.some.injEq, exists_eq_left',
      Account.isWriter_toBuffer,
      Account.isIndexer_toBuffer, NodeRole.isWriter_and_not_isIndexer, Account.setRole_toBuffer,
      isWriterKeyInIndexerListApply, Bool.not_eq_true', decide_eq_false_iff_not]
    exact ⟨hrole, hnot, _, ha, _, chargeFee_eq_ok.mpr ⟨ab, hab, rfl⟩, rfl⟩

structure RemoveIndexerStep (env : Env) (w : World) (node : Node) (op : Operation) where
  address : Buffer
  o : AdminControlOperation Buffer
  requester : Party
  toRemove : Party
  p : Account
  a : Account
  ab : Balance
  length : ℕ
  next : Buffer
  check : Check.validateAdminControlOperation env op = some (address, o)
  signed : AdminSigned env w node (adminControlMessage env .removeIndexer o) address o.txv o.tx o.is
    requester
  ia : party env o.ia = .ok toRemove
  has : w.Has toRemove.address p
  role : p.role = .indexer
  wk_mem : p.wk ∈ w.base.indexers
  payer : w.Has requester.address a
  charged : ab.toNat + balanceFee.toNat = a.balance.toNat
  counts : Counts (w.view.get .writersLength) length next

namespace RemoveIndexerStep

variable (e : RemoveIndexerStep env w node op)

def account : Account := { e.p with role := .writer }

def admin : Account := { e.a with balance := e.ab }

def result : World where
  view := ((((w.view.put (.writersIndex e.length) e.o.ia).put .writersLength e.next).put
    (.account e.toRemove.address) e.account.toBuffer).put
    (.account e.requester.address) e.admin.toBuffer).put (.record e.o.tx) node.value
  base := (w.base.removeWriter e.p.wk).addWriter e.p.wk false

end RemoveIndexerStep

theorem NodeRole.isIndexer_iff {r : NodeRole} : r.isIndexer = true ↔ r = .indexer := by
  cases r <;> decide

theorem handleApplyRemoveIndexerOperation_ok (hw : w.WellFormed) :
    (handleApplyRemoveIndexerOperation env op node).exec w = (.ok (), w') ↔
      ∃ e : RemoveIndexerStep env w node op, e.result = w' := by
  simp only [handleApplyRemoveIndexerOperation, removeIndexer, Exec.bind_ok, Exec.exec_liftM,
    Prod.mk.injEq, verifyRequester_eq_ok, verifyValidity_ok, requireAdmin_ok, requireNotApplied_ok,
    getEntryApply_ok, Exec.orExit_ok, Exec.require_ok, exists_const, and_assoc, exists_and_left,
    exists_eq_left', exec_put, true_and, exec_baseRemoveWriter, exec_baseAddWriter, Exec.exec_get,
    Except.ok.injEq, updateWritersIndex_ok]
  constructor
  · rintro ⟨⟨address, o⟩, hcheck, requester, hreq, toRemove, hia, hadm, hsig, hcur, hfresh, pbuf,
      hp, h⟩
    obtain ⟨p, rfl, hp⟩ := hw.has hp
    simp only [Account.decode_toBuffer, Option.some.injEq, exists_eq_left',
      Account.isIndexer_toBuffer, NodeRole.isIndexer_iff,
      Account.setRoleAndWriterKey_toBuffer _ _ p.length_wk, isWriterKeyInIndexerListApply,
      decide_eq_true_eq] at h
    obtain ⟨hrole, hmem, abuf, ha, ae, hae, _, ⟨length, next, hcounts, rfl⟩, rfl⟩ := h
    obtain ⟨a, rfl, ha⟩ := hw.has ha
    obtain ⟨ab, hab, rfl⟩ := chargeFee_eq_ok.mp hae
    exact ⟨{
      address, o, requester, toRemove, p, a, ab, length, next
      check := hcheck
      signed := ⟨hreq, hadm, hsig, hcur, hfresh⟩
      ia := hia
      has := hp
      role := hrole
      wk_mem := hmem
      payer := ha
      charged := hab
      counts := hcounts }, rfl⟩
  · rintro ⟨⟨address, o, requester, toRemove, p, a, ab, length, next, hcheck, hs, hia, hp, hrole,
      hmem, ha, hab, hcounts⟩, rfl⟩
    refine ⟨_, hcheck, _, hs.decoded, _, hia, hs.admin, hs.signed, hs.current, hs.fresh, _, hp, ?_⟩
    simp only [Account.decode_toBuffer, Option.some.injEq, exists_eq_left',
      Account.isIndexer_toBuffer, NodeRole.isIndexer_iff,
      Account.setRoleAndWriterKey_toBuffer _ _ p.length_wk, isWriterKeyInIndexerListApply,
      decide_eq_true_eq]
    exact ⟨hrole, hmem, _, ha, _, chargeFee_eq_ok.mpr ⟨ab, hab, rfl⟩, _,
      ⟨length, next, hcounts, rfl⟩, rfl⟩

/-! ### BAN_VALIDATOR -/

/-- The account of a banned node, which gets its stake back when it was a writer. -/
inductive Banned (t : Account) : Account → Prop
  | whitelisted (role : t.role = .whitelisted) : Banned t { t with role := .reader }
  | writer {b : Balance} (role : t.role = .writer) (staked : 0 < t.stakedBalance.toNat)
      (released : b.toNat = t.balance.toNat + t.stakedBalance.toNat) :
      Banned t { t with role := .reader, balance := b, stakedBalance := balanceZero }

structure BanValidatorStep (env : Env) (w : World) (node : Node) (op : Operation) where
  address : Buffer
  o : AdminControlOperation Buffer
  requester : Party
  target : Str
  t : Account
  banned : Account
  a : Account
  ab : Balance
  check : Check.validateAdminControlOperation env op = some (address, o)
  signed : AdminSigned env w node (adminControlMessage env .banValidator o) address o.txv o.tx o.is
    requester
  ia : bufferToAddress env o.ia = some target
  has : w.Has target t
  ban : Banned t banned
  payer : w.Has requester.address a
  charged : ab.toNat + balanceFee.toNat = a.balance.toNat

namespace BanValidatorStep

variable (e : BanValidatorStep env w node op)

def admin : Account := { e.a with balance := e.ab }

def result : World where
  view := ((w.view.put (.account e.target) e.banned.toBuffer).put
    (.account e.requester.address) e.admin.toBuffer).put (.record e.o.tx) node.value
  base := if e.t.role = .writer then w.base.removeWriter e.t.wk else w.base

end BanValidatorStep

theorem putBanned_ok {target : Str} {t : Account}
    (hrole : (!((!t.role.isWhitelisted && !t.role.isWriter) || t.role.isIndexer)) = true)
    {u : Unit} :
    (putBanned target t.role.isWriter { t with role := .reader }.toBuffer t.wk).exec w =
        (.ok u, w') ↔
      ∃ banned, Banned t banned ∧ {
        view := w.view.put (.account target) banned.toBuffer
        base := if t.role = .writer then w.base.removeWriter t.wk else w.base } = w' := by
  cases ht : t.role with
  | reader => simp [ht, NodeRole.isWhitelisted, NodeRole.isWriter] at hrole
  | indexer => simp [ht, NodeRole.isIndexer] at hrole
  | whitelisted =>
    simp only [putBanned, NodeRole.isWriter, Bool.false_eq_true, if_false, exec_put, Prod.mk.injEq,
      true_and]
    constructor
    · rintro rfl
      exact ⟨_, .whitelisted ht, rfl⟩
    · rintro ⟨banned, hb, rfl⟩
      cases hb with
      | whitelisted h => rfl
      | writer h => cases h.symm.trans ht
  | writer =>
    simp only [putBanned, NodeRole.isWriter, if_true, Exec.bind_ok, Exec.orExit_ok, exec_put,
      withdrawStakedBalanceApply_eq_some, exec_baseRemoveWriter, Prod.mk.injEq, true_and]
    constructor
    · rintro ⟨_, _, ⟨⟨b, hpos, hb, rfl⟩, rfl⟩, _, _, rfl, rfl⟩
      exact ⟨_, .writer ht hpos hb, rfl⟩
    · rintro ⟨banned, hb, rfl⟩
      cases hb with
      | whitelisted h => cases h.symm.trans ht
      | writer h hpos hb => exact ⟨_, _, ⟨⟨_, hpos, hb, rfl⟩, rfl⟩, (), _, rfl, rfl⟩

theorem Banned.role_eq {t banned : Account} (h : Banned t banned) :
    (!((!t.role.isWhitelisted && !t.role.isWriter) || t.role.isIndexer)) = true := by
  cases h with
  | whitelisted h => simp [h, NodeRole.isWhitelisted, NodeRole.isIndexer]
  | writer h => simp [h, NodeRole.isWhitelisted, NodeRole.isIndexer]

theorem Banned.roles {t banned : Account} (h : Banned t banned) :
    (t.role = .whitelisted ∨ t.role = .writer) ∧ banned.role = .reader := by
  cases h with
  | whitelisted hrole => exact ⟨.inl hrole, rfl⟩
  | writer hrole => exact ⟨.inr hrole, rfl⟩

theorem Banned.wk_eq {t banned : Account} (h : Banned t banned) : banned.wk = t.wk := by
  cases h <;> rfl

theorem handleApplyBanValidatorOperation_ok (hw : w.WellFormed) :
    (handleApplyBanValidatorOperation env op node).exec w = (.ok (), w') ↔
      ∃ e : BanValidatorStep env w node op, e.result = w' := by
  simp only [handleApplyBanValidatorOperation, Exec.bind_ok, Exec.exec_liftM,
    Prod.mk.injEq, verifyRequester_eq_ok, verifyValidity_ok, requireAdmin_ok, requireNotApplied_ok,
    getEntryApply_ok, Exec.orExit_ok, Exec.require_ok, exists_const, and_assoc, exists_and_left,
    exists_eq_left', exec_put, true_and]
  constructor
  · rintro ⟨⟨address, o⟩, hcheck, requester, hreq, hadm, hsig, hcur, hfresh, target, hia, tbuf, ht,
      h⟩
    obtain ⟨t, rfl, ht⟩ := hw.has ht
    simp only [Account.decode_toBuffer, Option.some.injEq, exists_eq_left',
      Account.isWhitelisted_toBuffer, Account.isWriter_toBuffer, Account.isIndexer_toBuffer,
      Account.setRole_toBuffer] at h
    obtain ⟨hrole, abuf, ha, ae, hae, _, _, hban, rfl⟩ := h
    obtain ⟨a, rfl, ha⟩ := hw.has ha
    obtain ⟨ab, hab, rfl⟩ := chargeFee_eq_ok.mp hae
    obtain ⟨banned, hbanned, rfl⟩ := (putBanned_ok hrole).mp hban
    exact ⟨{
      address, o, requester, target, t, banned, a, ab
      check := hcheck
      signed := ⟨hreq, hadm, hsig, hcur, hfresh⟩
      ia := hia
      has := ht
      ban := hbanned
      payer := ha
      charged := hab }, rfl⟩
  · rintro ⟨⟨address, o, requester, target, t, banned, a, ab, hcheck, hs, hia, ht, hban, ha, hab⟩,
      rfl⟩
    refine ⟨_, hcheck, _, hs.decoded, hs.admin, hs.signed, hs.current, hs.fresh, _, hia, _, ht, ?_⟩
    simp only [Account.decode_toBuffer, Option.some.injEq, exists_eq_left',
      Account.isWhitelisted_toBuffer, Account.isWriter_toBuffer, Account.isIndexer_toBuffer,
      Account.setRole_toBuffer]
    exact ⟨hban.role_eq, _, ha, _, chargeFee_eq_ok.mpr ⟨ab, hab, rfl⟩, (), _,
      (putBanned_ok hban.role_eq).mpr ⟨banned, hban, rfl⟩, rfl⟩

end SettlementBus
