import SettlementBus.Steps.Value

/-! The steps of the operations that set the network up. -/

namespace SettlementBus

open Lib

variable {env : Env} {w w' : World} {node : Node} {op : Operation}

def balanceAdmin : Balance := ⟨adminInitialBalance, rfl⟩

/-- The checks of every operation the admin alone signs. -/
structure AdminSigned (env : Env) (w : World) (node : Node) (args : List MessagePart)
    (address txv tx is : Buffer) (requester : Party) : Prop where
  decoded : party env address = .ok requester
  admin : AdminIs env w node.key requester.publicKey
  signed : RequesterSigned env args tx is requester.publicKey
  current : txv = getIndexerSequenceStateApply env w.base
  fresh : w.view.get (.record tx) = none

/-! ### BALANCE_INITIALIZATION -/

/-- The entry `address` holds after its balance was set to `amount`. -/
inductive Initialized (w : World) (address : Str) (amount : Balance) : Account → Prop
  | new (h : w.view.get (.account address) = none) : Initialized w address amount (.reader amount)
  | old {a : Account} (h : w.Has address a) :
      Initialized w address amount { a with balance := amount }

theorem initializedEntry_ok (hw : w.WellFormed) {address : Str} {amount : Balance} {e : Buffer} :
    initializedEntry amount (w.view.get (.account address)) = .ok e ↔
      ∃ c, Initialized w address amount c ∧ c.toBuffer = e := by
  cases hget : w.view.get (.account address) with
  | none =>
    rw [initializedEntry_none]
    constructor
    · rintro rfl
      exact ⟨_, .new hget, rfl⟩
    · rintro ⟨c, hc, rfl⟩
      cases hc with
      | new h => rfl
      | old h => cases h.symm.trans hget
  | some buffer =>
    obtain ⟨a, rfl, ha⟩ := hw.has hget
    rw [initializedEntry_some]
    constructor
    · rintro rfl
      exact ⟨_, .old ha, rfl⟩
    · rintro ⟨c, hc, rfl⟩
      cases hc with
      | new h => cases h.symm.trans hget
      | old h =>
        cases h.unique ha
        rfl

structure InitializeBalanceStep (env : Env) (w : World) (node : Node) (op : Operation) where
  address : Buffer
  o : BalanceInitializationOperation Buffer
  requester : Party
  recipient : Party
  amount : Balance
  c : Account
  check : Check.validateBalanceInitialization env op = some (address, o)
  signed : AdminSigned env w node [.number env.config.networkId, .buffer o.txv, .buffer o.ia,
    .buffer o.am, .buffer o.in_, .number OperationType.balanceInitialization.code] address o.txv
      o.tx
    o.is requester
  ia : party env o.ia = .ok recipient
  amount_eq : amount.value = o.am
  enabled : ¬w.InitializationDisabled
  initialized : Initialized w recipient.address amount c

namespace InitializeBalanceStep

variable (e : InitializeBalanceStep env w node op)

def result : World where
  view := (w.view.put (.account e.recipient.address) e.c.toBuffer).put (.record e.o.tx) node.value
  base := w.base

end InitializeBalanceStep

theorem handleApplyInitializeBalanceOperation_ok (hw : w.WellFormed) :
    (handleApplyInitializeBalanceOperation env op node).exec w = (.ok (), w') ↔
      ∃ e : InitializeBalanceStep env w node op, e.result = w' := by
  simp only [handleApplyInitializeBalanceOperation, Exec.bind_ok, Exec.exec_liftM, Prod.mk.injEq,
    verifyRequester_eq_ok, verifyValidity_ok, requireAdmin_ok, isApplyInitalizationDisabled_ok,
    requireNotApplied_ok, getEntryApply_ok, Exec.orExit_ok, Exec.require_ok, exists_const,
    and_assoc, exists_and_left, exists_eq_left', initializedEntry_ok hw, exec_put, true_and]
  constructor
  · rintro ⟨⟨address, o⟩, hcheck, requester, hreq, recipient, hia, amount, ham, hdis, hadm, hsig,
      hcur, hfresh, _, ⟨c, hc, rfl⟩, rfl⟩
    have ham := toBalance_eq_some.mp ham
    exact ⟨{
      address, o, requester, recipient, amount, c
      check := hcheck
      signed := ⟨hreq, hadm, ham ▸ hsig, hcur, hfresh⟩
      ia := hia
      amount_eq := ham
      enabled := by simpa using hdis
      initialized := hc }, rfl⟩
  · rintro ⟨⟨address, o, requester, recipient, amount, c, hcheck, hs, hia, ham, hdis, hc⟩, rfl⟩
    exact ⟨_, hcheck, _, hs.decoded, _, hia, amount, toBalance_eq_some.mpr ham, by simpa using hdis,
      hs.admin, ham ▸ hs.signed, hs.current, hs.fresh, _, ⟨c, hc, rfl⟩, rfl⟩

/-! ### DISABLE_INITIALIZATION -/

structure DisableInitializationStep (env : Env) (w : World) (node : Node) (op : Operation) where
  address : Buffer
  o : CoreAdminOperation Buffer
  requester : Party
  check : Check.validateCoreAdminOperation env op = some (address, o)
  signed : AdminSigned env w node [.number env.config.networkId, .buffer o.txv, .buffer o.iw,
    .buffer o.in_, .number OperationType.disableInitialization.code] address o.txv o.tx o.is
    requester
  enabled : ¬w.InitializationDisabled

namespace DisableInitializationStep

variable (e : DisableInitializationStep env w node op)

def result : World where
  view := (w.view.put .initialization (safeWriteUInt32BE 0)).put (.record e.o.tx) node.value
  base := w.base

end DisableInitializationStep

theorem handleApplyDisableBalanceInitializationOperation_ok :
    (handleApplyDisableBalanceInitializationOperation env op node).exec w = (.ok (), w') ↔
      ∃ e : DisableInitializationStep env w node op, e.result = w' := by
  simp only [handleApplyDisableBalanceInitializationOperation, Exec.bind_ok, Exec.exec_liftM,
    Prod.mk.injEq, verifyRequester_eq_ok, verifyValidity_ok, requireAdmin_ok,
    isApplyInitalizationDisabled_ok, requireNotApplied_ok, Exec.orExit_ok, Exec.require_ok,
    exists_const, and_assoc, exists_and_left, exists_eq_left', exec_put, true_and]
  constructor
  · rintro ⟨⟨address, o⟩, hcheck, hdis, requester, hreq, hadm, hsig, hcur, hfresh, rfl⟩
    exact ⟨{
      address, o, requester
      check := hcheck
      signed := ⟨hreq, hadm, hsig, hcur, hfresh⟩
      enabled := by simpa using hdis }, rfl⟩
  · rintro ⟨⟨address, o, requester, hcheck, hs, hdis⟩, rfl⟩
    exact ⟨_, hcheck, by simpa using hdis, _, hs.decoded, hs.admin, hs.signed, hs.current, hs.fresh,
      rfl⟩

/-! ### ADD_ADMIN -/

/-- The account `ADD_ADMIN` creates. -/
def Account.initialAdmin (wk : Buffer) (length_wk : wk.length = writerByteLength) (license : Buffer)
    (length_license : license.length = licenseByteLength) : Account where
  role := .indexer
  wk := wk
  length_wk := length_wk
  balance := balanceAdmin
  license := license
  length_license := length_license
  stakedBalance := balanceToStake

theorem balanceToStake_value : balanceToStake.value = adminInitialStakedBalance := by decide +kernel

theorem init_initialAdmin {wk license : Buffer} (length_wk : wk.length = writerByteLength)
    (length_license : license.length = licenseByteLength) :
    NodeEntry.init wk NodeRole.indexer.byte adminInitialBalance license adminInitialStakedBalance =
      (Account.initialAdmin wk length_wk license length_license).toBuffer := by
  rw [← balanceToStake_value]
  exact Account.init_toBuffer (.initialAdmin wk length_wk license length_license)

structure AddAdminStep (env : Env) (w : World) (node : Node) (op : Operation) where
  address : Buffer
  o : CoreAdminOperation Buffer
  admin : Party
  count : ℕ
  license : Buffer
  length : ℕ
  next : Buffer
  check : Check.validateCoreAdminOperation env op = some (address, o)
  requester : party env address = .ok admin
  author : node.key = env.config.bootstrap
  iw : o.iw = env.config.bootstrap
  length_iw : o.iw.length = writerByteLength
  signed : RequesterSigned env [.number env.config.networkId, .buffer o.txv, .buffer o.iw,
    .buffer o.in_, .number OperationType.addAdmin.code] o.tx o.is admin.publicKey
  current : o.txv = getIndexerSequenceStateApply env w.base
  unregistered : w.view.get (.writerAddress o.iw) = none
  noAdmin : w.view.get .admin = none
  fresh : w.view.get (.record o.tx) = none
  licenses : Counts (w.view.get .licenseCount) count license
  counts : Counts (w.view.get .writersLength) length next

theorem Counts.length_next {entry : Option Buffer} {length : ℕ} {next : Buffer}
    (h : Counts entry length next) : next.length = 4 := LengthEntry.length_of_encodeBE h.increment

namespace AddAdminStep

variable (e : AddAdminStep env w node op)

def account : Account :=
  .initialAdmin e.o.iw e.length_iw e.license e.licenses.length_next

def result : World where
  view := ((((((((w.view.put .licenseCount e.license).put
    (.licenseIndex (e.count + 1)) e.address).put
    (.account e.admin.address) e.account.toBuffer).put
    (.writerAddress e.o.iw) e.address).put
    (.writersIndex e.length) e.address).put .writersLength e.next).put
    .admin (e.address ++ e.o.iw)).put .initialization (safeWriteUInt32BE 1)).put
    (.record e.o.tx) node.value
  base := w.base

end AddAdminStep

theorem handleApplyAddAdminOperation_ok :
    (handleApplyAddAdminOperation env op node).exec w = (.ok (), w') ↔
      ∃ e : AddAdminStep env w node op, e.result = w' := by
  simp only [handleApplyAddAdminOperation, Exec.bind_ok, Exec.exec_liftM, Prod.mk.injEq,
    verifyRequester_eq_ok, verifyValidity_ok, requireNotApplied_ok, getEntryApply_ok,
    Exec.orExit_ok, Exec.require_ok, exists_const, and_assoc, exists_and_left, exists_eq_left',
    exec_put, applyAssignNewLicense_ok, updateWritersIndex_ok, true_and]
  constructor
  · rintro ⟨⟨address, o⟩, hcheck, admin, hreq, hauthor, hiw, hsig, hcur, hnone, hadm, hfresh, h⟩
    have hlen := (Check.validateCoreAdminOperation_eq_some.mp hcheck).2.2.2.iw.length_eq
    obtain ⟨license, _, ⟨count, hcount, rfl⟩, h⟩ := h
    simp [init_initialAdmin hlen hcount.length_next,
      AdminEntry.encode_eq (party_eq_ok.mp hreq).1 hlen,
      Store.get_put] at h
    obtain ⟨-, -, length, next, hcounts, rfl⟩ := h
    exact ⟨{
      address, o, admin, count, license, length, next
      check := hcheck
      requester := hreq
      author := hauthor
      iw := hiw
      length_iw := hlen
      signed := hsig
      current := hcur
      unregistered := hnone
      noAdmin := hadm
      fresh := hfresh
      licenses := hcount
      counts := hcounts }, rfl⟩
  · rintro ⟨⟨address, o, admin, count, license, length, next, hcheck, hreq, hauthor, hiw, hlen,
      hsig,
      hcur, hnone, hadm, hfresh, hcount, hcounts⟩, rfl⟩
    refine ⟨_, hcheck, admin, hreq, hauthor, hiw, hsig, hcur, hnone, hadm, hfresh, license, _,
      ⟨count, hcount, rfl⟩, ?_⟩
    simp [init_initialAdmin hlen hcount.length_next,
      AdminEntry.encode_eq (party_eq_ok.mp hreq).1 hlen,
      Store.get_put, nodeEntrySize]
    refine ⟨fun _ hnil => ?_, length, next, hcounts, rfl⟩
    rw [hnil] at hlen
    cases hlen

/-! ### APPEND_WHITELIST -/

/-- `li/<n + 1>` names the address that gets a license. -/
def assignLicense (view : View) (address license : Buffer) :
    Option ℕ → View
  | some count => (view.put .licenseCount license).put (.licenseIndex (count + 1)) address
  | none => view

/-- The license of a whitelisted node whose license was `old`, and the count it was drawn from. -/
inductive Licensed (w : World) (old : Buffer) : Option ℕ → Buffer → Prop
  | kept (h : old ≠ zeroLicense) : Licensed w old none old
  | assigned {count : ℕ} {license : Buffer} (h : old = zeroLicense)
      (counts : Counts (w.view.get .licenseCount) count license) :
      Licensed w old (some count) license

theorem Licensed.congr {old license : Buffer} {count : Option ℕ}
    (h : Licensed w old count license)
    (hget : w.view.get .licenseCount = w'.view.get .licenseCount) :
    Licensed w' old count license := by
  cases h with
  | kept h => exact .kept h
  | assigned h counts => exact .assigned h (hget ▸ counts)

/-- The entry of the admin after the fee. There is none before the initialization is disabled. -/
inductive WhitelistFee (w : World) (requester : Str) : Option Account → Prop
  | free (h : ¬w.InitializationDisabled) : WhitelistFee w requester none
  | charged {a : Account} {b : Balance} (h : w.InitializationDisabled) (has : w.Has requester a)
      (charged : b.toNat + balanceFee.toNat = a.balance.toNat) :
      WhitelistFee w requester (some { a with balance := b })

/-- What a node that is not whitelisted holds: an entry of a reader, or none. -/
inductive NotWhitelisted (w : World) (address : Str) : Account → Prop
  | new (h : w.view.get (.account address) = none) : NotWhitelisted w address (.reader balanceZero)
  | reader {a : Account} (h : w.Has address a) (role : a.role = .reader) :
      NotWhitelisted w address a

structure AppendWhitelistStep (env : Env) (w : World) (node : Node) (op : Operation) where
  address : Buffer
  o : AdminControlOperation Buffer
  requester : Party
  target : Party
  old : Account
  payer : Option Account
  count : Option ℕ
  license : Buffer
  length_license : license.length = licenseByteLength
  check : Check.validateAdminControlOperation env op = some (address, o)
  signed : AdminSigned env w node (adminControlMessage env .appendWhitelist o) address o.txv o.tx
    o.is requester
  ia : party env o.ia = .ok target
  notWhitelisted : NotWhitelisted w target.address old
  fee : WhitelistFee w requester.address payer
  licensed : Licensed w old.license count license

namespace AppendWhitelistStep

variable (e : AppendWhitelistStep env w node op)

def account : Account :=
  { e.old with role := .whitelisted, license := e.license, length_license := e.length_license }

def result : World where
  view := ((assignLicense (putAccount w.view e.requester.address e.payer) e.o.ia e.license
    e.count).put (.account e.target.address) e.account.toBuffer).put (.record e.o.tx) node.value
  base := w.base

end AppendWhitelistStep

theorem chargeWhitelistFee_ok (hw : w.WellFormed) {requester : Str} {u : Unit} :
    (chargeWhitelistFee requester (decide w.InitializationDisabled)).exec w = (.ok u, w') ↔
      ∃ payer, WhitelistFee w requester payer ∧
        { w with view := putAccount w.view requester payer } = w' := by
  by_cases hdis : w.InitializationDisabled
  · simp only [chargeWhitelistFee, hdis, decide_true, if_true, Exec.bind_ok, getEntryApply_ok,
      Exec.orExit_ok, Exec.exec_liftM, exec_put, Prod.mk.injEq, and_assoc, exists_and_left,
      exists_eq_left', true_and]
    constructor
    · rintro ⟨_, ha, e, he, rfl⟩
      obtain ⟨a, rfl, ha⟩ := hw.has ha
      obtain ⟨b, hb, rfl⟩ := chargeFee_eq_ok.mp he
      exact ⟨_, .charged hdis ha hb, rfl⟩
    · rintro ⟨payer, hfee, rfl⟩
      cases hfee with
      | free h => exact absurd hdis h
      | charged h ha hb => exact ⟨_, ha, _, chargeFee_eq_ok.mpr ⟨_, hb, rfl⟩, rfl⟩
  · simp only [chargeWhitelistFee, hdis, decide_false, Bool.false_eq_true, if_false, Exec.exec_pure,
      Prod.mk.injEq, true_and]
    constructor
    · rintro rfl
      exact ⟨none, .free hdis, rfl⟩
    · rintro ⟨payer, hfee, rfl⟩
      cases hfee with
      | free h => rfl
      | charged h ha hb => exact absurd h hdis

theorem init_whitelisted {license : Buffer} (h : license.length = licenseByteLength) :
    NodeEntry.init zeroWk NodeRole.whitelisted.byte zeroBalance license zeroBalance =
      { Account.reader balanceZero with
        role := .whitelisted, license := license, length_license := h }.toBuffer :=
  Account.init_toBuffer { Account.reader balanceZero with
    role := .whitelisted, license := license, length_license := h }

theorem whitelistedEntry_ok {address : Buffer} {entry : Option Buffer} {old : Account}
    {target : Str} {w₀ : World} (hget : w₀.view.get (.account target) = entry)
    (hold : NotWhitelisted w₀ target old) {e : Buffer} :
    (whitelistedEntry address entry).exec w = (.ok e, w') ↔
      ∃ (count : Option ℕ) (license : Buffer) (h : license.length = licenseByteLength),
        Licensed w old.license count license ∧
        { old with role := .whitelisted, license := license, length_license := h }.toBuffer = e ∧
        { w with view := assignLicense w.view address license count } = w' := by
  cases hold with
  | new h =>
    cases h.symm.trans hget
    simp only [whitelistedEntry, Exec.bind_ok, Exec.require_ok, applyAssignNewLicense_ok,
      Exec.exec_pure, Prod.mk.injEq, Except.ok.injEq]
    constructor
    · rintro ⟨license, _, ⟨count, hcount, rfl⟩, _, _, ⟨-, rfl⟩, rfl, rfl⟩
      exact ⟨some count, license, hcount.length_next, .assigned rfl hcount,
        (init_whitelisted hcount.length_next).symm, rfl⟩
    · rintro ⟨count, license, hlen, hlic, rfl, rfl⟩
      cases hlic with
      | kept h => exact absurd rfl h
      | assigned h hcount =>
        refine ⟨license, _, ⟨_, hcount, rfl⟩, (), _, ⟨?_, rfl⟩, init_whitelisted hlen, rfl⟩
        simp [init_whitelisted hlen, nodeEntrySize]
  | reader h hrole =>
    cases h.symm.trans hget
    simp only [whitelistedEntry, Exec.bind_ok, Exec.orExit_ok, Account.decode_toBuffer,
      Account.setRole_toBuffer, Option.some.injEq, applyAssignNewLicense_ok, Exec.ite_ok,
      Exec.exec_pure, Prod.mk.injEq, Except.ok.injEq]
    constructor
    · rintro ⟨_, _, ⟨rfl, rfl⟩, _, _, ⟨rfl, rfl⟩, ⟨hne, rfl, rfl⟩ | ⟨hz, license, _,
        ⟨count, hcount, rfl⟩, hset, rfl⟩⟩
      · exact ⟨none, _, old.length_license, .kept hne, rfl, rfl⟩
      · rw [Account.setLicense_toBuffer _ hcount.length_next] at hset
        cases hset
        exact ⟨some count, license, hcount.length_next, .assigned (not_not.mp hz) hcount, rfl, rfl⟩
    · rintro ⟨count, license, hlen, hlic, rfl, rfl⟩
      refine ⟨_, _, ⟨rfl, rfl⟩, _, _, ⟨rfl, rfl⟩, ?_⟩
      cases hlic with
      | kept h => exact .inl ⟨h, rfl, rfl⟩
      | assigned h hcount =>
        exact .inr ⟨not_not.mpr h, license, _, ⟨_, hcount, rfl⟩,
          Account.setLicense_toBuffer _ hcount.length_next, rfl⟩

theorem NodeRole.isWhitelisted_eq_false {r : NodeRole} : r.isWhitelisted = false ↔ r = .reader := by
  cases r <;> decide

theorem notWhitelisted_iff (hw : w.WellFormed) {address : Str} :
    (!(w.view.get (.account address)).any NodeEntry.isWhitelisted) = true ↔
      ∃ old, NotWhitelisted w address old := by
  cases hget : w.view.get (.account address) with
  | none => exact iff_of_true rfl ⟨_, .new hget⟩
  | some buffer =>
    obtain ⟨a, rfl, ha⟩ := hw.has hget
    simp only [Option.any_some, Account.isWhitelisted_toBuffer, Bool.not_eq_true',
      NodeRole.isWhitelisted_eq_false]
    constructor
    · exact fun h => ⟨a, .reader ha h⟩
    · rintro ⟨old, h⟩
      cases h with
      | new h => cases h.symm.trans hget
      | reader h hrole =>
        cases h.unique ha
        exact hrole

theorem get_putAccount {view : View} {address : Str} {c : Option Account}
    {k : EntryKey} (h : k ≠ .account address) : (putAccount view address c).get k = view.get k := by
  cases c with
  | none => rfl
  | some c => exact Store.get_put_ne _ _ h

theorem handleApplyAppendWhitelistOperation_ok (hw : w.WellFormed) :
    (handleApplyAppendWhitelistOperation env op node).exec w = (.ok (), w') ↔
      ∃ e : AppendWhitelistStep env w node op, e.result = w' := by
  simp only [handleApplyAppendWhitelistOperation, Exec.bind_ok, Exec.exec_liftM, Prod.mk.injEq,
    verifyRequester_eq_ok, verifyValidity_ok, requireAdmin_ok, requireNotApplied_ok,
    getEntryApply_ok, Exec.orExit_ok, Exec.require_ok, exists_const, and_assoc, exists_and_left,
    exists_eq_left', exec_put, isApplyInitalizationDisabled_ok, true_and, notWhitelisted_iff hw]
  constructor
  · rintro ⟨⟨address, o⟩, hcheck, requester, hreq, hadm, target, hia, hsig, hcur, hfresh,
      ⟨old, hold⟩, _, _, hfee, e, _, hentry, rfl⟩
    obtain ⟨payer, hpayer, rfl⟩ := (chargeWhitelistFee_ok hw).mp hfee
    obtain ⟨count, license, hlen, hlic, rfl, rfl⟩ := (whitelistedEntry_ok rfl hold).mp hentry
    exact ⟨{
      address, o, requester, target, old, payer, count, license
      length_license := hlen
      check := hcheck
      signed := ⟨hreq, hadm, hsig, hcur, hfresh⟩
      ia := hia
      notWhitelisted := hold
      fee := hpayer
      licensed := hlic.congr (get_putAccount (by simp)) }, rfl⟩
  · rintro ⟨⟨address, o, requester, target, old, payer, count, license, hlen, hcheck, hs, hia, hold,
      hfee, hlic⟩, rfl⟩
    exact ⟨_, hcheck, _, hs.decoded, hs.admin, _, hia, hs.signed, hs.current, hs.fresh, ⟨old, hold⟩,
      (), _, (chargeWhitelistFee_ok hw).mpr ⟨payer, hfee, rfl⟩, _, _,
        (whitelistedEntry_ok rfl hold).mpr
        ⟨count, license, hlen, hlic.congr (get_putAccount (by simp)).symm, rfl, rfl⟩, rfl⟩

end SettlementBus
