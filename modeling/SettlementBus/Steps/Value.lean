import SettlementBus.Steps.Role

/-! The steps of deployments, transactions and transfers. -/

namespace SettlementBus

open Lib

variable {env : Env} {w w' w₀ : World} {node : Node} {op : Operation}

/-! ### BOOTSTRAP_DEPLOYMENT -/

structure BootstrapDeploymentStep (env : Env) (w : World) (node : Node) (op : Operation) where
  s : Signed (BootstrapDeploymentOperation Buffer)
  r : Account
  v : Account
  rb : Balance
  vb : Balance
  check : Check.validateBootstrapDeploymentOperation env op =
    some (s.address, s.body, some s.completion)
  bs_ne : s.body.bs ≠ env.config.bootstrap
  completed : Completed env w node .bootstrapDeployment (bootstrapDeploymentMessage env s.body)
    s.body.txv s.body.tx s.body.in_ s.body.is s r v
  undeployed : w.view.get (.deployment s.body.bs) = none
  charged : rb.toNat + balanceFee.toNat = r.balance.toNat
  rewarded : vb.toNat = v.balance.toNat + reward75.toNat

namespace BootstrapDeploymentStep

variable (e : BootstrapDeploymentStep env w node op)

def requester : Account := { e.r with balance := e.rb }

def validator : Account := { e.v with balance := e.vb }

def result : World where
  view := (((w.view.put (.deployment e.s.body.bs) (e.s.body.tx ++ e.s.address)).put
    (.account e.s.requester.address) e.requester.toBuffer).put
    (.account e.s.validator.address) e.validator.toBuffer).put
    (.record e.s.body.tx) node.value
  base := w.base

end BootstrapDeploymentStep

theorem handleApplyBootstrapDeploymentOperation_ok (hw : w.WellFormed) :
    (handleApplyBootstrapDeploymentOperation env op node).exec w = (.ok (), w') ↔
      ∃ e : BootstrapDeploymentStep env w node op, e.result = w' := by
  simp only [handleApplyBootstrapDeploymentOperation, Exec.bind_ok, Exec.exec_liftM, Prod.mk.injEq,
    verifyBootstrapDeployment_eq_ok, verifyValidity_ok, validatorEntryApply_ok hw,
    requireNotApplied_ok, getEntryApply_ok, Exec.orExit_ok, Exec.require_ok, exists_const,
    and_assoc, exists_and_left, exists_eq_left']
  constructor
  · rintro ⟨s, hcheck, hbs, hver, hcur, _, _, ⟨v, hv, hact, hauth, rfl, rfl⟩, hfresh, hnone, -,
      rbuf,
      hr, h⟩
    obtain ⟨r, rfl, hr⟩ := hw.has hr
    have htx := (Check.validateBootstrapDeploymentOperation_eq_some.mp hcheck).2.2.2.tx.length_eq
    have hreq := party_eq_ok.mp hver.requester
    simp [rewardFee_eq_ok balanceFee_percentage75, chargeFee_eq_ok,
      DeploymentEntry.encode_eq hreq.1 htx] at h
    obtain ⟨rb, hrb, vb, hvb, rfl⟩ := h
    exact ⟨{
      s, r, v, rb, vb
      check := hcheck
      bs_ne := hbs
      completed := ⟨hver, hcur, hfresh, hr, hv, hact, hauth⟩
      undeployed := hnone
      charged := by simpa using hrb
      rewarded := hvb }, rfl⟩
  · rintro ⟨⟨s, r, v, rb, vb, hcheck, hbs, hc, hnone, hcharged, hrewarded⟩, rfl⟩
    have htx := (Check.validateBootstrapDeploymentOperation_eq_some.mp hcheck).2.2.2.tx.length_eq
    have hreq := party_eq_ok.mp hc.verified.requester
    have hne : (DeploymentEntry.encode env s.body.tx s.address).length ≠ 0 := by
      simp [DeploymentEntry.encode_eq hreq.1 htx, htx, hashByteLength]
    refine ⟨s, hcheck, hbs, hc.verified, hc.current, _, _, ⟨v, hc.validator, hc.active, hc.author,
      rfl, rfl⟩, hc.fresh, hnone, hne, _, hc.requester, ?_⟩
    simp [rewardFee_eq_ok balanceFee_percentage75, chargeFee_eq_ok,
      DeploymentEntry.encode_eq hreq.1 htx]
    exact ⟨rb, by simpa using hcharged, vb, hrewarded, rfl⟩

/-! ### TX -/

def putAccount (view : View) (address : Str) : Option Account → View
  | some a => view.put (.account address) a.toBuffer
  | none => view

@[simp] theorem putAccount_none (view : View) (address : Str) :
    putAccount view address none = view := rfl

@[simp] theorem putAccount_some (view : View) (address : Str) (a : Account) :
    putAccount view address (some a) = view.put (.account address) a.toBuffer := rfl

/-- How the validator `v` and the creator of the subnetwork share the fee: the new balance of the
validator, and the new entry of a creator that is not one of the signers. -/
inductive TxShare (w : World) (requester validator creator : Str) (v : Account) :
    Balance → Option Account → Prop
  | requester {vb : Balance} (h : requester = creator)
      (rewarded : vb.toNat = v.balance.toNat + reward50.toNat) : TxShare w requester validator
        creator v vb none
  | validator {vb : Balance} (hne : requester ≠ creator) (h : validator = creator)
      (rewarded : vb.toNat = v.balance.toNat + (reward50.toNat + reward25.toNat)) :
      TxShare w requester validator creator v vb none
  | other {vb cb : Balance} {c : Account} (hne : requester ≠ creator) (hne' : validator ≠ creator)
      (has : w.Has creator c) (credited : cb.toNat = c.balance.toNat + reward25.toNat)
      (rewarded : vb.toNat = v.balance.toNat + reward50.toNat) :
      TxShare w requester validator creator v vb (some { c with balance := cb })

structure TxStep (env : Env) (w : World) (node : Node) (op : Operation) where
  s : Signed (TxOperation Buffer)
  r : Account
  v : Account
  rb : Balance
  vb : Balance
  creator : Str
  c : Option Account
  check : Check.validateTransactionOperation env op = some (s.address, s.body, some s.completion)
  bs_ne : s.body.bs ≠ s.body.mbs
  mbs : s.body.mbs = env.config.bootstrap
  completed : Completed env w node .tx (txMessage env s.body) s.body.txv s.body.tx s.body.in_
    s.body.is s r v
  deployed : ∃ buffer entry, w.view.get (.deployment s.body.bs) = some buffer ∧
    DeploymentEntry.decode buffer env.config.addressLength = some entry ∧
    bufferToAddress env entry.address = some creator
  charged : rb.toNat + balanceFee.toNat = r.balance.toNat
  share : TxShare w s.requester.address s.validator.address creator v vb c

namespace TxStep

variable (e : TxStep env w node op)

def requester : Account := { e.r with balance := e.rb }

def validator : Account := { e.v with balance := e.vb }

def result : World where
  view := (putAccount ((w.view.put
    (.account e.s.requester.address) e.requester.toBuffer).put
    (.account e.s.validator.address) e.validator.toBuffer) e.creator e.c).put
    (.record e.s.body.tx) node.value
  base := w.base

end TxStep

@[simp] theorem putEntry_ok {address : Str} {c : Option Account} {u : Unit} :
    (putEntry address (c.map Account.toBuffer)).exec w = (.ok u, w') ↔
      { w with view := putAccount w.view address c } = w' := by
  cases c <;> simp [putEntry, putAccount]

theorem transferFeeTxOperation_ok (hw : w.WellFormed) {requester validator creator : Str}
    {v : Account} {result : TransferFeeTxResult} :
    (transferFeeTxOperation requester validator (some v.toBuffer) creator).exec w =
        (.ok result, w') ↔
      ∃ (r : Account) (rb vb : Balance) (c : Option Account), w.Has requester r ∧
        rb.toNat + balanceFee.toNat = r.balance.toNat ∧ TxShare w requester validator creator v vb c
          ∧
        { requesterEntry := { r with balance := rb }.toBuffer
          validatorEntry := { v with balance := vb }.toBuffer
          subnetworkCreatorEntry := c.map Account.toBuffer } = result ∧ w = w' := by
  simp only [transferFeeTxOperation, Exec.bind_ok, Exec.orExit_ok, getEntryApply_ok, Exec.ite_ok,
    Exec.exec_liftM, Prod.mk.injEq, Exec.exec_pure, Except.ok.injEq, exists_and_left, and_assoc,
    exists_eq_left', Option.some.injEq, rewardFee_eq_ok balanceFee_percentage50]
  constructor
  · rintro ⟨rbuf, hr, re, hre, ve, ⟨vb, hvb, rfl⟩, h⟩
    obtain ⟨r, rfl, hr⟩ := hw.has hr
    obtain ⟨rb, hrb, rfl⟩ := chargeFee_eq_ok.mp hre
    obtain ⟨hc, rfl, rfl⟩ | ⟨hne, ⟨hc, _, h, rfl, rfl⟩ | ⟨hne', cbuf, hc, _, h, rfl, rfl⟩⟩ := h
    · exact ⟨r, hr, rb, hrb, vb, none, .requester hc hvb, rfl, rfl⟩
    · obtain ⟨b, hb, rfl⟩ := (rewardFee_eq_ok (a := { v with balance := vb })
        balanceFee_percentage25).mp h
      refine ⟨r, hr, rb, hrb, b, none, .validator hne hc ?_, rfl, rfl⟩
      rw [hb, hvb, Nat.add_assoc]
    · obtain ⟨c, rfl, hc⟩ := hw.has hc
      obtain ⟨cb, hcb, rfl⟩ := (rewardFee_eq_ok balanceFee_percentage25).mp h
      exact ⟨r, hr, rb, hrb, vb, some _, .other hne hne' hc hcb hvb, rfl, rfl⟩
  · rintro ⟨r, hr, rb, hrb, vb, c, hshare, rfl, rfl⟩
    refine ⟨_, hr, _, chargeFee_eq_ok.mpr ⟨rb, hrb, rfl⟩, ?_⟩
    cases hshare with
    | requester hc hvb => exact ⟨_, ⟨vb, hvb, rfl⟩, .inl ⟨hc, rfl, rfl⟩⟩
    | validator hne hc hvb =>
      obtain ⟨b, -, hb⟩ := Balance.exists_add (a := v.balance) (b := reward50)
        (by have := vb.toNat_lt; omega)
      refine ⟨_, ⟨b, hb, rfl⟩, .inr ⟨hne, .inl ⟨hc, _, ?_, rfl, rfl⟩⟩⟩
      refine (rewardFee_eq_ok (a := { v with balance := b }) balanceFee_percentage25).mpr
        ⟨vb, ?_, rfl⟩
      rw [hvb, hb, Nat.add_assoc]
    | other hne hne' hc hcb hvb =>
      exact ⟨_, ⟨vb, hvb, rfl⟩, .inr ⟨hne, .inr ⟨hne', _, hc, _,
        (rewardFee_eq_ok balanceFee_percentage25).mpr ⟨_, hcb, rfl⟩, rfl, rfl⟩⟩⟩

theorem handleApplyTxOperation_ok (hw : w.WellFormed) :
    (handleApplyTxOperation env op node).exec w = (.ok (), w') ↔
      ∃ e : TxStep env w node op, e.result = w' := by
  simp only [handleApplyTxOperation, Exec.bind_ok, Exec.exec_liftM, Prod.mk.injEq,
    verifyTx_eq_ok, verifyValidity_ok, validatorEntryApply_ok hw,
    requireNotApplied_ok, getEntryApply_ok, Exec.orExit_ok, exists_const,
    and_assoc, exists_and_left, exists_eq_left']
  constructor
  · rintro ⟨s, hcheck, hbs, hmbs, hver, hcur, _, _, ⟨v, hv, hact, hauth, rfl, rfl⟩, hfresh, buffer,
      hbuf, entry, hdec, creator, hcreator, result, _, h, hput⟩
    obtain ⟨r, rb, vb, c, hr, hrb, hshare, rfl, rfl⟩ := (transferFeeTxOperation_ok hw).mp h
    simp at hput
    subst hput
    exact ⟨{
      s, r, v, rb, vb, creator, c
      check := hcheck
      bs_ne := hbs
      mbs := hmbs
      completed := ⟨hver, hcur, hfresh, hr, hv, hact, hauth⟩
      deployed := ⟨buffer, entry, hbuf, hdec, hcreator⟩
      charged := hrb
      share := hshare }, rfl⟩
  · rintro ⟨⟨s, r, v, rb, vb, creator, c, hcheck, hbs, hmbs, hc, ⟨buffer, entry, hbuf, hdec,
      hcreator⟩, hcharged, hshare⟩, rfl⟩
    refine ⟨s, hcheck, hbs, hmbs, hc.verified, hc.current, _, _, ⟨v, hc.validator, hc.active,
      hc.author, rfl, rfl⟩, hc.fresh, buffer, hbuf, entry, hdec, creator, hcreator, _, _,
      (transferFeeTxOperation_ok hw).mpr ⟨r, rb, vb, c, hc.requester, hcharged, hshare, rfl, rfl⟩,
      ?_⟩
    simp [TxStep.result, TxStep.requester, TxStep.validator]

/-! ### TRANSFER -/

/-- The entry `address` holds after it received `amount`. -/
inductive Credited (w : World) (address : Str) (amount : Balance) : Account → Prop
  | new (h : w.view.get (.account address) = none) : Credited w address amount (.reader amount)
  | old {a : Account} {b : Balance} (h : w.Has address a)
      (credited : b.toNat = a.balance.toNat + amount.toNat) :
      Credited w address amount { a with balance := b }

/-- Whom the amount goes to. A third account comes with its new entry. -/
inductive TransferCase
  | self
  | validator
  | other : Account → TransferCase

namespace TransferCase

/-- What the sender pays. -/
def deducted (amount : Balance) : TransferCase → ℕ
  | self => balanceFee.toNat
  | _ => amount.toNat + balanceFee.toNat

/-- What the validator gets. -/
def rewarded (amount : Balance) : TransferCase → ℕ
  | validator => amount.toNat + reward75.toNat
  | _ => reward75.toNat

def putFirst (recipient : Str) (v : Account) (view : View) :
    TransferCase → View
  | self => view
  | validator => view.put (.account recipient) v.toBuffer
  | other c => view.put (.account recipient) c.toBuffer

def putAgain (recipient : Str) (view : View) :
    TransferCase → View
  | other c => view.put (.account recipient) c.toBuffer
  | _ => view

/-- The flags of the handler that lead to the case. -/
def Flags (w : World) (recipient : Str) (amount : Balance) (isSelf isValidator : Bool) :
    TransferCase → Prop
  | self => isSelf ∧ !isValidator
  | validator => !isSelf ∧ isValidator
  | other c => !isSelf ∧ !isValidator ∧ Credited w recipient amount c

end TransferCase

structure TransferStep (env : Env) (w : World) (node : Node) (op : Operation) where
  s : Signed (TransferOperation Buffer)
  r : Account
  v : Account
  rb : Balance
  vb : Balance
  amount : Balance
  recipient : Party
  kind : TransferCase
  check : Check.validateTransferOperation env op = some (s.address, s.body, some s.completion)
  completed : Completed env w node .transfer (transferMessage env s.body) s.body.txv s.body.tx
    s.body.in_ s.body.is s r v
  amount_eq : amount.value = s.body.am
  to_ : party env s.body.to_ = .ok recipient
  flags : kind.Flags w recipient.address amount (isSelfTransfer s.address s.body)
    (isRecipientValidator s.body s.completion)
  charged : rb.toNat + kind.deducted amount = r.balance.toNat
  rewarded : vb.toNat = v.balance.toNat + kind.rewarded amount

namespace TransferStep

variable (e : TransferStep env w node op)

def requester : Account := { e.r with balance := e.rb }

def validator : Account := { e.v with balance := e.vb }

def result : World where
  view := (e.kind.putAgain e.recipient.address
    (((e.kind.putFirst e.recipient.address e.validator w.view).put
      (.account e.s.requester.address) e.requester.toBuffer).put
      (.account e.s.validator.address) e.validator.toBuffer)).put
      (.record e.s.body.tx) node.value
  base := w.base

end TransferStep

theorem otherRecipientEntry_other {amount : Balance} {address : Str} {e : Option Buffer}
    (hw : w.WellFormed) :
    otherRecipientEntry amount (w.view.get (.account address)) true = .ok e ↔
      ∃ c, Credited w address amount c ∧ some c.toBuffer = e := by
  simp only [otherRecipientEntry, if_true, map_eq_ok]
  cases hget : w.view.get (.account address) with
  | none =>
    simp only [creditedEntry_none]
    constructor
    · rintro ⟨_, rfl, rfl⟩
      exact ⟨_, .new hget, rfl⟩
    · rintro ⟨c, hc, rfl⟩
      cases hc with
      | new h => exact ⟨_, rfl, rfl⟩
      | old h => cases h.symm.trans hget
  | some buffer =>
    obtain ⟨a, rfl, ha⟩ := hw.has hget
    simp only [creditedEntry_some]
    constructor
    · rintro ⟨_, ⟨b, hb, rfl⟩, rfl⟩
      exact ⟨_, .old ha hb, rfl⟩
    · rintro ⟨c, hc, rfl⟩
      cases hc with
      | new h => cases h.symm.trans hget
      | old h hb =>
        cases h.unique ha
        exact ⟨_, ⟨_, hb, rfl⟩, rfl⟩

theorem rewardedBalance_false {b amount vb : Balance} :
    rewardedBalance b amount reward75 false = .ok vb ↔
      vb.toNat = b.toNat + reward75.toNat := by
  simp [rewardedBalance, Balance.add_eq_some]

theorem rewardedBalance_true {b amount vb : Balance} :
    rewardedBalance b amount reward75 true = .ok vb ↔
      vb.toNat = b.toNat + (amount.toNat + reward75.toNat) := by
  simp only [rewardedBalance, if_true, bind_eq_ok, orExit_eq_ok, Balance.add_eq_some]
  constructor
  · rintro ⟨sum, hsum, h⟩
    omega
  · intro h
    obtain ⟨sum, -, hsum⟩ := Balance.exists_add (a := b) (b := amount)
      (by have := vb.toNat_lt; omega)
    exact ⟨sum, hsum, by omega⟩

/-- The entries `#transfer` returns. -/
def TransferCase.entries (r v : Account) (rb vb : Balance) (kind : TransferCase) :
    TransferResult where
  senderEntry := { r with balance := rb }.toBuffer
  recipientEntry := match kind with
    | self => none
    | validator => some { v with balance := vb }.toBuffer
    | other c => some c.toBuffer
  validatorEntry := { v with balance := vb }.toBuffer

theorem transfer_ok (hw : w.WellFormed) {sender recipient : Str} {v : Account} {am : Buffer}
    {isSelf isValidator : Bool} (hflags : isSelf = false ∨ isValidator = false)
    {result : TransferResult} :
    (transfer sender recipient (some v.toBuffer) am isSelf isValidator).exec w =
        (.ok result, w') ↔
      ∃ (r : Account) (rb vb amount : Balance) (kind : TransferCase), w.Has sender r ∧
        amount.value = am ∧ kind.Flags w recipient amount isSelf isValidator ∧
        rb.toNat + kind.deducted amount = r.balance.toNat ∧
        vb.toNat = v.balance.toNat + kind.rewarded amount ∧
        kind.entries r v rb vb = result ∧ w = w' := by
  simp only [transfer, Exec.bind_ok, Exec.orExit_ok, getEntryApply_ok, Exec.require_ok,
    Exec.exec_liftM, Prod.mk.injEq, Exec.exec_pure, Except.ok.injEq, exists_and_left, and_assoc,
    exists_eq_left', exists_const, Option.some.injEq, Account.decode_toBuffer, toBalance_value,
    balanceFee_percentage75, Account.update_toBuffer]
  constructor
  · rintro ⟨amount, ham, D, hD, rbuf, hr, h⟩
    obtain ⟨r, rfl, hr⟩ := hw.has hr
    simp only [Account.decode_toBuffer, Option.some.injEq, exists_eq_left', toBalance_value,
      Account.update_toBuffer, Balance.sub_eq_some] at h
    obtain ⟨-, rb, hrb, other, hother, vb, hvb, rfl, rfl⟩ := h
    refine ⟨r, hr, rb, vb, amount, toBalance_eq_some.mp ham, ?_⟩
    cases isSelf with
    | true =>
      cases hflags.resolve_left (fun h => by cases h)
      cases hD
      cases hother
      exact ⟨.self, ⟨rfl, rfl⟩, hrb, rewardedBalance_false.mp hvb, rfl, rfl⟩
    | false =>
      rw [Balance.add_eq_some.mp hD] at hrb
      cases isValidator with
      | true => exact ⟨.validator, ⟨rfl, rfl⟩, hrb, rewardedBalance_true.mp hvb, rfl, rfl⟩
      | false =>
        obtain ⟨c, hc, rfl⟩ := (otherRecipientEntry_other hw).mp hother
        exact ⟨.other c, ⟨rfl, rfl, hc⟩, hrb, rewardedBalance_false.mp hvb, rfl, rfl⟩
  · rintro ⟨r, hr, rb, vb, amount, rfl, kind, hkind, hrb, hvb, rfl, rfl⟩
    refine ⟨amount, toBalance_value _, ?_⟩
    have hlt := r.balance.toNat_lt
    cases kind with
    | self =>
      obtain ⟨rfl, hv⟩ := hkind
      cases (Bool.not_eq_true' _).mp hv
      refine ⟨balanceFee, rfl, _, hr, ?_⟩
      simp only [Account.decode_toBuffer, Option.some.injEq, exists_eq_left', toBalance_value,
        Account.update_toBuffer, Balance.sub_eq_some, Balance.greaterThanOrEquals_iff]
      exact ⟨Nat.le.intro ((Nat.add_comm _ _).trans hrb), rb, hrb, none, rfl, vb,
        rewardedBalance_false.mpr hvb, rfl, trivial⟩
    | validator =>
      obtain ⟨hs, rfl⟩ := hkind
      cases (Bool.not_eq_true' _).mp hs
      simp only [TransferCase.deducted] at hrb
      obtain ⟨D, hD, hDn⟩ := Balance.exists_add (a := amount) (b := balanceFee) (by omega)
      refine ⟨D, hD, _, hr, ?_⟩
      simp only [Account.decode_toBuffer, Option.some.injEq, exists_eq_left', toBalance_value,
        Account.update_toBuffer, Balance.sub_eq_some, Balance.greaterThanOrEquals_iff]
      exact ⟨by omega, rb, by omega, none, rfl, vb, rewardedBalance_true.mpr hvb, rfl, trivial⟩
    | other c =>
      obtain ⟨hs, hv, hc⟩ := hkind
      cases (Bool.not_eq_true' _).mp hs
      cases (Bool.not_eq_true' _).mp hv
      simp only [TransferCase.deducted] at hrb
      obtain ⟨D, hD, hDn⟩ := Balance.exists_add (a := amount) (b := balanceFee) (by omega)
      refine ⟨D, hD, _, hr, ?_⟩
      simp only [Account.decode_toBuffer, Option.some.injEq, exists_eq_left', toBalance_value,
        Account.update_toBuffer, Balance.sub_eq_some, Balance.greaterThanOrEquals_iff]
      exact ⟨by omega, rb, by omega, some c.toBuffer,
        (otherRecipientEntry_other hw).mpr ⟨c, hc, rfl⟩, vb, rewardedBalance_false.mpr hvb, rfl, trivial⟩

theorem putRecipient_ok {recipient : Str} {r v : Account} {rb vb amount : Balance}
    {kind : TransferCase} {isSelf isValidator : Bool} {u : Unit}
    (hkind : kind.Flags w₀ recipient amount isSelf isValidator) :
    (putRecipient recipient (kind.entries r v rb vb) isSelf).exec w = (.ok u, w') ↔
      { w with view := kind.putFirst recipient { v with balance := vb } w.view } = w' := by
  cases kind <;> simp_all [TransferCase.Flags, putRecipient, TransferCase.entries,
    TransferCase.putFirst]

theorem putRecipientAgain_ok {recipient : Str} {r v : Account} {rb vb amount : Balance}
    {kind : TransferCase} {isSelf isValidator : Bool} {u : Unit}
    (hkind : kind.Flags w₀ recipient amount isSelf isValidator) :
    (putRecipientAgain recipient (kind.entries r v rb vb) isSelf isValidator).exec w =
        (.ok u, w') ↔
      { w with view := kind.putAgain recipient w.view } = w' := by
  cases kind <;> simp_all [TransferCase.Flags, putRecipientAgain, TransferCase.entries,
    TransferCase.putAgain, putEntry]

/-- A signer is not the validator, so a transfer has at most one of the two flags. -/
theorem isSelfTransfer_or_isRecipientValidator {s : Signed (TransferOperation Buffer)}
    (h : s.address ≠ s.completion.va) :
    isSelfTransfer s.address s.body = false ∨ isRecipientValidator s.body s.completion = false := by
  simp only [isSelfTransfer, isRecipientValidator, decide_eq_false_iff_not]
  by_cases hs : s.address = s.body.to_
  · exact .inr (hs ▸ h)
  · exact .inl hs

theorem handleApplyTransferOperation_ok (hw : w.WellFormed) :
    (handleApplyTransferOperation env op node).exec w = (.ok (), w') ↔
      ∃ e : TransferStep env w node op, e.result = w' := by
  simp only [handleApplyTransferOperation, Exec.bind_ok, Exec.exec_liftM, Prod.mk.injEq,
    verifyTransfer_eq_ok, verifyValidity_ok, validatorEntryApply_ok hw,
    requireNotApplied_ok, exists_const, and_assoc, exists_and_left, exists_eq_left']
  constructor
  · rintro ⟨s, hcheck, hver, hcur, _, _, ⟨v, hv, hact, hauth, rfl, rfl⟩, hfresh, recipient, hto,
      result, _, h, hput⟩
    obtain ⟨r, rb, vb, amount, kind, hr, ham, hkind, hrb, hvb, rfl, rfl⟩ :=
      (transfer_ok hw (isSelfTransfer_or_isRecipientValidator hver.address_ne)).mp h
    simp [putRecipient_ok hkind, putRecipientAgain_ok hkind] at hput
    subst hput
    exact ⟨{
      s, r, v, rb, vb, amount, recipient, kind
      check := hcheck
      completed := ⟨hver, hcur, hfresh, hr, hv, hact, hauth⟩
      amount_eq := ham
      to_ := hto
      flags := hkind
      charged := hrb
      rewarded := hvb }, rfl⟩
  · rintro ⟨⟨s, r, v, rb, vb, amount, recipient, kind, hcheck, hc, ham, hto, hkind, hcharged,
      hrewarded⟩, rfl⟩
    refine ⟨s, hcheck, hc.verified, hc.current, _, _, ⟨v, hc.validator, hc.active, hc.author, rfl,
      rfl⟩, hc.fresh, recipient, hto, _, _,
      (transfer_ok hw (isSelfTransfer_or_isRecipientValidator hc.verified.address_ne)).mpr
        ⟨r, rb, vb, amount, kind, hc.requester, ham, hkind, hcharged, hrewarded, rfl, rfl⟩, ?_⟩
    simp [putRecipient_ok hkind, putRecipientAgain_ok hkind]
    rfl

end SettlementBus
