import SettlementBus.Invariants.Stake
import SettlementBus.Invariants.Admin
import SettlementBus.Properties.Alias
import SettlementBus.Sample

/-! The tokens in circulation. -/

namespace SettlementBus

open Lib View

variable {env : Env} {w w' : World} {node : Node} {op : Operation} {type : OperationType}

/-! ### What an event adds to the total -/

section

variable (env)

/-- The amount that a `BALANCE_INITIALIZATION` sets, minus the balance it replaces. -/
def initializedDelta (w : World) (op : Operation) : ℤ :=
  match op.value with
  | some (.bio o) =>
    (o.am.bytes?.elim 0 Bytes.toNat : ℕ) - ((o.ia.account env).elim 0 w.balance : ℕ)
  | _ => 0

/-- The requester of a `TX` created the subnetwork. -/
def requestedByCreator (w : World) (op : Operation) : Bool :=
  match op.value with
  | some (.txo o _) => o.bs.bytes?.bind (w.creator env) = op.address.account env
  | _ => false

/-- What a successful operation adds to the total. -/
def OperationType.delta (w : World) (op : Operation) : OperationType → ℤ
  | .balanceInitialization => initializedDelta env w op
  | .disableInitialization => 0
  | .addAdmin => Bytes.toNat adminInitialBalance + Bytes.toNat adminInitialStakedBalance
  | .appendWhitelist => if w.InitializationDisabled then -balanceFee.toNat else 0
  | .addIndexer | .removeIndexer | .banValidator => -balanceFee.toNat
  | .tx => if requestedByCreator env w op then -reward50.toNat else -reward25.toNat
  | .addWriter | .removeWriter | .adminRecovery | .bootstrapDeployment | .transfer =>
    -reward25.toNat

def penaltyDelta (w : World) (writingKey : Buffer) (invalidOperations : ℕ) : ℤ :=
  -min (invalidOperations * balanceFee.toNat) ((w.owner env writingKey).elim 0 w.stakedBalance)

def Event.delta (e : Event) : ℤ :=
  match e.cause with
  | .operation _ type op => type.delta env e.before op
  | .penalty key n => penaltyDelta env e.before key n

end

/-- A successful operation does not name one account by different bytes. -/
def Event.AliasFree (e : Event) : Prop :=
  match e.cause with
  | .operation _ _ op => op.AliasFree
  | .penalty .. => True

instance : (e : Event) → Decidable e.AliasFree
  | ⟨_, .operation _ _ op, _⟩ => inferInstanceAs (Decidable op.AliasFree)
  | ⟨_, .penalty .., _⟩ => inferInstanceAs (Decidable True)

theorem Account.total_reader (b : Balance) : (reader b).total = b.toNat := by
  simp [Account.total, reader]

/-! ### The steps -/

section

variable {view : View} {key buffer license : Buffer} {count : Option ℕ}

theorem total_registerKey : View.total (registerKey view key buffer) = view.total := by
  unfold registerKey
  split
  · exact total_put_other rfl
  · rfl

theorem total_assignLicense :
    View.total (assignLicense view buffer license count) = view.total := by
  cases count with
  | none => rfl
  | some n => exact (total_put_other rfl).trans (total_put_other rfl)

end

theorem AddAdminStep.total_eq (hw : w.Founded env) (e : AddAdminStep env w node op) :
    e.result.total = w.total + (balanceAdmin.toNat + balanceToStake.toNat) := by
  cases e.eq_genesis hw
  simp only [World.total, AddAdminStep.result]
  rw [total_put_other rfl, total_put_other rfl, total_put_other rfl, total_put_other rfl,
    total_put_other rfl, total_put_other rfl, total_put_new, total_put_other rfl,
    total_put_other rfl]
  · rfl
  · simp [Store.get_put, genesis]

theorem DisableInitializationStep.total_eq (e : DisableInitializationStep env w node op) :
    e.result.total = w.total := (total_put_other rfl).trans (total_put_other rfl)

theorem PenaltyStep.total_eq {key : Buffer} {n : ℕ} (e : PenaltyStep env w key n) :
    (e.result.total : ℤ) = w.total + penaltyDelta env w key n := by
  have hput := total_put_has (b := e.account) e.has
  have hnew : e.account.total = e.rest.toNat := by simp [Account.total, PenaltyStep.account]
  have hold : e.a.total = e.a.balance.toNat + e.a.stakedBalance.toNat := rfl
  have howner : w.owner env key = some e.validator.address := by
    rw [World.owner, e.registered]
    exact (party_eq_ok.mp e.decoded).1
  have hstake := World.stakedBalance_eq e.has
  have hreleased := e.released
  simp only [penaltyDelta, howner, Option.elim, hstake, World.total, PenaltyStep.result]
  omega

theorem Initialized.total_eq {address : Str} {amount : Balance} {c : Account}
    (h : Initialized w address amount c) :
    View.total (w.view.put (.account address) c.toBuffer) + w.balance address =
      w.total + amount.toNat := by
  cases h with
  | new h =>
    rw [total_put_new h, Account.total_reader, World.balance, h]
    rfl
  | @old a h =>
    have hput := total_put_has (b := { a with balance := amount }) h
    rw [World.balance_eq h]
    simp only [Account.total, World.total] at hput ⊢
    omega

theorem InitializeBalanceStep.total_eq (e : InitializeBalanceStep env w node op) :
    (e.result.total : ℤ) = w.total + initializedDelta env w op := by
  obtain ⟨-, -, hv, -⟩ := Check.validateBalanceInitialization_eq_some.mp e.check
  have ham : Bytes.toNat e.o.am = e.amount.toNat := congrArg Bytes.toNat e.amount_eq.symm
  have hdelta : initializedDelta env w op =
      (e.amount.toNat : ℤ) - w.balance e.recipient.address := by
    simp [initializedDelta, hv, BalanceInitializationOperation.toField, Field.bytes?, Field.account,
      (party_eq_ok.mp e.ia).1, ham]
  have hput := e.initialized.total_eq
  rw [hdelta]
  simp only [World.total, InitializeBalanceStep.result, total_put_other (k := .record _) rfl]
    at hput ⊢
  omega

/-- Puts of two different accounts, with puts of other entries in between. -/
theorem total_put_two (a' b' : Account) {view view' : View} {s t : Str} {a b : Account}
    (ha : view.Has s a)
    (hb : view'.Has t b) (h : view'.total = View.total (view.put (.account s) a'.toBuffer)) :
    View.total (view'.put (.account t) b'.toBuffer) + (a.total + b.total) =
      view.total + (a'.total + b'.total) := by
  have hput := total_put_has (b := a') ha
  have hput' := total_put_has (b := b') hb
  omega

/-- The fee leaves the requester and three quarters of it reach the validator. -/
theorem total_put_signers (r' : Account) {s t : Str} {r v v' : Account} {tx : Buffer}
    {view view' : View}
    (htotal : view.total = w.view.total) (hs : view.Has s r) (ht : view'.Has t v)
    (hview : view'.total = View.total (view.put (.account s) r'.toBuffer))
    (hr : r'.total + balanceFee.toNat = r.total) (hv : v'.total = v.total + reward75.toNat) :
    (View.total ((view'.put (.account t) v'.toBuffer).put (.record tx) node.value) : ℤ) =
      w.total - reward25.toNat := by
  have hput := total_put_two r' v' hs ht hview
  rw [total_put_other rfl]
  simp only [toNat_balanceFee, toNat_reward75, toNat_reward25, World.total] at *
  omega

theorem Account.total_with_balance {a : Account} {b : Balance} {n : ℕ}
    (h : b.toNat = a.balance.toNat + n) : { a with balance := b }.total = a.total + n := by
  simp only [Account.total]
  omega

theorem AddWriterStep.total_eq (hs : w.Staked) (e : AddWriterStep env w node op)
    (hne : e.s.requester.address ≠ e.s.validator.address) :
    (e.result.total : ℤ) = w.total - reward25.toNat := by
  have hstaked : e.r.stakedBalance.toNat = 0 := by
    have := hs _ _ e.completed.requester
    simp only [Account.Staked, e.role, NodeRole.isWriter] at this
    rw [this]
    rfl
  have hcharged := e.charged
  refine total_put_signers e.requester rfl e.completed.requester
    (by simpa [hne.symm] using e.completed.validator) ?_ ?_ (Account.total_with_balance e.rewarded)
  · rw [total_put_other rfl, total_put_other rfl, total_registerKey]
  · simp only [Account.total, AddWriterStep.requester]
    omega

theorem RemoveWriterStep.total_eq (e : RemoveWriterStep env w node op)
    (hne : e.s.requester.address ≠ e.s.validator.address) :
    (e.result.total : ℤ) = w.total - reward25.toNat := by
  have hcharged := e.charged
  refine total_put_signers e.requester rfl e.completed.requester
    (by simpa [hne.symm] using e.completed.validator) rfl ?_ (Account.total_with_balance e.rewarded)
  simp only [Account.total, RemoveWriterStep.requester, toNat_balanceZero]
  omega

theorem AdminRecoveryStep.total_eq (e : AdminRecoveryStep env w node op)
    (hne : e.s.requester.address ≠ e.s.validator.address) :
    (e.result.total : ℤ) = w.total - reward25.toNat := by
  have hcharged := e.charged
  refine total_put_signers e.requester ((total_put_other rfl).trans (total_put_other rfl))
    (by simpa using e.completed.requester) (by simpa [hne.symm] using e.completed.validator) rfl ?_
    (Account.total_with_balance e.rewarded)
  simp only [Account.total, AdminRecoveryStep.requester]
  omega

theorem BootstrapDeploymentStep.total_eq (e : BootstrapDeploymentStep env w node op)
    (hne : e.s.requester.address ≠ e.s.validator.address) :
    (e.result.total : ℤ) = w.total - reward25.toNat := by
  have hcharged := e.charged
  refine total_put_signers e.requester (total_put_other rfl)
    (by simpa using e.completed.requester) (by simpa [hne.symm] using e.completed.validator) rfl ?_
    (Account.total_with_balance e.rewarded)
  simp only [Account.total, BootstrapDeploymentStep.requester]
  omega

/-- The fee leaves the admin's account, whose entry is put after the one of the target. -/
theorem total_put_admin {s t : Str} {p p' a : Account} {b : Balance} {view : View}
    (hp : view.Has t p) (hp' : p'.total = p.total) (ha : view.Has s a)
    (hcharged : b.toNat + balanceFee.toNat = a.balance.toNat) :
    View.total ((view.put (.account t) p'.toBuffer).put (.account s)
      { a with balance := b }.toBuffer) + balanceFee.toNat = view.total := by
  have hput := total_put_has (b := p') hp
  by_cases hst : s = t
  · subst hst
    cases ha.unique hp
    have hnew : View.Has (view.put (.account s) p'.toBuffer) s p' := by simp
    have hput' := total_put_has (b := { p with balance := b }) hnew
    simp only [Account.total] at *
    omega
  · have hput' := total_put_has (b := { a with balance := b })
      (show View.Has (view.put (.account t) p'.toBuffer) s a by simp [hst, ha])
    simp only [Account.total] at *
    omega

theorem AddIndexerStep.total_eq (e : AddIndexerStep env w node op) :
    e.result.total + balanceFee.toNat = w.total := by
  rw [World.total, AddIndexerStep.result, total_put_other rfl]
  exact total_put_admin e.has rfl e.payer e.charged

theorem RemoveIndexerStep.total_eq (e : RemoveIndexerStep env w node op) :
    e.result.total + balanceFee.toNat = w.total := by
  have hview : View.total ((w.view.put (.writersIndex e.length) e.o.ia).put .writersLength e.next) =
      w.view.total := (total_put_other rfl).trans (total_put_other rfl)
  rw [World.total, RemoveIndexerStep.result, total_put_other rfl, World.total, ← hview]
  exact total_put_admin (p := e.p) (by simpa using e.has) rfl (by simpa using e.payer) e.charged

theorem Banned.total_eq {t banned : Account} (h : Banned t banned) : banned.total = t.total := by
  cases h with
  | whitelisted => rfl
  | writer _ _ hreleased =>
    simp only [Account.total, toNat_balanceZero]
    omega

theorem BanValidatorStep.total_eq (e : BanValidatorStep env w node op) :
    e.result.total + balanceFee.toNat = w.total := by
  rw [World.total, BanValidatorStep.result, total_put_other rfl]
  exact total_put_admin e.has e.ban.total_eq e.payer e.charged

theorem WhitelistFee.total_eq {requester : Str} {payer : Option Account}
    (h : WhitelistFee w requester payer) :
    View.total (putAccount w.view requester payer) +
      (if w.InitializationDisabled then balanceFee.toNat else 0) = w.total := by
  cases h with
  | free h =>
    rw [if_neg h]
    rfl
  | @charged a b h has hcharged =>
    have hput := total_put_has (b := { a with balance := b }) has
    rw [if_pos h]
    simp only [putAccount, Account.total, World.total] at hput ⊢
    omega

theorem NotWhitelisted.total_put {address : Str} {old new : Account} {view : View}
    (h : NotWhitelisted w address old)
    (hget : view.get (.account address) = w.view.get (.account address))
    (hnew : new.total = old.total) :
    View.total (view.put (.account address) new.toBuffer) = view.total := by
  cases h with
  | new h =>
    rw [total_put_new (hget.trans h), hnew, Account.total_reader]
    rfl
  | reader h =>
    have hput := total_put_has (b := new) (show view.Has address old from hget.trans h)
    omega

/-- The admin has been whitelisted, so it never whitelists itself. -/
theorem AppendWhitelistStep.target_ne (h1 : env.crypto.OneAddressPerKey)
    (hw : w.Administered env) (e : AppendWhitelistStep env w node op) :
    e.target.address ≠ e.requester.address := by
  obtain rfl | ⟨s, ⟨wk, hadm⟩, a, ha, hrole⟩ := hw
  · exact absurd e.signed.admin not_adminIs_genesis
  intro heq
  rw [hadm.address_eq h1 e.signed.decoded e.signed.admin] at heq
  have hold := e.notWhitelisted
  rw [heq] at hold
  obtain ⟨old, hlookup, rfl | rfl⟩ := hold.lookup
  · cases hlookup.symm.trans ha
  · cases View.Has.unique hlookup ha
    exact hrole hold.role_eq

theorem AppendWhitelistStep.total_eq (h1 : env.crypto.OneAddressPerKey)
    (hw : w.Administered env) (e : AppendWhitelistStep env w node op) :
    e.result.total + (if w.InitializationDisabled then balanceFee.toNat else 0) = w.total := by
  have hne : EntryKey.account e.target.address ≠ .account e.requester.address := by
    simpa using e.target_ne h1 hw
  have hget : (assignLicense (putAccount w.view e.requester.address e.payer) e.o.ia e.license
      e.count).get (.account e.target.address) = w.view.get (.account e.target.address) := by
    refine Eq.trans ?_ (get_putAccount (c := e.payer) hne)
    cases e.count <;> simp [assignLicense, Store.get_put]
  have hnew : e.account.total = e.old.total := rfl
  rw [World.total, AppendWhitelistStep.result, total_put_other rfl,
    e.notWhitelisted.total_put hget hnew, total_assignLicense]
  exact e.fee.total_eq

section

variable {s t : Str} {r v r' : Account} {vb : Balance} (hne : s ≠ t) (hs : w.Has s r)
  (ht : w.Has t v)

include hne hs ht

theorem TxShare.total_eq {creator : Str} {c : Option Account} (h : TxShare w s t creator v vb c)
    (hr : r'.total + balanceFee.toNat = r.total) :
    View.total (putAccount ((w.view.put (.account s) r'.toBuffer).put (.account t)
      { v with balance := vb }.toBuffer) creator c) +
        (if s = creator then reward50.toNat else reward25.toNat) = w.total := by
  have hput := total_put_two r' { v with balance := vb } hs
    (show View.Has (w.view.put (.account s) r'.toBuffer) t v by simpa [hne.symm] using ht) rfl
  have h75 := reward75_add_reward25
  have h50 := reward50_add_reward25
  have h25 := reward25_add_reward25
  rw [World.total]
  cases h with
  | requester h hrewarded =>
    rw [Account.total_with_balance hrewarded] at hput
    rw [if_pos h, putAccount_none]
    omega
  | validator hne' h hrewarded =>
    rw [Account.total_with_balance hrewarded] at hput
    rw [if_neg hne', putAccount_none]
    omega
  | @other cb c hne' hne'' has hcredited hrewarded =>
    rw [Account.total_with_balance hrewarded] at hput
    have hput' := total_put_has (b := { c with balance := cb })
      (show View.Has ((w.view.put (.account s) r'.toBuffer).put (.account t)
        { v with balance := vb }.toBuffer) creator c by simp [hne'.symm, hne''.symm, has])
    rw [Account.total_with_balance hcredited] at hput'
    rw [if_neg hne', putAccount_some]
    omega

end

theorem TxStep.total_eq (e : TxStep env w node op)
    (hne : e.s.requester.address ≠ e.s.validator.address) :
    e.result.total + (if e.s.requester.address = e.creator then reward50.toNat
      else reward25.toNat) = w.total := by
  have hcharged := e.charged
  rw [World.total, TxStep.result, total_put_other rfl]
  refine e.share.total_eq hne e.completed.requester e.completed.validator ?_
  simp only [Account.total, TxStep.requester]
  omega

theorem Credited.total_eq {address : Str} {amount : Balance} {c : Account}
    (h : Credited w address amount c) :
    View.total (w.view.put (.account address) c.toBuffer) = w.total + amount.toNat := by
  cases h with
  | new h => rw [total_put_new h, Account.total_reader, World.total]
  | @old a b h hcredited =>
    have hput := total_put_has (b := { a with balance := b }) h
    rw [Account.total_with_balance hcredited] at hput
    rw [World.total]
    omega

section

variable {s t recipient : Str} {r r' v v' : Account} {amount : Balance} {kind : TransferCase}
  {isSelf isValidator : Bool} (hne : s ≠ t) (hs : w.Has s r) (ht : w.Has t v)

include hne hs ht

theorem TransferCase.total_eq (hflags : kind.Flags w recipient amount isSelf isValidator)
    (hvalidator : kind = .validator → recipient = t)
    (hother : ∀ c, kind = .other c → recipient ≠ s ∧ recipient ≠ t)
    (hr : r'.total + kind.deducted amount = r.total)
    (hv : v'.total = v.total + kind.rewarded amount) :
    View.total (kind.putAgain recipient (((kind.putFirst recipient v' w.view).put (.account s)
      r'.toBuffer).put (.account t) v'.toBuffer)) + reward25.toNat = w.total := by
  have h75 := reward75_add_reward25
  cases kind with
  | self =>
    have hput := total_put_two r' v' hs
      (show View.Has (w.view.put (.account s) r'.toBuffer) t v by simpa [hne.symm] using ht) rfl
    have hr : r'.total + balanceFee.toNat = r.total := hr
    have hv : v'.total = v.total + reward75.toNat := hv
    show View.total ((w.view.put _ _).put _ _) + _ = View.total w.view
    omega
  | validator =>
    cases hvalidator rfl
    have hfirst := total_put_has (b := v') ht
    have hput := total_put_two r' v'
      (show View.Has (w.view.put (.account t) v'.toBuffer) s r by simpa [hne] using hs)
      (show View.Has ((w.view.put (.account t) v'.toBuffer).put (.account s) r'.toBuffer) t v' by
        simp [hne.symm]) rfl
    have hr : r'.total + (amount.toNat + balanceFee.toNat) = r.total := hr
    have hv : v'.total = v.total + (amount.toNat + reward75.toNat) := hv
    show View.total (((w.view.put _ _).put _ _).put _ _) + _ = View.total w.view
    omega
  | other c =>
    obtain ⟨hrs, hrt⟩ := hother c rfl
    obtain ⟨-, -, hc⟩ := hflags
    have hfirst := hc.total_eq
    have hput := total_put_two r' v'
      (show View.Has (w.view.put (.account recipient) c.toBuffer) s r by
        simpa [hrs.symm] using hs)
      (show View.Has ((w.view.put (.account recipient) c.toBuffer).put (.account s)
        r'.toBuffer) t v by
        simpa [hne.symm, hrt.symm] using ht) rfl
    have hagain := total_put_has (b := c)
      (show View.Has (((w.view.put (.account recipient) c.toBuffer).put (.account s)
        r'.toBuffer).put (.account t) v'.toBuffer) recipient c by simp [hrs, hrt])
    have hr : r'.total + (amount.toNat + balanceFee.toNat) = r.total := hr
    have hv : v'.total = v.total + reward75.toNat := hv
    rw [World.total] at hfirst
    show View.total ((((w.view.put _ _).put _ _).put _ _).put _ _) + _ = View.total w.view
    omega

end

theorem TransferStep.total_eq (e : TransferStep env w node op) (h : op.AliasFree) :
    e.result.total + reward25.toNat = w.total := by
  obtain ⟨hva, hto, htova⟩ := (aliasFree_iff_three (addresses_transfer e.check)).mp h
  have hreq := party_address e.completed.verified.requester
  have hval := party_address e.completed.verified.validator
  have hrec := party_address e.to_
  have hne : e.s.requester.address ≠ e.s.validator.address := by
    rw [← hreq, ← hval]
    exact fun heq => e.completed.verified.address_ne (hva heq)
  have hcharged := e.charged
  rw [World.total, TransferStep.result, total_put_other rfl]
  refine TransferCase.total_eq hne e.completed.requester e.completed.validator e.flags
    e.recipient_eq (fun c hc => ?_) ?_ (Account.total_with_balance e.rewarded)
  · have hflags := e.flags
    rw [hc] at hflags
    obtain ⟨hself, hvalidator, -⟩ := hflags
    simp only [isSelfTransfer, isRecipientValidator, Bool.not_eq_true', decide_eq_false_iff_not]
      at hself hvalidator
    rw [← hreq, ← hval, ← hrec]
    exact ⟨fun heq => hself (hto heq.symm), fun heq => hvalidator (htova heq)⟩
  · simp only [Account.total, TransferStep.requester]
    omega

theorem TxStep.requestedByCreator_iff (e : TxStep env w node op) :
    requestedByCreator env w op = true ↔ e.s.requester.address = e.creator := by
  obtain ⟨-, ha, ⟨f, hv, -⟩, -⟩ := Check.validateTransactionOperation_eq_some.mp e.check
  obtain ⟨buffer, entry, hbuf, hdec, hcreator⟩ := e.deployed
  have hreq := (party_eq_ok.mp e.completed.verified.requester).1
  simp [requestedByCreator, hv, ha, TxOperation.toField, Field.bytes?, Field.account, hreq,
    World.creator, hbuf, hdec, hcreator, eq_comm]

theorem OperationStep.total_eq (h1 : env.crypto.OneAddressPerKey) (hfounded : w.Founded env)
    (hadmin : w.Administered env) (hstaked : w.Staked) (e : OperationStep env w node op type)
    (h : op.AliasFree) : (e.result.total : ℤ) = w.total + type.delta env w op := by
  cases type with
  | addAdmin =>
    have htotal := AddAdminStep.total_eq hfounded e
    rw [OperationStep.result, htotal]
    rfl
  | disableInitialization =>
    rw [OperationStep.result, DisableInitializationStep.total_eq e]
    exact (add_zero _).symm
  | balanceInitialization => exact InitializeBalanceStep.total_eq e
  | appendWhitelist =>
    have htotal := AppendWhitelistStep.total_eq h1 hadmin e
    rw [OperationStep.result, OperationType.delta]
    by_cases hdisabled : w.InitializationDisabled
    · rw [if_pos hdisabled] at htotal ⊢
      omega
    · rw [if_neg hdisabled] at htotal ⊢
      omega
  | addWriter =>
    exact AddWriterStep.total_eq hstaked e
      ((Completed.address_ne_iff e.completed (addresses_roleAccess e.check)).mpr h)
  | removeWriter =>
    exact RemoveWriterStep.total_eq e
      ((Completed.address_ne_iff e.completed (addresses_roleAccess e.check)).mpr h)
  | adminRecovery =>
    exact AdminRecoveryStep.total_eq e
      ((Completed.address_ne_iff e.completed (addresses_roleAccess e.check)).mpr h)
  | addIndexer =>
    have htotal := AddIndexerStep.total_eq e
    rw [OperationStep.result, OperationType.delta]
    omega
  | removeIndexer =>
    have htotal := RemoveIndexerStep.total_eq e
    rw [OperationStep.result, OperationType.delta]
    omega
  | banValidator =>
    have htotal := BanValidatorStep.total_eq e
    rw [OperationStep.result, OperationType.delta]
    omega
  | bootstrapDeployment =>
    exact BootstrapDeploymentStep.total_eq e
      ((Completed.address_ne_iff e.completed (addresses_bootstrapDeployment e.check)).mpr h)
  | tx =>
    have htotal := TxStep.total_eq e
      ((Completed.address_ne_iff e.completed (addresses_tx e.check)).mpr h)
    rw [OperationStep.result, OperationType.delta]
    by_cases hcreator : e.s.requester.address = e.creator
    · rw [if_pos hcreator] at htotal
      rw [if_pos ((TxStep.requestedByCreator_iff e).mpr hcreator)]
      omega
    · rw [if_neg hcreator] at htotal
      rw [if_neg fun h => hcreator ((TxStep.requestedByCreator_iff e).mp h)]
      omega
  | transfer =>
    have htotal := TransferStep.total_eq e h
    rw [OperationStep.result, OperationType.delta]
    omega

theorem Event.Step.total_eq (h1 : env.crypto.OneAddressPerKey) {e : Event} (hs : e.Step env)
    (hfounded : e.before.Founded env) (hadmin : e.before.Administered env)
    (hstaked : e.before.Staked) (h : e.AliasFree) :
    (e.after.total : ℤ) = e.before.total + e.delta env := by
  cases hs with
  | operation hdec s => exact s.total_eq h1 hfounded hadmin hstaked h
  | penalty hpos hn s => exact s.total_eq

/-- Along a path of events without aliases the total changes by what the events add. -/
theorem Path.total_eq (h1 : env.crypto.OneAddressPerKey) {es : List Event} (hp : Path env w es w')
    (hwf : w.WellFormed) (hfounded : w.Founded env) (hadmin : w.Administered env)
    (hstaked : w.Staked) (h : ∀ e ∈ es, e.AliasFree) :
    (w'.total : ℤ) = w.total + (es.map (Event.delta env)).sum := by
  induction hp with
  | nil => simp
  | cons hs _ ih =>
    have hstep := hs.total_eq h1 hfounded hadmin hstaked (h _ List.mem_cons_self)
    have hrest := ih (hs.wellFormed hwf) (hs.founded hfounded) (hs.administered h1 hwf hadmin)
      (hs.staked hwf hstaked) fun e he => h e (List.mem_cons_of_mem _ he)
    rw [hrest, hstep, List.map_cons, List.sum_cons, add_assoc]

/-- A batch changes the tokens in circulation by what its events add. -/
theorem total_apply (h1 : env.crypto.OneAddressPerKey) {nodes : List Node} (hw : Reachable env w)
    (happly : apply env nodes w = some w') (h : ∀ e ∈ events env nodes w, e.AliasFree) :
    (w'.total : ℤ) = w.total + ((events env nodes w).map (Event.delta env)).sum :=
  (apply_path hw.wellFormed happly).total_eq h1 hw.wellFormed hw.visited.founded
    (hw.visited.administered h1) hw.visited.staked h

namespace Sample

/-- A batch with a transfer and a penalty. -/
theorem total_apply_penalized : (penalized.total : ℤ) = paid.total +
    ((events network penalizedNodes paid).map (Event.delta network)).sum :=
  total_apply oneAddressPerKey reachable_paid apply_penalized (by decide +kernel)

/-- The admin pays Alice and validates the payment itself, under an address with a high bit. -/
def aliasPaid : World := network.after [block bootstrap payAliasOp] founded

theorem aliasPaid_facts :
    (apply network [block bootstrap payAliasOp] founded).isSome ∧
    (aliasPaid.total : ℤ) ≠ founded.total +
      ((events network [block bootstrap payAliasOp] founded).map (Event.delta network)).sum := by
  decide +kernel

/-- The credit of the validator brings back what the requester paid. -/
theorem total_apply_aliasPaid : Reachable network founded ∧
    apply network [block bootstrap payAliasOp] founded = some aliasPaid ∧
    (aliasPaid.total : ℤ) ≠ founded.total +
      ((events network [block bootstrap payAliasOp] founded).map (Event.delta network)).sum :=
  ⟨reachable_founded, Env.apply_eq_after aliasPaid_facts.1, aliasPaid_facts.2⟩

end Sample

end SettlementBus
