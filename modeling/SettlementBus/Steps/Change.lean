import SettlementBus.Steps.Event

/-! What an event does to one account. -/

namespace SettlementBus

open Lib View

variable {env : Env} {w : World} {node : Node} {op : Operation} {type : OperationType}
  {address : Str} {a' : Account}

/-- The account of an address, if it has one. -/
def View.Lookup (view : View) (address : Str) : Option Account → Prop
  | some a => view.Has address a
  | none => Store.get view (.account address) = none

theorem View.Lookup.forall {view : View} {P : Str → Account → Prop} {old : Option Account}
    (h : view.Lookup address old) (hP : View.Forall P view) : ∀ a ∈ old, P address a := by
  rintro a rfl
  exact hP address a h

/-- How a successful operation changes the account of an address. -/
inductive Change (env : Env) (w : World) (node : Node) (op : Operation) (address : Str) :
    OperationType → Option Account → Account → Prop
  | balance {type : OperationType} (a : Account) (b : Balance) :
      Change env w node op address type (some a) { a with balance := b }
  | reader {type : OperationType} (b : Balance)
      (h : type = .transfer ∨ type = .balanceInitialization)
      (hrecipient : op.recipient.account env = some address) :
      Change env w node op address type none (.reader b)
  | addAdmin (e : AddAdminStep env w node op) {old : Option Account}
      (h : address = e.admin.address) : Change env w node op address .addAdmin old e.account
  | appendWhitelist (e : AppendWhitelistStep env w node op) {old : Option Account}
      (h : address = e.target.address) (hold : old = none ∨ old = some e.old) :
      Change env w node op address .appendWhitelist old e.account
  | addWriter (e : AddWriterStep env w node op) (h : address = e.s.requester.address) :
      Change env w node op address .addWriter (some e.r) e.requester
  | removeWriter (e : RemoveWriterStep env w node op) (h : address = e.s.requester.address) :
      Change env w node op address .removeWriter (some e.r) e.requester
  | adminRecovery (e : AdminRecoveryStep env w node op) (h : address = e.s.requester.address) :
      Change env w node op address .adminRecovery (some e.r) e.requester
  | addIndexer (e : AddIndexerStep env w node op) (h : address = e.pretender.address)
      (hne : address ≠ e.requester.address) :
      Change env w node op address .addIndexer (some e.p) e.account
  | removeIndexer (e : RemoveIndexerStep env w node op) (h : address = e.toRemove.address)
      (hne : address ≠ e.requester.address) :
      Change env w node op address .removeIndexer (some e.p) e.account
  | banValidator (e : BanValidatorStep env w node op) (h : address = e.target)
      (hne : address ≠ e.requester.address) :
      Change env w node op address .banValidator (some e.t) e.banned

theorem Change.same (a : Account) : Change env w node op address type (some a) a :=
  .balance a a.balance

/-- An account of the view with another balance. -/
def View.Rebalanced (view : View) (address : Str) (a' : Account) : Prop :=
  ∃ a b, view.Has address a ∧ a' = { a with balance := b }

theorem View.Rebalanced.change (h : w.view.Rebalanced address a') :
    ∃ old, w.view.Lookup address old ∧ Change env w node op address type old a' := by
  obtain ⟨a, b, ha, rfl⟩ := h
  exact ⟨some a, ha, .balance a b⟩

theorem View.has_putAccount {view : View} {t : Str} {payer : Option Account}
    (h : (putAccount view t payer).Has address a') :
    address = t ∧ payer = some a' ∨ view.Has address a' := by
  cases payer with
  | none => exact .inr h
  | some c =>
    simp only [putAccount, has_put_account] at h
    obtain ⟨rfl, rfl⟩ | ⟨-, h⟩ := h
    · exact .inl ⟨rfl, rfl⟩
    · exact .inr h

theorem View.has_putAgain {view : View} {recipient : Str} {kind : TransferCase}
    (h : View.Has (kind.putAgain recipient view) address a') :
    address = recipient ∧ kind = .other a' ∨ view.Has address a' := by
  cases kind with
  | other c =>
    simp only [TransferCase.putAgain, has_put_account] at h
    obtain ⟨rfl, rfl⟩ | ⟨-, h⟩ := h
    · exact .inl ⟨rfl, rfl⟩
    · exact .inr h
  | _ => exact .inr h

theorem View.has_putFirst {view : View} {recipient : Str} {kind : TransferCase} {v : Account}
    (h : View.Has (kind.putFirst recipient v view) address a') :
    address = recipient ∧ (kind = .validator ∨ kind = .other a') ∨ view.Has address a' := by
  cases kind with
  | self => exact .inr h
  | validator =>
    simp only [TransferCase.putFirst, has_put_account] at h
    obtain ⟨rfl, -⟩ | ⟨-, h⟩ := h
    · exact .inl ⟨rfl, .inl rfl⟩
    · exact .inr h
  | other c =>
    simp only [TransferCase.putFirst, has_put_account] at h
    obtain ⟨rfl, rfl⟩ | ⟨-, h⟩ := h
    · exact .inl ⟨rfl, .inr rfl⟩
    · exact .inr h

theorem WhitelistFee.rebalanced {requester : Str} {payer : Option Account}
    (h : WhitelistFee w requester payer) : ∀ c ∈ payer, w.view.Rebalanced requester c := by
  rintro c hc
  cases h with
  | free => cases hc
  | charged _ has =>
    cases hc
    exact ⟨_, _, has, rfl⟩

theorem TxShare.rebalanced {requester validator creator : Str} {v : Account} {vb : Balance}
    {c : Option Account} (h : TxShare w requester validator creator v vb c) :
    ∀ a ∈ c, w.view.Rebalanced creator a := by
  rintro a ha
  cases h with
  | other _ _ has =>
    cases ha
    exact ⟨_, _, has, rfl⟩
  | _ => cases ha

theorem NotWhitelisted.lookup {old : Account} (h : NotWhitelisted w address old) :
    ∃ old', w.view.Lookup address old' ∧ (old' = none ∨ old' = some old) := by
  cases h with
  | new h => exact ⟨none, h, .inl rfl⟩
  | reader h => exact ⟨some old, h, .inr rfl⟩

theorem NotWhitelisted.role_eq {old : Account} (h : NotWhitelisted w address old) :
    old.role = .reader := by
  cases h with
  | new h => rfl
  | reader h hrole => exact hrole

theorem NotWhitelisted.eq_or_has {old : Account} (h : NotWhitelisted w address old) :
    old = .reader balanceZero ∨ w.Has address old := by
  cases h with
  | new h => exact .inl rfl
  | reader h => exact .inr h

theorem Initialized.lookup {amount : Balance} {c : Account} (h : Initialized w address amount c)
    (hrecipient : op.recipient.account env = some address) : ∃ old, w.view.Lookup address old ∧
      Change env w node op address .balanceInitialization old c := by
  cases h with
  | new h => exact ⟨none, h, .reader amount (.inr rfl) hrecipient⟩
  | old h => exact ⟨some _, h, .balance _ _⟩

theorem Credited.lookup {amount : Balance} {c : Account} (h : Credited w address amount c)
    (hrecipient : op.recipient.account env = some address) :
    ∃ old, w.view.Lookup address old ∧ Change env w node op address .transfer old c := by
  cases h with
  | new h => exact ⟨none, h, .reader amount (.inl rfl) hrecipient⟩
  | old h => exact ⟨some _, h, .balance _ _⟩

theorem TransferStep.recipient_eq (e : TransferStep env w node op) (h : e.kind = .validator) :
    e.recipient.address = e.s.validator.address := by
  have hflags := e.flags
  rw [h] at hflags
  have hto : e.s.body.to_ = e.s.completion.va := of_decide_eq_true hflags.2
  have hparty := e.completed.verified.validator
  rw [← hto] at hparty
  rw [Except.ok.inj (e.to_.symm.trans hparty)]

theorem TransferStep.credited (e : TransferStep env w node op) {c : Account}
    (h : e.kind = .other c) : Credited w e.recipient.address e.amount c := by
  have hflags := e.flags
  rw [h] at hflags
  exact hflags.2.2

theorem InitializeBalanceStep.account_recipient (e : InitializeBalanceStep env w node op) :
    op.recipient.account env = some e.recipient.address := by
  obtain ⟨-, -, hv, -⟩ := Check.validateBalanceInitialization_eq_some.mp e.check
  rw [Operation.recipient, hv]
  exact (party_eq_ok.mp e.ia).1

theorem TransferStep.account_recipient (e : TransferStep env w node op) :
    op.recipient.account env = some e.recipient.address := by
  obtain ⟨-, -, ⟨f, hv, -⟩, -⟩ := Check.validateTransferOperation_eq_some.mp e.check
  rw [Operation.recipient, hv]
  exact (party_eq_ok.mp e.to_).1

theorem OperationStep.change (hw : w.WellFormed) (e : OperationStep env w node op type)
    (h : e.result.Has address a') :
    ∃ old, w.view.Lookup address old ∧ Change env w node op address type old a' := by
  cases type with
  | addAdmin =>
    simp [World.Has, OperationStep.result, AddAdminStep.result] at h
    obtain ⟨rfl, rfl⟩ | ⟨-, h⟩ := h
    · cases hget : w.view.get (.account e.admin.address) with
      | none => exact ⟨none, hget, .addAdmin e rfl⟩
      | some v =>
        obtain ⟨a, rfl, ha⟩ := hw.has hget
        exact ⟨some a, ha, .addAdmin e rfl⟩
    · exact ⟨some a', h, .same a'⟩
  | disableInitialization =>
    simp [World.Has, OperationStep.result, DisableInitializationStep.result] at h
    exact ⟨some a', h, .same a'⟩
  | balanceInitialization =>
    simp [World.Has, OperationStep.result, InitializeBalanceStep.result] at h
    obtain ⟨rfl, rfl⟩ | ⟨-, h⟩ := h
    · exact e.initialized.lookup (InitializeBalanceStep.account_recipient e)
    · exact ⟨some a', h, .same a'⟩
  | appendWhitelist =>
    simp [World.Has, OperationStep.result, AppendWhitelistStep.result] at h
    obtain ⟨rfl, rfl⟩ | ⟨-, h⟩ := h
    · obtain ⟨old, hold, heq⟩ := e.notWhitelisted.lookup
      exact ⟨old, hold, .appendWhitelist e rfl heq⟩
    · obtain ⟨rfl, hpayer⟩ | h := View.has_putAccount h
      · exact (e.fee.rebalanced a' hpayer).change
      · exact ⟨some a', h, .same a'⟩
  | addWriter =>
    simp [World.Has, OperationStep.result, AddWriterStep.result] at h
    obtain ⟨rfl, rfl⟩ | ⟨-, ⟨rfl, rfl⟩ | ⟨-, h⟩⟩ := h
    · exact ⟨some e.v, e.completed.validator, .balance _ _⟩
    · exact ⟨some e.r, e.completed.requester, .addWriter e rfl⟩
    · exact ⟨some a', h, .same a'⟩
  | removeWriter =>
    simp [World.Has, OperationStep.result, RemoveWriterStep.result] at h
    obtain ⟨rfl, rfl⟩ | ⟨-, ⟨rfl, rfl⟩ | ⟨-, h⟩⟩ := h
    · exact ⟨some e.v, e.completed.validator, .balance _ _⟩
    · exact ⟨some e.r, e.completed.requester, .removeWriter e rfl⟩
    · exact ⟨some a', h, .same a'⟩
  | adminRecovery =>
    simp [World.Has, OperationStep.result, AdminRecoveryStep.result] at h
    obtain ⟨rfl, rfl⟩ | ⟨-, ⟨rfl, rfl⟩ | ⟨-, h⟩⟩ := h
    · exact ⟨some e.v, e.completed.validator, .balance _ _⟩
    · exact ⟨some e.r, e.completed.requester, .adminRecovery e rfl⟩
    · exact ⟨some a', h, .same a'⟩
  | addIndexer =>
    simp [World.Has, OperationStep.result, AddIndexerStep.result] at h
    obtain ⟨rfl, rfl⟩ | ⟨hne, ⟨rfl, rfl⟩ | ⟨-, h⟩⟩ := h
    · exact ⟨some e.a, e.payer, .balance _ _⟩
    · exact ⟨some e.p, e.has, .addIndexer e rfl hne⟩
    · exact ⟨some a', h, .same a'⟩
  | removeIndexer =>
    simp [World.Has, OperationStep.result, RemoveIndexerStep.result] at h
    obtain ⟨rfl, rfl⟩ | ⟨hne, ⟨rfl, rfl⟩ | ⟨-, h⟩⟩ := h
    · exact ⟨some e.a, e.payer, .balance _ _⟩
    · exact ⟨some e.p, e.has, .removeIndexer e rfl hne⟩
    · exact ⟨some a', h, .same a'⟩
  | banValidator =>
    simp [World.Has, OperationStep.result, BanValidatorStep.result] at h
    obtain ⟨rfl, rfl⟩ | ⟨hne, ⟨rfl, rfl⟩ | ⟨-, h⟩⟩ := h
    · exact ⟨some e.a, e.payer, .balance _ _⟩
    · exact ⟨some e.t, e.has, .banValidator e rfl hne⟩
    · exact ⟨some a', h, .same a'⟩
  | bootstrapDeployment =>
    simp [World.Has, OperationStep.result, BootstrapDeploymentStep.result] at h
    obtain ⟨rfl, rfl⟩ | ⟨-, ⟨rfl, rfl⟩ | ⟨-, h⟩⟩ := h
    · exact ⟨some e.v, e.completed.validator, .balance _ _⟩
    · exact ⟨some e.r, e.completed.requester, .balance _ _⟩
    · exact ⟨some a', h, .same a'⟩
  | tx =>
    simp [World.Has, OperationStep.result, TxStep.result] at h
    obtain ⟨rfl, hc⟩ | h := View.has_putAccount h
    · exact (e.share.rebalanced a' hc).change
    simp at h
    obtain ⟨rfl, rfl⟩ | ⟨-, ⟨rfl, rfl⟩ | ⟨-, h⟩⟩ := h
    · exact ⟨some e.v, e.completed.validator, .balance _ _⟩
    · exact ⟨some e.r, e.completed.requester, .balance _ _⟩
    · exact ⟨some a', h, .same a'⟩
  | transfer =>
    simp [World.Has, OperationStep.result, TransferStep.result] at h
    obtain ⟨rfl, hc⟩ | h := View.has_putAgain h
    · exact (TransferStep.credited e hc).lookup (TransferStep.account_recipient e)
    simp at h
    obtain ⟨rfl, rfl⟩ | ⟨hne, ⟨rfl, rfl⟩ | ⟨-, h⟩⟩ := h
    · exact ⟨some e.v, e.completed.validator, .balance _ _⟩
    · exact ⟨some e.r, e.completed.requester, .balance _ _⟩
    · obtain ⟨rfl, hkind | hkind⟩ | h := View.has_putFirst h
      · exact absurd (TransferStep.recipient_eq e hkind) hne
      · exact (TransferStep.credited e hkind).lookup (TransferStep.account_recipient e)
      · exact ⟨some a', h, .same a'⟩

end SettlementBus
