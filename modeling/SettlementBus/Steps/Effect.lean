import SettlementBus.Steps.Change
import SettlementBus.Steps.Parties

/-! What an operation does to the funds of an account, and which accounts it leaves alone. -/

namespace SettlementBus

open Lib View

variable {env : Env} {w : World} {node : Node} {op : Operation} {type : OperationType} {s : Str}
  {a a' : Account}

/-! ### Funds -/

/-- The amount of a transfer. -/
def Operation.amount (op : Operation) : ℕ :=
  match op.value with
  | some (.tro o _) => Bytes.toNat (o.am.bytes?.getD [])
  | _ => 0

/-- What an operation may take from the balance of its requester. -/
def allowance (type : OperationType) (op : Operation) : ℕ :=
  balanceFee.toNat + match type with
    | .transfer => op.amount
    | .addWriter => balanceToStake.toNat
    | _ => 0

theorem balanceFee_le_allowance : balanceFee.toNat ≤ allowance type op := Nat.le_add_right _ _

theorem allowance_transfer : allowance .transfer op = balanceFee.toNat + op.amount := rfl

/-- How a successful operation changes the funds of an account once the initialization is
disabled. -/
inductive Effect (env : Env) (w : World) (node : Node) (op : Operation) (s : Str) :
    OperationType → Account → Account → Prop
  | gains {type : OperationType} {a : Account} {b : Balance} (h : a.balance.toNat ≤ b.toNat) :
      Effect env w node op s type a { a with balance := b }
  | pays {type : OperationType} {a a' : Account} (h : SignedBy env type op s)
      (cost : a.balance.toNat ≤ a'.balance.toNat + allowance type op)
      (stake : a'.stakedBalance = a.stakedBalance) (hne : type ≠ .addWriter) :
      Effect env w node op s type a a'
  | recast {type : OperationType} {a a' : Account} (balance : a'.balance = a.balance)
      (stake : a'.stakedBalance = a.stakedBalance) : Effect env w node op s type a a'
  | addWriter (e : AddWriterStep env w node op) (h : SignedBy env .addWriter op s) :
      Effect env w node op s .addWriter e.r e.requester
  | removeWriter (e : RemoveWriterStep env w node op) (h : SignedBy env .removeWriter op s) :
      Effect env w node op s .removeWriter e.r e.requester
  | banned (e : BanValidatorStep env w node op) (h : s = e.target) :
      Effect env w node op s .banValidator e.t e.banned

theorem Effect.same : Effect env w node op s type a a := .recast rfl rfl

theorem Effect.fee (h : SignedBy env type op s) {b : Balance}
    (charged : b.toNat + balanceFee.toNat = a.balance.toNat) (hne : type ≠ .addWriter) :
    Effect env w node op s type a { a with balance := b } := by
  refine .pays h ?_ rfl hne
  exact charged.ge.trans (Nat.add_le_add_left balanceFee_le_allowance _)

theorem le_of_eq_add {b c n : ℕ} (h : b = c + n) : c ≤ b := h ▸ Nat.le_add_right c n

/-- The account that the entry of `s` held. -/
theorem View.Has.eq {view : View} {c : Account} (ha : view.Has s a) (hc : view.Has s c) : c = a :=
  hc.unique ha

theorem WhitelistFee.effect {requester : Str} {payer : Option Account}
    (h : WhitelistFee w requester payer) (hs : SignedBy env .appendWhitelist op requester)
    (ha : w.Has requester a) (hpayer : payer = some a') :
    Effect env w node op requester .appendWhitelist a a' := by
  cases h with
  | free => cases hpayer
  | charged _ has charged =>
    cases hpayer
    cases View.Has.eq ha has
    exact .fee hs charged nofun

theorem NotWhitelisted.effect {target : Str} {old : Account} {license : Buffer}
    {hlicense : license.length = licenseByteLength} (h : NotWhitelisted w target old)
    (ha : w.Has target a) :
    Effect env w node op target .appendWhitelist a
      { old with role := .whitelisted, license, length_license := hlicense } := by
  cases h with
  | new h => cases h.symm.trans ha
  | reader has hrole =>
    cases View.Has.eq ha has
    exact .recast rfl rfl

theorem TxShare.effect {requester validator creator : Str} {v : Account} {vb : Balance}
    {c : Option Account} (h : TxShare w requester validator creator v vb c)
    (ha : w.Has creator a) (hc : c = some a') : Effect env w node op creator .tx a a' := by
  cases h with
  | other _ _ has credited =>
    cases hc
    cases View.Has.eq ha has
    exact .gains (le_of_eq_add credited)
  | _ => cases hc

theorem TxShare.rewarded {requester validator creator : Str} {v : Account} {vb : Balance}
    {c : Option Account} (h : TxShare w requester validator creator v vb c) :
    v.balance.toNat ≤ vb.toNat := by
  cases h with
  | requester _ rewarded => exact le_of_eq_add rewarded
  | validator _ _ rewarded => exact le_of_eq_add rewarded
  | other _ _ _ _ rewarded => exact le_of_eq_add rewarded

theorem Credited.effect {amount : Balance} {recipient : Str}
    (h : Credited w recipient amount a') (ha : w.Has recipient a) :
    Effect env w node op recipient .transfer a a' := by
  cases h with
  | new h => cases h.symm.trans ha
  | old h credited =>
    cases View.Has.eq ha h
    exact .gains (le_of_eq_add credited)

theorem TransferStep.deducted_le (e : TransferStep env w node op) :
    e.kind.deducted e.amount ≤ allowance .transfer op := by
  obtain ⟨-, -, ⟨f, hv, -⟩, -⟩ := Check.validateTransferOperation_eq_some.mp e.check
  have hamount : op.amount = e.amount.toNat := by
    rw [Operation.amount, hv]
    exact congrArg Bytes.toNat e.amount_eq.symm
  rw [allowance_transfer, hamount]
  cases e.kind with
  | self => exact Nat.le_add_right _ _
  | validator => exact (Nat.add_comm _ _).le
  | other c => exact (Nat.add_comm _ _).le

theorem TransferCase.le_rewarded (kind : TransferCase) {amount v vb : Balance}
    (h : vb.toNat = v.toNat + kind.rewarded amount) : v.toNat ≤ vb.toNat := le_of_eq_add h

theorem OperationStep.effect (hdis : w.InitializationDisabled)
    (hadd : type ≠ .addAdmin) (e : OperationStep env w node op type) (ha : w.Has s a)
    (ha' : e.result.Has s a') : Effect env w node op s type a a' := by
  have hsigned := e.signedBy
  cases type with
  | addAdmin => exact absurd rfl hadd
  | disableInitialization => exact absurd hdis e.enabled
  | balanceInitialization => exact absurd hdis e.enabled
  | appendWhitelist =>
    simp [World.Has, OperationStep.result, AppendWhitelistStep.result] at ha'
    obtain ⟨rfl, rfl⟩ | ⟨-, ha'⟩ := ha'
    · exact e.notWhitelisted.effect ha
    · obtain ⟨rfl, hpayer⟩ | ha' := View.has_putAccount ha'
      · exact e.fee.effect hsigned ha hpayer
      · cases View.Has.eq ha ha'
        exact .same
  | addWriter =>
    simp [World.Has, OperationStep.result, AddWriterStep.result] at ha'
    obtain ⟨rfl, rfl⟩ | ⟨-, ⟨rfl, rfl⟩ | ⟨-, ha'⟩⟩ := ha'
    · cases View.Has.eq ha e.completed.validator
      exact .gains (le_of_eq_add e.rewarded)
    · cases View.Has.eq ha e.completed.requester
      exact .addWriter e hsigned
    · cases View.Has.eq ha ha'
      exact .same
  | removeWriter =>
    simp [World.Has, OperationStep.result, RemoveWriterStep.result] at ha'
    obtain ⟨rfl, rfl⟩ | ⟨-, ⟨rfl, rfl⟩ | ⟨-, ha'⟩⟩ := ha'
    · cases View.Has.eq ha e.completed.validator
      exact .gains (le_of_eq_add e.rewarded)
    · cases View.Has.eq ha e.completed.requester
      exact .removeWriter e hsigned
    · cases View.Has.eq ha ha'
      exact .same
  | adminRecovery =>
    simp [World.Has, OperationStep.result, AdminRecoveryStep.result] at ha'
    obtain ⟨rfl, rfl⟩ | ⟨-, ⟨rfl, rfl⟩ | ⟨-, ha'⟩⟩ := ha'
    · cases View.Has.eq ha e.completed.validator
      exact .gains (le_of_eq_add e.rewarded)
    · cases View.Has.eq ha e.completed.requester
      refine .pays hsigned ?_ rfl (fun h => by cases h)
      exact e.charged.ge.trans (Nat.add_le_add_left balanceFee_le_allowance _)
    · cases View.Has.eq ha ha'
      exact .same
  | addIndexer =>
    simp [World.Has, OperationStep.result, AddIndexerStep.result] at ha'
    obtain ⟨rfl, rfl⟩ | ⟨-, ⟨rfl, rfl⟩ | ⟨-, ha'⟩⟩ := ha'
    · cases View.Has.eq ha e.payer
      exact .fee hsigned e.charged (fun h => by cases h)
    · cases View.Has.eq ha e.has
      exact .recast rfl rfl
    · cases View.Has.eq ha ha'
      exact .same
  | removeIndexer =>
    simp [World.Has, OperationStep.result, RemoveIndexerStep.result] at ha'
    obtain ⟨rfl, rfl⟩ | ⟨-, ⟨rfl, rfl⟩ | ⟨-, ha'⟩⟩ := ha'
    · cases View.Has.eq ha e.payer
      exact .fee hsigned e.charged (fun h => by cases h)
    · cases View.Has.eq ha e.has
      exact .recast rfl rfl
    · cases View.Has.eq ha ha'
      exact .same
  | banValidator =>
    simp [World.Has, OperationStep.result, BanValidatorStep.result] at ha'
    obtain ⟨rfl, rfl⟩ | ⟨-, ⟨rfl, rfl⟩ | ⟨-, ha'⟩⟩ := ha'
    · cases View.Has.eq ha e.payer
      exact .fee hsigned e.charged (fun h => by cases h)
    · cases View.Has.eq ha e.has
      exact .banned e rfl
    · cases View.Has.eq ha ha'
      exact .same
  | bootstrapDeployment =>
    simp [World.Has, OperationStep.result, BootstrapDeploymentStep.result] at ha'
    obtain ⟨rfl, rfl⟩ | ⟨-, ⟨rfl, rfl⟩ | ⟨-, ha'⟩⟩ := ha'
    · cases View.Has.eq ha e.completed.validator
      exact .gains (le_of_eq_add e.rewarded)
    · cases View.Has.eq ha e.completed.requester
      exact .fee hsigned e.charged (fun h => by cases h)
    · cases View.Has.eq ha ha'
      exact .same
  | tx =>
    simp [World.Has, OperationStep.result, TxStep.result] at ha'
    obtain ⟨rfl, hc⟩ | ha' := View.has_putAccount ha'
    · exact e.share.effect ha hc
    simp at ha'
    obtain ⟨rfl, rfl⟩ | ⟨-, ⟨rfl, rfl⟩ | ⟨-, ha'⟩⟩ := ha'
    · cases View.Has.eq ha e.completed.validator
      exact .gains e.share.rewarded
    · cases View.Has.eq ha e.completed.requester
      exact .fee hsigned e.charged (fun h => by cases h)
    · cases View.Has.eq ha ha'
      exact .same
  | transfer =>
    simp [World.Has, OperationStep.result, TransferStep.result] at ha'
    obtain ⟨rfl, hc⟩ | ha' := View.has_putAgain ha'
    · exact (TransferStep.credited e hc).effect ha
    simp at ha'
    obtain ⟨rfl, rfl⟩ | ⟨hne, ⟨rfl, rfl⟩ | ⟨-, ha'⟩⟩ := ha'
    · cases View.Has.eq ha e.completed.validator
      exact .gains (e.kind.le_rewarded e.rewarded)
    · cases View.Has.eq ha e.completed.requester
      refine .pays hsigned ?_ rfl (fun h => by cases h)
      exact e.charged.ge.trans (Nat.add_le_add_left (TransferStep.deducted_le e) _)
    · obtain ⟨rfl, hkind | hkind⟩ | ha' := View.has_putFirst ha'
      · exact absurd (TransferStep.recipient_eq e hkind) hne
      · exact (TransferStep.credited e hkind).effect ha
      · cases View.Has.eq ha ha'
        exact .same

end SettlementBus
