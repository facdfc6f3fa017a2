import SettlementBus.Steps.Event

/-! What the steps leave as it is. -/

namespace SettlementBus

open Lib View

variable {env : Env} {w : World} {node : Node} {op : Operation} {type : OperationType}

/-! ### Nothing is removed -/

abbrev View.Present (view : View) (k : EntryKey) : Prop := (Store.get view k).isSome

theorem View.Present.put {view : View} {k k' : EntryKey} {v : Buffer} (h : Present view k) :
    Present (view.put k' v) k := by
  rw [Present, Store.get_put]
  split
  · rfl
  · exact h

section

variable {view : View} {k : EntryKey} (h : Present view k) {key buffer license : Buffer}
  {address : Str} {payer : Option Account} {count : Option ℕ} {kind : TransferCase} {v : Account}

include h

theorem View.Present.registerKey : Present (registerKey view key buffer) k := by
  unfold SettlementBus.registerKey
  split
  · exact h.put
  · exact h

theorem View.Present.putAccount : Present (putAccount view address payer) k := by
  cases payer with
  | none => exact h
  | some c => exact h.put

theorem View.Present.assignLicense : Present (assignLicense view buffer license count) k := by
  cases count with
  | none => exact h
  | some n => exact h.put.put

theorem View.Present.putFirst : Present (kind.putFirst address v view) k := by
  cases kind with
  | self => exact h
  | _ => exact h.put

theorem View.Present.putAgain : Present (kind.putAgain address view) k := by
  cases kind with
  | other c => exact h.put
  | _ => exact h

end

theorem OperationStep.present {k : EntryKey} (h : w.view.Present k)
    (e : OperationStep env w node op type) : e.result.view.Present k := by
  cases type <;>
    apply_rules [View.Present.put, View.Present.registerKey, View.Present.putAccount,
      View.Present.assignLicense, View.Present.putFirst, View.Present.putAgain]

theorem Event.Step.present {e : Event} (hs : e.Step env) {k : EntryKey}
    (h : e.before.view.Present k) : e.after.view.Present k := by
  cases hs with
  | operation hdec s => exact s.present h
  | penalty hpos hn s => exact View.Present.put h

/-! ### Other entries than the account that a put is for -/

section Frame

variable {view : View} {k : EntryKey} {address : Str} {kind : TransferCase} {v : Account}

theorem ne_account (hk : k.isAccount = false) : k ≠ .account address := (View.account_ne hk).symm

theorem get_putFirst (hk : k ≠ .account address) :
    Store.get (kind.putFirst address v view) k = Store.get view k := by
  cases kind with
  | self => rfl
  | _ => exact Store.get_put_ne _ _ hk

theorem get_putAgain (hk : k ≠ .account address) :
    Store.get (kind.putAgain address view) k = Store.get view k := by
  cases kind with
  | other c => exact Store.get_put_ne _ _ hk
  | _ => rfl

end Frame

/-! ### What a type writes -/

/-- The entries an operation of the type may put. -/
def OperationType.writes (type : OperationType) : EntryKey → Bool
  | .account _ | .record _ => true
  | .admin => type ∈ [addAdmin, adminRecovery]
  | .initialization => type ∈ [addAdmin, disableInitialization]
  | .licenseCount | .licenseIndex _ => type ∈ [addAdmin, appendWhitelist]
  | .writersLength | .writersIndex _ => type ∈ [addAdmin, addWriter, removeIndexer]
  | .writerAddress _ => type ∈ [addAdmin, addWriter, adminRecovery]
  | .deployment _ => type = bootstrapDeployment

theorem get_assignLicense {view : View} {address license : Buffer} {count : Option ℕ} {k : EntryKey}
    (hk : k ≠ .licenseCount) (hk' : ∀ n, k ≠ .licenseIndex n) :
    Store.get (assignLicense view address license count) k = Store.get view k := by
  cases count with
  | none => rfl
  | some n => rw [assignLicense, Store.get_put_ne _ _ (hk' _), Store.get_put_ne _ _ hk]

/-- An operation leaves the entries that its type does not write. -/
theorem OperationStep.get_eq (e : OperationStep env w node op type) {k : EntryKey}
    (hk : type.writes k = false) : e.result.view.get k = w.view.get k := by
  have hne : ∀ k', type.writes k' → k ≠ k' := by
    rintro k' hk' rfl
    cases hk.symm.trans hk'
  have hacc : k.isAccount = false := by
    cases k <;> first | rfl | cases hk
  cases type with
  | addAdmin =>
    simp only [OperationStep.result, AddAdminStep.result]
    iterate 9 rw [Store.get_put_ne _ _ (hne _ rfl)]
  | disableInitialization =>
    simp only [OperationStep.result, DisableInitializationStep.result]
    iterate 2 rw [Store.get_put_ne _ _ (hne _ rfl)]
  | balanceInitialization =>
    simp only [OperationStep.result, InitializeBalanceStep.result]
    iterate 2 rw [Store.get_put_ne _ _ (hne _ rfl)]
  | appendWhitelist =>
    simp only [OperationStep.result, AppendWhitelistStep.result]
    iterate 2 rw [Store.get_put_ne _ _ (hne _ rfl)]
    rw [get_assignLicense (hne _ rfl) (fun _ => hne _ rfl), get_putAccount (ne_account hacc)]
  | addWriter =>
    simp only [OperationStep.result, AddWriterStep.result]
    iterate 4 rw [Store.get_put_ne _ _ (hne _ rfl)]
    rw [get_registerKey, if_neg (fun h => hne _ rfl h.1), Store.get_put_ne _ _ (hne _ rfl)]
  | removeWriter =>
    simp only [OperationStep.result, RemoveWriterStep.result]
    iterate 3 rw [Store.get_put_ne _ _ (hne _ rfl)]
  | adminRecovery =>
    simp only [OperationStep.result, AdminRecoveryStep.result]
    iterate 5 rw [Store.get_put_ne _ _ (hne _ rfl)]
  | addIndexer =>
    simp only [OperationStep.result, AddIndexerStep.result]
    iterate 3 rw [Store.get_put_ne _ _ (hne _ rfl)]
  | removeIndexer =>
    simp only [OperationStep.result, RemoveIndexerStep.result]
    iterate 5 rw [Store.get_put_ne _ _ (hne _ rfl)]
  | banValidator =>
    simp only [OperationStep.result, BanValidatorStep.result]
    iterate 3 rw [Store.get_put_ne _ _ (hne _ rfl)]
  | bootstrapDeployment =>
    simp only [OperationStep.result, BootstrapDeploymentStep.result]
    iterate 4 rw [Store.get_put_ne _ _ (hne _ rfl)]
  | tx =>
    simp only [OperationStep.result, TxStep.result]
    rw [Store.get_put_ne _ _ (hne _ rfl), get_putAccount (ne_account hacc)]
    iterate 2 rw [Store.get_put_ne _ _ (hne _ rfl)]
  | transfer =>
    simp only [OperationStep.result, TransferStep.result]
    rw [Store.get_put_ne _ _ (hne _ rfl), get_putAgain (ne_account hacc)]
    iterate 2 rw [Store.get_put_ne _ _ (hne _ rfl)]
    exact get_putFirst (ne_account hacc)

theorem OperationStep.get_admin (e : OperationStep env w node op type) (h : type ≠ .addAdmin)
    (h' : type ≠ .adminRecovery) : e.result.view.get .admin = w.view.get .admin :=
  e.get_eq (by simp [OperationType.writes, h, h'])

theorem PenaltyStep.get_eq {key : Buffer} {n : ℕ} (e : PenaltyStep env w key n) {k : EntryKey}
    (hk : k.isAccount = false) : e.result.view.get k = w.view.get k :=
  Store.get_put_ne _ _ (View.account_ne hk).symm

/-! ### Entries that are written once -/

/-- The entries that are written once. -/
def EntryKey.isPermanent : EntryKey → Bool
  | writerAddress _ | deployment _ | record _ => true
  | _ => false

theorem get_put_of_get {view : View} {k k' : EntryKey} {b v : Buffer}
    (h : Store.get view k = some b)
    (hne : k ≠ k') : Store.get (view.put k' v) k = some b := (Store.get_put_ne _ _ hne).trans h

section

variable {view : View} {k : EntryKey} {b : Buffer} (hk : k.isPermanent)
  (h : Store.get view k = some b)

include hk

theorem isAccount_of_isPermanent : k.isAccount = false := by
  cases k <;> first | rfl | cases hk

theorem ne_of_isPermanent {k' : EntryKey} (hk' : k'.isPermanent = false) : k ≠ k' := by
  rintro rfl
  cases hk.symm.trans hk'

include h

theorem get_put_permanent {k' : EntryKey} {v : Buffer} (hk' : k'.isPermanent = false) :
    Store.get (view.put k' v) k = some b := get_put_of_get h (ne_of_isPermanent hk hk')

omit hk in
theorem get_registerKey_permanent {key buffer : Buffer} :
    Store.get (registerKey view key buffer) k = some b := by
  rw [get_registerKey, if_neg, h]
  rintro ⟨-, hnone⟩
  cases hnone.symm.trans h

theorem get_assignLicense_permanent {address license : Buffer} {count : Option ℕ} :
    Store.get (assignLicense view address license count) k = some b := by
  cases count with
  | none => exact h
  | some n => exact get_put_permanent hk (get_put_permanent hk h rfl) rfl

end

theorem OperationStep.get_permanent (e : OperationStep env w node op type) {k : EntryKey}
    {b : Buffer} (hk : k.isPermanent) (h : w.view.get k = some b) :
    e.result.view.get k = some b := by
  have fresh : ∀ {k' : EntryKey}, w.view.get k' = none → k ≠ k' := by
    rintro k' hnone rfl
    cases hnone.symm.trans h
  cases type with
  | addAdmin =>
    refine get_put_of_get ?_ (fresh e.fresh)
    iterate 4 refine get_put_permanent hk ?_ rfl
    refine get_put_of_get ?_ (fresh e.unregistered)
    iterate 3 refine get_put_permanent hk ?_ rfl
    exact h
  | disableInitialization =>
    exact get_put_of_get (get_put_permanent hk h rfl) (fresh e.signed.fresh)
  | balanceInitialization =>
    exact get_put_of_get (get_put_permanent hk h rfl) (fresh e.signed.fresh)
  | appendWhitelist =>
    refine get_put_of_get (get_put_permanent hk ?_ rfl) (fresh e.signed.fresh)
    exact get_assignLicense_permanent hk
      ((get_putAccount (ne_account (isAccount_of_isPermanent hk))).trans h)
  | addWriter =>
    refine get_put_of_get ?_ (fresh e.completed.fresh)
    iterate 3 refine get_put_permanent hk ?_ rfl
    exact get_registerKey_permanent (get_put_permanent hk h rfl)
  | removeWriter =>
    refine get_put_of_get ?_ (fresh e.completed.fresh)
    exact get_put_permanent hk (get_put_permanent hk h rfl) rfl
  | adminRecovery =>
    refine get_put_of_get ?_ (fresh e.completed.fresh)
    iterate 3 refine get_put_permanent hk ?_ rfl
    exact get_put_of_get h (fresh e.unregistered)
  | addIndexer =>
    refine get_put_of_get ?_ (fresh e.signed.fresh)
    exact get_put_permanent hk (get_put_permanent hk h rfl) rfl
  | removeIndexer =>
    refine get_put_of_get ?_ (fresh e.signed.fresh)
    iterate 4 refine get_put_permanent hk ?_ rfl
    exact h
  | banValidator =>
    refine get_put_of_get ?_ (fresh e.signed.fresh)
    exact get_put_permanent hk (get_put_permanent hk h rfl) rfl
  | bootstrapDeployment =>
    refine get_put_of_get ?_ (fresh e.completed.fresh)
    iterate 2 refine get_put_permanent hk ?_ rfl
    exact get_put_of_get h (fresh e.undeployed)
  | tx =>
    refine get_put_of_get ?_ (fresh e.completed.fresh)
    rw [get_putAccount (ne_account (isAccount_of_isPermanent hk))]
    exact get_put_permanent hk (get_put_permanent hk h rfl) rfl
  | transfer =>
    refine get_put_of_get ?_ (fresh e.completed.fresh)
    rw [get_putAgain (ne_account (isAccount_of_isPermanent hk))]
    iterate 2 refine get_put_permanent hk ?_ rfl
    rw [get_putFirst (ne_account (isAccount_of_isPermanent hk))]
    exact h

theorem Event.Step.get_permanent {e : Event} (hs : e.Step env) {k : EntryKey} {b : Buffer}
    (hk : k.isPermanent) (h : e.before.view.get k = some b) : e.after.view.get k = some b := by
  cases hs with
  | operation hdec s => exact s.get_permanent hk h
  | penalty hpos hn s => exact get_put_permanent hk h rfl

theorem Path.get_permanent {es : List Event} {w' : World} (h : Path env w es w') {k : EntryKey}
    {b : Buffer} (hk : k.isPermanent) (hw : w.view.get k = some b) : w'.view.get k = some b :=
  h.preserves (P := fun w => w.view.get k = some b) hw fun _ _ hs => hs.get_permanent hk

/-- An entry that is written once is there before and after every later event. -/
theorem Path.kept {es : List Event} {w' : World} (h : Path env w es w') {k : EntryKey} {b : Buffer}
    (hk : k.isPermanent) (hw : w.view.get k = some b) :
    ∀ e ∈ es, e.before.view.get k = some b ∧ e.after.view.get k = some b := by
  induction h with
  | nil => exact fun _ he => nomatch he
  | cons hs _ ih =>
    have hafter := hs.get_permanent hk hw
    exact List.forall_mem_cons.mpr ⟨⟨hw, hafter⟩, ih hafter⟩

end SettlementBus
