import SettlementBus.Steps.Change
import SettlementBus.Steps.Frame

/-! The records of the applied operations, and the strings under which entries are put. -/

namespace SettlementBus

open Lib View

variable {env : Env} {w w' : World} {node : Node} {op : Operation} {type : OperationType}
  {e : Event} {es : List Event}

/-- The hash and the bytes of the operation that succeeded. -/
def Event.record (e : Event) : Option (Buffer × Buffer) :=
  match e.cause with
  | .operation node _ op => op.tx.bytes?.map fun tx => (tx, node.value)
  | .penalty .. => none

def Event.tx (e : Event) : Option Buffer := e.record.map Prod.fst

/-! ### One event -/

/-- The step puts a new record and leaves the others. -/
structure Records (w w' : World) (tx value : Buffer) : Prop where
  length : tx.length = hashByteLength
  fresh : w.view.get (.record tx) = none
  get : ∀ h, w'.view.get (.record h) = if h = tx then some value else w.view.get (.record h)

theorem Records.put {view : View} {base : Base} {tx value : Buffer}
    (length : tx.length = hashByteLength) (fresh : w.view.get (.record tx) = none)
    (h : ∀ h, view.get (.record h) = w.view.get (.record h)) :
    Records w { view := view.put (.record tx) value, base } tx value where
  length := length
  fresh := fresh
  get hash := by simp [Store.get_put, h]

theorem OperationStep.records (s : OperationStep env w node op type) :
    ∃ tx, op.tx = .buffer tx ∧ Records w s.result tx node.value := by
  cases type with
  | addAdmin =>
    obtain ⟨-, -, hv, hs⟩ := Check.validateCoreAdminOperation_eq_some.mp s.check
    exact ⟨_, by rw [Operation.tx, hv]; rfl,
      .put hs.tx.length_eq s.fresh fun h => by simp [Store.get_put]⟩
  | disableInitialization =>
    obtain ⟨-, -, hv, hs⟩ := Check.validateCoreAdminOperation_eq_some.mp s.check
    exact ⟨_, by rw [Operation.tx, hv]; rfl,
      .put hs.tx.length_eq s.signed.fresh fun h => by simp [Store.get_put]⟩
  | balanceInitialization =>
    obtain ⟨-, -, hv, hs⟩ := Check.validateBalanceInitialization_eq_some.mp s.check
    exact ⟨_, by rw [Operation.tx, hv]; rfl,
      .put hs.tx.length_eq s.signed.fresh fun h => by simp [Store.get_put]⟩
  | appendWhitelist =>
    obtain ⟨-, -, hv, hs⟩ := Check.validateAdminControlOperation_eq_some.mp s.check
    exact ⟨_, by rw [Operation.tx, hv]; rfl, .put hs.tx.length_eq s.signed.fresh fun h => by
      simp [Store.get_put, get_assignLicense (k := .record h) (fun h => by cases h) (fun _ h => by cases h),
        get_putAccount (ne_account (k := .record h) rfl)]⟩
  | addWriter =>
    obtain ⟨-, -, ⟨f, hv, -⟩, hs⟩ := Check.validateRoleAccessOperation_eq_some.mp s.check
    exact ⟨_, by rw [Operation.tx, hv]; rfl, .put hs.tx.length_eq s.completed.fresh fun h => by
      simp [Store.get_put, get_registerKey]⟩
  | removeWriter =>
    obtain ⟨-, -, ⟨f, hv, -⟩, hs⟩ := Check.validateRoleAccessOperation_eq_some.mp s.check
    exact ⟨_, by rw [Operation.tx, hv]; rfl,
      .put hs.tx.length_eq s.completed.fresh fun h => by simp [Store.get_put]⟩
  | adminRecovery =>
    obtain ⟨-, -, ⟨f, hv, -⟩, hs⟩ := Check.validateRoleAccessOperation_eq_some.mp s.check
    exact ⟨_, by rw [Operation.tx, hv]; rfl,
      .put hs.tx.length_eq s.completed.fresh fun h => by simp [Store.get_put]⟩
  | addIndexer =>
    obtain ⟨-, -, hv, hs⟩ := Check.validateAdminControlOperation_eq_some.mp s.check
    exact ⟨_, by rw [Operation.tx, hv]; rfl,
      .put hs.tx.length_eq s.signed.fresh fun h => by simp [Store.get_put]⟩
  | removeIndexer =>
    obtain ⟨-, -, hv, hs⟩ := Check.validateAdminControlOperation_eq_some.mp s.check
    exact ⟨_, by rw [Operation.tx, hv]; rfl,
      .put hs.tx.length_eq s.signed.fresh fun h => by simp [Store.get_put]⟩
  | banValidator =>
    obtain ⟨-, -, hv, hs⟩ := Check.validateAdminControlOperation_eq_some.mp s.check
    exact ⟨_, by rw [Operation.tx, hv]; rfl,
      .put hs.tx.length_eq s.signed.fresh fun h => by simp [Store.get_put]⟩
  | bootstrapDeployment =>
    obtain ⟨-, -, ⟨f, hv, -⟩, hs⟩ := Check.validateBootstrapDeploymentOperation_eq_some.mp s.check
    exact ⟨_, by rw [Operation.tx, hv]; rfl,
      .put hs.tx.length_eq s.completed.fresh fun h => by simp [Store.get_put]⟩
  | tx =>
    obtain ⟨-, -, ⟨f, hv, -⟩, hs⟩ := Check.validateTransactionOperation_eq_some.mp s.check
    exact ⟨_, by rw [Operation.tx, hv]; rfl, .put hs.tx.length_eq s.completed.fresh fun h => by
      simp [Store.get_put, get_putAccount (ne_account (k := .record h) rfl)]⟩
  | transfer =>
    obtain ⟨-, -, ⟨f, hv, -⟩, hs⟩ := Check.validateTransferOperation_eq_some.mp s.check
    exact ⟨_, by rw [Operation.tx, hv]; rfl, .put hs.tx.length_eq s.completed.fresh fun h => by
      simp [Store.get_put, get_putFirst (ne_account (k := .record h) rfl),
        get_putAgain (ne_account (k := .record h) rfl)]⟩

/-- What an event does to the records. -/
structure Event.Recorded (e : Event) : Prop where
  fresh : ∀ {tx value}, e.record = some (tx, value) → e.before.view.get (.record tx) = none
  get : ∀ h v, e.after.view.get (.record h) = some v ↔
    e.before.view.get (.record h) = some v ∨ e.record = some (h, v)

theorem Event.Step.recorded (hs : e.Step env) : e.Recorded := by
  cases hs with
  | operation hdec s =>
    obtain ⟨tx, htx, hr⟩ := s.records
    constructor
    · intro tx' value h
      simp [Event.record, htx, Field.bytes?] at h
      obtain ⟨rfl, -⟩ := h
      exact hr.fresh
    · intro h v
      simp only [hr.get, Event.record, htx, Field.bytes?, Option.map_some, Option.some.injEq,
        Prod.mk.injEq]
      by_cases hh : h = tx
      · subst hh
        simp [hr.fresh]
      · simp [hh, Ne.symm hh]
  | penalty hpos hn s =>
    exact ⟨(fun h => by cases h), fun h v => by simp [PenaltyStep.result, Store.get_put, Event.record]⟩

/-! ### Runs -/

/-- After a path the records are the old ones and those of its operations. -/
theorem Path.get_record (h : Path env w es w') (k v : Buffer) :
    w'.view.get (.record k) = some v ↔
      w.view.get (.record k) = some v ∨ ∃ e ∈ es, e.record = some (k, v) := by
  induction h with
  | nil => simp
  | cons hs _ ih => rw [ih, hs.recorded.get, List.exists_mem_cons_iff, or_assoc]

theorem Event.tx_eq_some {tx : Buffer} :
    e.tx = some tx ↔ ∃ value, e.record = some (tx, value) := by
  simp [Event.tx]

/-- A recorded hash is not applied again. -/
theorem Path.tx_ne (h : Path env w es w') {tx : Buffer} (hw : w.view.Present (.record tx)) :
    tx ∉ es.filterMap Event.tx := by
  induction h with
  | nil => exact List.not_mem_nil
  | cons hs _ ih =>
    rw [List.mem_filterMap]
    rintro ⟨e, he, htx⟩
    obtain rfl | he := List.mem_cons.mp he
    · obtain ⟨value, hrec⟩ := Event.tx_eq_some.mp htx
      rw [View.Present, hs.recorded.fresh hrec] at hw
      cases hw
    · exact ih (hs.present hw) (List.mem_filterMap.mpr ⟨e, he, htx⟩)

theorem Path.nodup (h : Path env w es w') : (es.filterMap Event.tx).Nodup := by
  induction h with
  | nil => exact List.nodup_nil
  | @cons e es w' hs hrest ih =>
    rw [List.filterMap_cons]
    cases htx : e.tx with
    | none => exact ih
    | some tx =>
      obtain ⟨value, hrec⟩ := Event.tx_eq_some.mp htx
      refine List.nodup_cons.mpr ⟨hrest.tx_ne ?_, ih⟩
      rw [View.Present, (hs.recorded.get tx value).mpr (.inr hrec)]
      rfl

/-! ### Keys -/

/-- Every node entry is put under a valid address. -/
def World.Addressed (env : Env) (w : World) : Prop :=
  ∀ s, w.view.Present (.account s) → isAddressValid env s

theorem isAddressValid_of_party {address : Buffer} {p : Party} (h : party env address = .ok p) :
    isAddressValid env p.address := (bufferToAddress_eq_some.mp (party_eq_ok.mp h).1).1

theorem Change.isAddressValid {s : Str} {old : Option Account} {a : Account}
    (h : Change env w node op s type old a) (hold : old ≠ none → isAddressValid env s) :
    isAddressValid env s := by
  cases h with
  | reader b h hrecipient =>
    obtain ⟨b, -, hs⟩ := Option.bind_eq_some_iff.mp hrecipient
    exact (bufferToAddress_eq_some.mp hs).1
  | addAdmin e hs => exact hs ▸ isAddressValid_of_party e.requester
  | appendWhitelist e hs => exact hs ▸ isAddressValid_of_party e.ia
  | _ => exact hold (Option.some_ne_none _)

theorem Event.Step.addressed (hs : e.Step env) (hw : e.before.WellFormed)
    (h : e.before.Addressed env) : e.after.Addressed env := by
  intro address hp
  cases hs with
  | operation hdec s =>
    obtain ⟨v, hv⟩ := Option.isSome_iff_exists.mp hp
    obtain ⟨a, rfl, ha⟩ := (s.wellFormed hw).has hv
    obtain ⟨old, hlookup, hchange⟩ := s.change hw ha
    refine hchange.isAddressValid fun hold => h address ?_
    obtain ⟨a, rfl⟩ := Option.ne_none_iff_exists'.mp hold
    rw [View.Present, show Store.get _ _ = _ from hlookup]
    rfl
  | penalty hpos hn s =>
    rw [View.Present, PenaltyStep.result, Store.get_put] at hp
    split at hp
    case isTrue heq =>
      cases heq
      exact isAddressValid_of_party s.decoded
    case isFalse => exact h address hp

theorem addressed_genesis : (genesis env).Addressed env := nofun

/-- Only a record is put under a hexadecimal string. -/
theorem render_eq_toHex (hhrp : ∃ c ∈ env.config.addressPrefix, c ∉ hexDigits)
    (hw : w.Addressed env) {k : EntryKey} (hk : w.view.Present k) {h : Buffer}
    (heq : k.render = toHex h) : k = .record h := by
  have hex : ∀ c ∈ k.render, c ∈ hexDigits := fun c hc => toHex_mem (heq ▸ hc)
  cases k with
  | record tx => rw [toHex_injective heq]
  | account s =>
    obtain ⟨c, hc, hne⟩ := hhrp
    have hmem : c ∈ s :=
      (isAddressValid_iff.mp (hw s hk)).2.1.subset (List.mem_append_left _ hc)
    exact absurd (hex c hmem) hne
  | admin => exact absurd (hex 'm' (by decide)) (by decide)
  | initialization => exact absurd (hex 'i' (by decide)) (by decide)
  | licenseCount => exact absurd (hex 'l' (by decide)) (by decide)
  | licenseIndex n => exact absurd (hex '/' (List.mem_append_left _ (by decide))) (by decide)
  | writersLength => exact absurd (hex 'w' (by decide)) (by decide)
  | writersIndex n => exact absurd (hex '/' (List.mem_append_left _ (by decide))) (by decide)
  | writerAddress wk => exact absurd (hex '/' (List.mem_append_left _ (by decide))) (by decide)
  | deployment bs => exact absurd (hex '/' (List.mem_append_left _ (by decide))) (by decide)

end SettlementBus
