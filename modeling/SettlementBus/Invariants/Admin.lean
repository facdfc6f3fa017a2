import SettlementBus.Steps.Change
import SettlementBus.Steps.Frame

/-! The network starts with `ADD_ADMIN`, and the admin stays the admin. -/

namespace SettlementBus

open Lib View

variable {env : Env} {w : World} {node : Node} {op : Operation} {type : OperationType}

/-! ### Before the first admin -/

/-- Without an admin there is nothing at all. -/
def World.Founded (env : Env) (w : World) : Prop := w = genesis env ∨ w.view.Present .admin

theorem not_has_genesis {address : Str} {a : Account} : ¬(genesis env).Has address a := nofun

theorem not_adminIs_genesis {wk publicKey : Buffer} : ¬AdminIs env (genesis env) wk publicKey := by
  rintro ⟨⟨_, _, h, -⟩, -⟩
  cases h

/-- Nothing but `ADD_ADMIN` succeeds before the first admin. -/
theorem OperationStep.type_eq_addAdmin (e : OperationStep env (genesis env) node op type) :
    type = .addAdmin := by
  cases type with
  | addAdmin => rfl
  | disableInitialization => exact absurd e.signed.admin not_adminIs_genesis
  | balanceInitialization => exact absurd e.signed.admin not_adminIs_genesis
  | appendWhitelist => exact absurd e.signed.admin not_adminIs_genesis
  | addWriter => exact absurd e.completed.validator not_has_genesis
  | removeWriter => exact absurd e.completed.validator not_has_genesis
  | adminRecovery => exact absurd e.completed.validator not_has_genesis
  | addIndexer => exact absurd e.signed.admin not_adminIs_genesis
  | removeIndexer => exact absurd e.signed.admin not_adminIs_genesis
  | banValidator => exact absurd e.signed.admin not_adminIs_genesis
  | bootstrapDeployment => exact absurd e.completed.validator not_has_genesis
  | tx => exact absurd e.completed.validator not_has_genesis
  | transfer => exact absurd e.completed.validator not_has_genesis

/-- The first event of a run is an `ADD_ADMIN`. -/
theorem Event.Step.cases_genesis {e : Event} (hs : e.Step env) (h : e.before = genesis env) :
    ∃ (node : Node) (op : Operation) (s : AddAdminStep env e.before node op),
      e.after = s.result := by
  cases hs with
  | operation hdec s =>
    cases h
    cases s.type_eq_addAdmin
    exact ⟨_, _, s, rfl⟩
  | penalty hpos hn s =>
    cases h
    exact absurd s.has not_has_genesis

theorem AddAdminStep.present_admin (e : AddAdminStep env w node op) :
    e.result.view.Present .admin := by
  simp [View.Present, AddAdminStep.result, Store.get_put]

theorem Event.Step.founded {e : Event} (hs : e.Step env) (h : e.before.Founded env) :
    e.after.Founded env := by
  right
  obtain h | h := h
  · obtain ⟨node, op, s, hafter⟩ := hs.cases_genesis h
    rw [hafter]
    exact s.present_admin
  · exact hs.present h

theorem Visited.founded (h : Visited env w) : w.Founded env :=
  h.invariant (.inl rfl) fun _ hs _ => hs.founded

theorem AddAdminStep.eq_genesis (e : AddAdminStep env w node op) (hw : w.Founded env) :
    w = genesis env := by
  obtain h | h := hw
  · exact h
  · rw [View.Present, e.noAdmin] at h
    cases h

/-! ### The admin's account -/

/-- The admin entry is a valid address, decoded to `s`, and a writing key. -/
structure World.AdminAt (env : Env) (w : World) (s : Str) (wk : Buffer) : Prop where
  entry : ∃ address, w.view.get .admin = some (address ++ wk) ∧ bufferToAddress env address = some s
  length_wk : wk.length = writerByteLength

/-- The admin has an account, which is not that of a reader. -/
structure World.HasAdmin (env : Env) (w : World) (s : Str) : Prop where
  entry : ∃ wk, w.AdminAt env s wk
  account : ∃ a, w.Has s a ∧ a.role ≠ .reader

def World.Administered (env : Env) (w : World) : Prop := w = genesis env ∨ ∃ s, w.HasAdmin env s

section

variable {s : Str} {wk : Buffer}

theorem World.AdminAt.decode (h : w.AdminAt env s wk) : ∃ buffer, w.view.get .admin = some buffer ∧
    AdminEntry.decode env buffer = some { address := some s, wk } := by
  obtain ⟨⟨address, hget, ha⟩, hlen⟩ := h
  exact ⟨_, hget, AdminEntry.decode_append ha hlen⟩

theorem World.AdminAt.of_adminIs (h : w.AdminAt env s wk) {key publicKey : Buffer}
    (hadm : AdminIs env w key publicKey) : key = wk ∧ env.crypto.decodeSafe s = publicKey := by
  obtain ⟨buffer, hbuf, hdec⟩ := h.decode
  obtain ⟨⟨buffer', address, hbuf', hdec', hpk⟩, -⟩ := hadm
  cases hbuf.symm.trans hbuf'
  cases hdec.symm.trans hdec'
  exact ⟨rfl, hpk⟩

theorem World.AdminAt.valid (h : w.AdminAt env s wk) : isAddressValid env s := by
  obtain ⟨address, -, ha⟩ := h.entry
  exact (bufferToAddress_eq_some.mp ha).1

/-- A requester with the public key of the admin has the address of the admin. -/
theorem World.AdminAt.address_eq (h1 : env.crypto.OneAddressPerKey) (h : w.AdminAt env s wk)
    {key address : Buffer} {requester : Party} (hparty : party env address = .ok requester)
    (hadm : AdminIs env w key requester.publicKey) : requester.address = s := by
  have hp := party_eq_ok.mp hparty
  have hkey := (h.of_adminIs hadm).2
  exact address_eq_of_decodeSafe h1 (bufferToAddress_eq_some.mp hp.1).1 h.valid
    (hp.2.1.symm.trans hkey.symm)

theorem AdminRecoveryStep.adminAt (h1 : env.crypto.OneAddressPerKey) (h : w.AdminAt env s wk)
    (e : AdminRecoveryStep env w node op) :
    e.s.requester.address = s ∧ e.oldWk = wk ∧ e.result.AdminAt env s e.s.body.iw := by
  have hparty := e.completed.verified.requester
  have haddress := h.address_eq h1 hparty e.admin
  refine ⟨haddress, (h.of_adminIs e.admin).1, ⟨e.s.address, ?_, ?_⟩, e.length_iw⟩
  · simp [AdminRecoveryStep.result, Store.get_put]
  · rw [← haddress]
    exact (party_eq_ok.mp hparty).1

theorem AddAdminStep.adminAt (e : AddAdminStep env w node op) :
    e.result.AdminAt env e.admin.address e.o.iw := by
  refine ⟨⟨e.address, ?_, (party_eq_ok.mp e.requester).1⟩, e.length_iw⟩
  simp [AddAdminStep.result, Store.get_put]

theorem OperationStep.adminAt (h1 : env.crypto.OneAddressPerKey) (h : w.AdminAt env s wk)
    (e : OperationStep env w node op type) : ∃ wk', e.result.AdminAt env s wk' := by
  by_cases hadd : type = .addAdmin
  · subst hadd
    obtain ⟨address, hget, -⟩ := h.entry
    cases hget.symm.trans e.noAdmin
  by_cases hrec : type = .adminRecovery
  · subst hrec
    exact ⟨_, (AdminRecoveryStep.adminAt h1 h e).2.2⟩
  · obtain ⟨address, hget, ha⟩ := h.entry
    exact ⟨wk, ⟨address, (e.get_admin hadd hrec).trans hget, ha⟩, h.length_wk⟩

/-- An account keeps existing, changed as its operation says. -/
theorem OperationStep.exists_change (hw : w.WellFormed) (e : OperationStep env w node op type)
    {address : Str} {a : Account} (h : w.Has address a) :
    ∃ a', e.result.Has address a' ∧ Change env w node op address type (some a) a' := by
  obtain ⟨v, hv⟩ := Option.isSome_iff_exists.mp (e.present (k := .account address)
    (by rw [View.Present, show Store.get w.view _ = _ from h]; rfl))
  obtain ⟨a', rfl, ha'⟩ := (e.wellFormed hw).has hv
  obtain ⟨old, hold, hchange⟩ := e.change hw ha'
  cases old with
  | none => cases hold.symm.trans h
  | some b =>
    cases View.Has.unique hold h
    exact ⟨a', ha', hchange⟩

theorem Change.role_ne_reader (h1 : env.crypto.OneAddressPerKey) (h : w.AdminAt env s wk)
    {a a' : Account} (hc : Change env w node op s type (some a) a') (ha : a.role ≠ .reader) :
    a'.role ≠ .reader := by
  cases hc with
  | balance => exact ha
  | banValidator e hs hne =>
    exact absurd (h.address_eq h1 e.signed.decoded e.signed.admin).symm hne
  | adminRecovery e => exact ha
  | _ => nofun

theorem OperationStep.hasAdmin (h1 : env.crypto.OneAddressPerKey) (hw : w.WellFormed)
    (h : w.HasAdmin env s) (e : OperationStep env w node op type) : e.result.HasAdmin env s := by
  obtain ⟨⟨wk, hadm⟩, a, ha, hrole⟩ := h
  obtain ⟨a', ha', hchange⟩ := e.exists_change hw ha
  exact ⟨e.adminAt h1 hadm, a', ha', hchange.role_ne_reader h1 hadm hrole⟩

theorem PenaltyStep.hasAdmin {key : Buffer} {n : ℕ} (h : w.HasAdmin env s)
    (e : PenaltyStep env w key n) : e.result.HasAdmin env s := by
  obtain ⟨⟨wk, ⟨address, hget, haddress⟩, hlen⟩, a, ha, hrole⟩ := h
  refine ⟨⟨wk, ⟨address, ?_, haddress⟩, hlen⟩, ?_⟩
  · simpa [PenaltyStep.result, Store.get_put] using hget
  · by_cases hs : s = e.validator.address
    · exact ⟨e.account, by simp [World.Has, PenaltyStep.result, hs], (fun h => by cases h)⟩
    · exact ⟨a, by simp [World.Has, PenaltyStep.result, hs, ha], hrole⟩

theorem AddAdminStep.hasAdmin (e : AddAdminStep env w node op) :
    e.result.HasAdmin env e.admin.address :=
  ⟨⟨_, e.adminAt⟩, e.account, by simp [World.Has, AddAdminStep.result], nofun⟩

theorem Event.Step.administered (h1 : env.crypto.OneAddressPerKey) {e : Event} (hs : e.Step env)
    (hw : e.before.WellFormed) (h : e.before.Administered env) : e.after.Administered env := by
  right
  obtain h | ⟨s, h⟩ := h
  · obtain ⟨node, op, s, hafter⟩ := hs.cases_genesis h
    rw [hafter]
    exact ⟨_, s.hasAdmin⟩
  · cases hs with
    | operation hdec e => exact ⟨s, e.hasAdmin h1 hw h⟩
    | penalty hpos hn e => exact ⟨s, e.hasAdmin h⟩

theorem Visited.administered (h1 : env.crypto.OneAddressPerKey) (h : Visited env w) :
    w.Administered env := h.invariant (.inl rfl) fun _ hs => hs.administered h1

end

end SettlementBus
