import SettlementBus.Invariants.Membership

/-! The registry of writing keys. -/

namespace SettlementBus

open Lib View

variable {env : Env} {w w' : World} {node : Node} {op : Operation} {type : OperationType}

/-- The admin entry names `s` and a key that is registered to `s`. -/
def World.AdminOwns (env : Env) (w : World) (s : Str) : Prop :=
  ∃ wk, w.AdminAt env s wk ∧ w.owner env wk = some s

/-- The keys that the accounts and the admin entry hold are registered to their holders. -/
structure World.Registered (env : Env) (w : World) : Prop where
  accounts : ∀ {s a}, w.Has s a → a.wk ≠ zeroWk → w.owner env a.wk = some s
  admin : w.view.Present .admin → ∃ s, w.AdminOwns env s

theorem World.Registered.unique (h : w.Registered env) {s t : Str} {a b : Account} (hs : w.Has s a)
    (ht : w.Has t b) (heq : a.wk = b.wk) (hne : a.wk ≠ zeroWk) : s = t := by
  have hown := h.accounts hs hne
  rw [heq] at hne hown
  exact Option.some.inj (hown.symm.trans (h.accounts ht hne))

/-! ### Who registers a key -/

theorem World.owner_of_get {k b : Buffer} (h : w.view.get (.writerAddress k) = some b) :
    w.owner env k = bufferToAddress env b := by
  rw [World.owner, h]
  rfl

theorem AddAdminStep.owner_iw (e : AddAdminStep env w node op) :
    e.result.owner env e.o.iw = some e.admin.address := by
  rw [World.owner_of_get (b := e.address) (by simp [AddAdminStep.result, Store.get_put])]
  exact (party_eq_ok.mp e.requester).1

theorem AddWriterStep.owner_iw (e : AddWriterStep env w node op) :
    e.result.owner env e.s.body.iw = some e.s.requester.address := by
  rw [World.owner_of_get (b := e.s.address)]
  · exact (party_eq_ok.mp e.completed.verified.requester).1
  · obtain h | ⟨-, h⟩ := e.key
    · simp [AddWriterStep.result, Store.get_put, get_registerKey, h]
    · simp [AddWriterStep.result, Store.get_put, get_registerKey, h]

theorem AdminRecoveryStep.owner_iw (e : AdminRecoveryStep env w node op) :
    e.result.owner env e.s.body.iw = some e.s.requester.address := by
  rw [World.owner_of_get (b := e.s.address) (by simp [AdminRecoveryStep.result, Store.get_put])]
  exact (party_eq_ok.mp e.completed.verified.requester).1

/-! One operation has one set of signers. -/

theorem AddAdminStep.same (e e' : AddAdminStep env w node op) : e.o = e'.o ∧ e.admin = e'.admin := by
  obtain ⟨haddress, ho⟩ := Prod.ext_iff.mp (Option.some.inj (e.check.symm.trans e'.check))
  refine ⟨ho, Except.ok.inj (e.requester.symm.trans ?_)⟩
  rw [show e.address = e'.address from haddress]
  exact e'.requester

theorem Signed.Verified.same {s s' : Signed (RoleAccessOperation Buffer)}
    (hcheck : Check.validateRoleAccessOperation env op = some (s.address, s.body, some s.completion))
    (hcheck' : Check.validateRoleAccessOperation env op =
      some (s'.address, s'.body, some s'.completion))
    (h : s.Verified env type (roleAccessMessage env type s.body) s.body.tx s.body.in_ s.body.is)
    (h' : s'.Verified env type (roleAccessMessage env type s'.body) s'.body.tx s'.body.in_
      s'.body.is)
    (hz : type = .addWriter → s.body.iw ≠ zeroWk) : s = s' := by
  have hbody : s'.body = s.body := by
    have heq := Option.some.inj (hcheck'.symm.trans hcheck)
    exact congrArg (fun x => x.2.1) heq
  have hs := verifyRoleAccess_eq_ok.mpr ⟨hcheck, hz, h⟩
  exact Except.ok.inj (hs.symm.trans (verifyRoleAccess_eq_ok.mpr ⟨hcheck', hbody ▸ hz, h'⟩))

/-- A key is registered to the address of the operation that registers it. -/
theorem OperationStep.registrant (e : OperationStep env w node op type) {k b : Buffer}
    (h : w.view.get (.writerAddress k) = none)
    (h' : e.result.view.get (.writerAddress k) = some b) : op.address = .buffer b := by
  by_cases hwrites : type.writes (.writerAddress k)
  case neg =>
    rw [e.get_eq (Bool.eq_false_iff.mpr hwrites), h] at h'
    cases h'
  cases type with
  | addAdmin =>
    obtain ⟨-, ha, -⟩ := Check.validateCoreAdminOperation_eq_some.mp e.check
    simp [OperationStep.result, AddAdminStep.result, Store.get_put, h] at h'
    rw [ha, h'.2]
  | addWriter =>
    obtain ⟨-, ha, -⟩ := Check.validateRoleAccessOperation_eq_some.mp e.check
    simp [OperationStep.result, AddWriterStep.result, Store.get_put, get_registerKey, h] at h'
    rw [ha, h'.2]
  | adminRecovery =>
    obtain ⟨-, ha, -⟩ := Check.validateRoleAccessOperation_eq_some.mp e.check
    simp [OperationStep.result, AdminRecoveryStep.result, Store.get_put, h] at h'
    rw [ha, h'.2]
  | _ => cases hwrites

/-! ### The invariant -/

theorem OperationStep.registered_accounts (hw : w.WellFormed) (h : w.Registered env)
    (e : OperationStep env w node op type) {s : Str} {a' : Account} (ha' : e.result.Has s a')
    (hne : a'.wk ≠ zeroWk) : e.result.owner env a'.wk = some s := by
  have kept : ∀ {a b : Account}, w.Has s a → b.wk = a.wk → b.wk ≠ zeroWk →
      e.result.owner env b.wk = some s := by
    intro a b ha heq hne
    rw [heq] at hne ⊢
    exact e.owner_eq type (h.accounts ha hne)
  obtain ⟨old, hold, hchange⟩ := e.change hw ha'
  cases hchange with
  | balance a b => exact kept hold rfl hne
  | reader => exact absurd rfl hne
  | addAdmin e' hs =>
    obtain ⟨ho, hadmin⟩ := AddAdminStep.same e e'
    have howner := AddAdminStep.owner_iw e
    rwa [ho, hadmin, ← hs] at howner
  | appendWhitelist e' hs hold' =>
    obtain h | h := e'.notWhitelisted.eq_or_has
    · exact absurd (congrArg Account.wk h) hne
    · exact kept (a := e'.old) (hs ▸ h) rfl hne
  | addWriter e' hs =>
    have howner := AddWriterStep.owner_iw e
    rwa [Signed.Verified.same e.check e'.check e.completed.verified e'.completed.verified
      fun _ => e.nonzero, ← hs] at howner
  | removeWriter e' hs => exact kept hold rfl hne
  | adminRecovery e' hs =>
    have howner := AdminRecoveryStep.owner_iw e
    rwa [Signed.Verified.same e.check e'.check e.completed.verified e'.completed.verified
      nofun, ← hs] at howner
  | addIndexer e' hs => exact kept hold rfl hne
  | removeIndexer e' hs => exact kept hold rfl hne
  | banValidator e' hs => exact kept hold e'.ban.wk_eq hne

theorem OperationStep.keeps_registered (h1 : env.crypto.OneAddressPerKey) (hw : w.WellFormed)
    (h : w.Registered env) (e : OperationStep env w node op type) : e.result.Registered env := by
  refine ⟨e.registered_accounts hw h, fun hp => ?_⟩
  by_cases hadd : type = .addAdmin
  · subst hadd
    exact ⟨_, _, AddAdminStep.adminAt e, AddAdminStep.owner_iw e⟩
  by_cases hrec : type = .adminRecovery
  · subst hrec
    obtain ⟨⟨buffer, -, hbuf, -⟩, -⟩ := AdminRecoveryStep.admin e
    obtain ⟨s, wk, hat, -⟩ := h.admin (by rw [View.Present, hbuf]; rfl)
    obtain ⟨hs, -, hat'⟩ := AdminRecoveryStep.adminAt h1 hat e
    exact ⟨s, _, hat', hs ▸ AdminRecoveryStep.owner_iw e⟩
  · have hget := e.get_admin hadd hrec
    rw [View.Present, hget] at hp
    obtain ⟨s, wk, ⟨⟨address, hadm, ha⟩, hlen⟩, hown⟩ := h.admin hp
    exact ⟨s, wk, ⟨⟨address, hget.trans hadm, ha⟩, hlen⟩, e.owner_eq type hown⟩

theorem PenaltyStep.adminAt {key : Buffer} {n : ℕ} {s : Str} {wk : Buffer}
    (h : w.AdminAt env s wk) (e : PenaltyStep env w key n) : e.result.AdminAt env s wk := by
  obtain ⟨⟨address, hget, ha⟩, hlen⟩ := h
  exact ⟨⟨address, (e.get_eq rfl).trans hget, ha⟩, hlen⟩

theorem PenaltyStep.owner_mono {key : Buffer} {n : ℕ} {s : Str} {k : Buffer}
    (h : w.owner env k = some s) (e : PenaltyStep env w key n) :
    e.result.owner env k = some s := World.owner_mono (fun _ _ hb => (e.get_eq rfl).trans hb) h

theorem PenaltyStep.keeps_registered {key : Buffer} {n : ℕ} (h : w.Registered env)
    (e : PenaltyStep env w key n) : e.result.Registered env := by
  constructor
  · intro s a ha hne
    simp only [World.Has, PenaltyStep.result, has_put_account] at ha
    obtain ⟨rfl, rfl⟩ | ⟨-, ha⟩ := ha
    · exact e.owner_mono (h.accounts e.has hne)
    · exact e.owner_mono (h.accounts ha hne)
  · intro hp
    rw [View.Present, e.get_eq rfl] at hp
    obtain ⟨s, wk, hat, hown⟩ := h.admin hp
    exact ⟨s, wk, e.adminAt hat, e.owner_mono hown⟩

theorem Event.Step.registered (h1 : env.crypto.OneAddressPerKey) {e : Event} (hs : e.Step env)
    (hw : e.before.WellFormed) (h : e.before.Registered env) : e.after.Registered env := by
  cases hs with
  | operation hdec s => exact s.keeps_registered h1 hw h
  | penalty hpos hn s => exact s.keeps_registered h

theorem registered_genesis : (genesis env).Registered env :=
  ⟨fun ha => absurd ha not_has_genesis, nofun⟩

/-- The admin keeps its address. -/
theorem Event.Step.adminAt (h1 : env.crypto.OneAddressPerKey) {e : Event} (hs : e.Step env) {s : Str}
    (h : ∃ wk, e.before.AdminAt env s wk) : ∃ wk, e.after.AdminAt env s wk := by
  obtain ⟨wk, h⟩ := h
  cases hs with
  | operation hdec e => exact e.adminAt h1 h
  | penalty hpos hn e => exact ⟨wk, e.adminAt h⟩

theorem Path.adminAt (h1 : env.crypto.OneAddressPerKey) {es : List Event} (h : Path env w es w')
    {s : Str} (hw : ∃ wk, w.AdminAt env s wk) :
    (∀ e ∈ es, ∃ wk, e.after.AdminAt env s wk) ∧ ∃ wk, w'.AdminAt env s wk := by
  induction h with
  | nil => exact ⟨fun _ he => absurd he List.not_mem_nil, hw⟩
  | cons hs _ ih =>
    have hafter := hs.adminAt h1 hw
    exact ⟨List.forall_mem_cons.mpr ⟨hafter, (ih hafter).1⟩, (ih hafter).2⟩

end SettlementBus
