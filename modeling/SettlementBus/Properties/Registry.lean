import SettlementBus.Invariants.Registry
import SettlementBus.Sample

/-! One writing key, one owner. -/

namespace SettlementBus

open Lib View

variable {env : Env} {w : World} {es : List Event}

/-- The registry in a state. -/
structure World.OneOwner (env : Env) (w : World) : Prop where
  registered : w.Registered env
  unique : ∀ {s t a b}, w.Has s a → w.Has t b → a.wk = b.wk → a.wk ≠ zeroWk → s = t

/-- What an event, the events `later` and the last state `w` do to the registry and to the admin
entry. -/
structure RegistryKept (env : Env) (e : Event) (later : List Event) (w : World) : Prop where
  before : e.before.OneOwner env
  after : e.after.OneOwner env
  once : ∀ {k b}, e.before.view.get (.writerAddress k) = some b →
    e.after.view.get (.writerAddress k) = some b
  kept : ∀ {k b}, e.after.view.get (.writerAddress k) = some b →
    (∀ e' ∈ later, e'.after.view.get (.writerAddress k) = some b) ∧
      w.view.get (.writerAddress k) = some b
  registrant : ∀ {k s}, e.before.view.get (.writerAddress k) = none → e.after.owner env k = some s →
    ∃ node type op, e.cause = .operation node type op ∧ op.address.account env = some s
  admin : ∀ {s}, e.after.AdminOwns env s →
    (∀ e' ∈ later, e'.after.AdminOwns env s) ∧ w.AdminOwns env s
  addAdmin : e.operationType = some .addAdmin → ∃ s, e.after.AdminOwns env s
  penalty : ∀ {key n}, e.cause = .penalty key n → ∃ s, e.before.owner env key = some s ∧
    ∀ t, t ≠ s → e.after.view.get (.account t) = e.before.view.get (.account t)

theorem World.Registered.oneOwner (h : w.Registered env) : w.OneOwner env := ⟨h, h.unique⟩

/-- The admin entry of a state whose registry is in order belongs to the address it names. -/
theorem World.Registered.adminOwns (h : w.Registered env) {s : Str} (hs : ∃ wk, w.AdminAt env s wk) :
    w.AdminOwns env s := by
  obtain ⟨wk, hat⟩ := hs
  obtain ⟨address, hget, -⟩ := hat.entry
  obtain ⟨t, wk', hat', hown⟩ := h.admin (by rw [View.Present, hget]; rfl)
  obtain ⟨buffer, hbuf, hdec⟩ := hat.decode
  obtain ⟨buffer', hbuf', hdec'⟩ := hat'.decode
  cases hbuf.symm.trans hbuf'
  cases hdec.symm.trans hdec'
  exact ⟨wk, hat, hown⟩

theorem Event.Step.registrant {e : Event} (hs : e.Step env) {k : Buffer} {s : Str}
    (h : e.before.view.get (.writerAddress k) = none) (h' : e.after.owner env k = some s) :
    ∃ node type op, e.cause = .operation node type op ∧ op.address.account env = some s := by
  obtain ⟨b, hb, hbs⟩ := Option.bind_eq_some_iff.mp h'
  cases hs with
  | @operation w node type op hdec e =>
    exact ⟨node, type, op, rfl, by rw [e.registrant h hb, Field.account_buffer, hbs]⟩
  | penalty hpos hn e =>
    rw [e.get_eq rfl, h] at hb
    cases hb

theorem Event.Step.addAdmin {e : Event} (hs : e.Step env) (h : e.operationType = some .addAdmin) :
    ∃ s wk, e.after.AdminAt env s wk := by
  cases hs with
  | operation hdec s =>
    cases h
    exact ⟨_, _, AddAdminStep.adminAt s⟩
  | penalty => cases h

theorem Event.Step.penalty_eq {e : Event} (hs : e.Step env) {key : Buffer} {n : ℕ}
    (h : e.cause = .penalty key n) : ∃ s, e.before.owner env key = some s ∧
      ∀ t, t ≠ s → e.after.view.get (.account t) = e.before.view.get (.account t) := by
  cases hs with
  | operation => cases h
  | penalty hpos hn s =>
    cases h
    exact ⟨_, s.owner_eq, fun t ht => Store.get_put_ne _ _ (by simpa using ht)⟩

/-- In every run a key has one owner for good, the admin entry stays with its address, and a
penalty meets the owner of the author key. -/
theorem registry_of_run (h1 : env.crypto.OneAddressPerKey) (hrun : Run env (genesis env) es w) :
    w.OneOwner env ∧
      ∀ es₁ e es₂, es = es₁ ++ e :: es₂ → RegistryKept env e es₂ w := by
  have hp := hrun.path wellFormed_genesis
  have inv : ∀ {es w}, Path env (genesis env) es w → w.Registered env := fun hp =>
    hp.invariant wellFormed_genesis registered_genesis fun _ _ hs hwf h => hs.registered h1 hwf h
  refine ⟨(inv hp).oneOwner, ?_⟩
  rintro es₁ e es₂ rfl
  obtain ⟨w₁, hfirst, hrest⟩ := Path.append_iff.mp hp
  obtain ⟨rfl, hs, hlater⟩ := Path.cons_iff.mp hrest
  have hafter := inv (hfirst.append (.cons hs .nil))
  have hlast := inv hp
  refine {
    before := (inv hfirst).oneOwner
    after := hafter.oneOwner
    once := hs.get_permanent rfl
    kept := fun hb => ⟨fun e' he' => (hlater.kept rfl hb e' he').2, hlater.get_permanent rfl hb⟩
    registrant := hs.registrant
    admin := ?_
    addAdmin := fun h => ?_
    penalty := hs.penalty_eq }
  · rintro s ⟨wk, hat, -⟩
    obtain ⟨heach, hend⟩ := hlater.adminAt h1 ⟨wk, hat⟩
    refine ⟨fun e' he' => ?_, hlast.adminOwns hend⟩
    obtain ⟨es₃, es₄, rfl⟩ := List.append_of_mem he'
    obtain ⟨w₂, hmid, hrest'⟩ := Path.append_iff.mp hlater
    obtain ⟨rfl, hs', -⟩ := Path.cons_iff.mp hrest'
    have hreg := inv ((hfirst.append (.cons hs hmid)).append (.cons hs' .nil))
    exact hreg.adminOwns (heach e' he')
  · obtain ⟨s, hat⟩ := hs.addAdmin h
    exact ⟨s, hafter.adminOwns hat⟩

namespace Sample

theorem registry_of_run_expelled : expelled.OneOwner network ∧
    ∀ es₁ e es₂, expulsion = es₁ ++ e :: es₂ → RegistryKept network e es₂ expelled :=
  registry_of_run oneAddressPerKey run_expelled

end Sample

end SettlementBus
