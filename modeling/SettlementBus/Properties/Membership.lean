import SettlementBus.Invariants.Membership
import SettlementBus.Sample

/-! Roles and membership of the base over a run. -/

namespace SettlementBus

open Lib View

variable {env : Env} {w w' : World} {node : Node} {op : Operation} {type : OperationType}

/-- The writers of the ledger are the writers of the base, its indexers the indexers, and each key
of the base belongs to one account. -/
structure World.RolesAgree (w : World) : Prop where
  writer : ∀ address a, w.Has address a →
    (a.role = .writer ↔ a.wk ∈ w.base.writers ∧ a.wk ∉ w.base.indexers)
  indexer : ∀ address a, w.Has address a → (a.role = .indexer ↔ a.wk ∈ w.base.indexers)
  stored : ∀ key ∈ w.base.writers, ∃! address, ∃ a, w.Has address a ∧ a.wk = key

section

variable (env)

/-- The admin does not demote itself, and a penalty that hits a writer or an indexer is for the key
that its entry holds. -/
def Event.MembershipSafe (e : Event) : Prop :=
  match e.cause with
  | .operation _ type op =>
    type = .removeIndexer → op.target.account env ≠ op.address.account env
  | .penalty key _ => ∀ address ∈ e.before.owner env key, ∀ a, e.before.Has address a →
    a.role.isWriter → a.wk = key

end

/-- The address fields of the operation are 7-bit. -/
def Event.AsciiAddresses (e : Event) : Prop :=
  match e.cause with
  | .operation _ _ op => op.AsciiAddresses
  | .penalty .. => True

instance : (e : Event) → Decidable e.AsciiAddresses
  | ⟨_, .operation _ _ op, _⟩ => inferInstanceAs (Decidable (∀ b ∈ op.addresses, ∀ x ∈ b, _))
  | ⟨_, .penalty .., _⟩ => inferInstanceAs (Decidable True)

/-- The first event is a successful `ADD_ADMIN`. -/
def StartsWithAddAdmin (es : List Event) : Prop :=
  es.head?.bind Event.operationType = some .addAdmin

instance (es : List Event) : Decidable (StartsWithAddAdmin es) :=
  inferInstanceAs (Decidable (_ = _))

theorem NodeRole.eq_writer_iff {r : NodeRole} : r = .writer ↔ r.isWriter ∧ ¬r.isIndexer := by
  cases r <;> decide

theorem View.WellFormed.of_holds (hw : w.WellFormed) {s : Str} {r : NodeRole} {k : Buffer}
    (h : w.view.holds s = some (r, k)) : ∃ a, w.Has s a ∧ a.role = r ∧ a.wk = k := by
  cases hget : w.view.get (.account s) with
  | none => cases (View.holds_eq_none hget).symm.trans h
  | some v =>
    obtain ⟨a, rfl, ha⟩ := hw.has hget
    cases (View.holds_eq ha).symm.trans h
    exact ⟨a, ha, rfl, rfl⟩

theorem World.Enrolled.rolesAgree (hw : w.WellFormed) (h : w.Enrolled env) : w.RolesAgree where
  writer address a ha := by
    rw [NodeRole.eq_writer_iff, wk_mem_writers h.agrees ha, wk_mem_indexers h.agrees ha]
  indexer address a ha := by rw [wk_mem_indexers h.agrees ha, NodeRole.isIndexer_iff]
  stored key hkey := by
    obtain ⟨s, r, hs⟩ := h.agrees.stored hkey
    obtain ⟨a, ha, -, hwk⟩ := View.WellFormed.of_holds hw hs
    refine ⟨s, ⟨a, ha, hwk⟩, ?_⟩
    rintro t ⟨b, hb, rfl⟩
    exact h.agrees.unique (View.holds_eq hb) hs (h.agrees.ne_unset hkey)

/-! ### What breaks the agreement -/

/-- The admin's stale copy of its own entry brings the role of an indexer back. -/
theorem RemoveIndexerStep.not_rolesAgree (e : RemoveIndexerStep env w node op)
    (heq : e.toRemove.address = e.requester.address) : ¬e.result.RolesAgree := by
  intro h
  have hpayer := e.payer
  rw [← heq] at hpayer
  have ha : e.a = e.p := hpayer.unique e.has
  have hhas : e.result.Has e.requester.address e.admin := by
    simp [World.Has, RemoveIndexerStep.result]
  have hmem := (h.indexer _ _ hhas).mp (by rw [RemoveIndexerStep.admin, ha, e.role])
  simp [RemoveIndexerStep.result, RemoveIndexerStep.admin, ha] at hmem

/-- The key that the demoted account holds stays in the base. -/
theorem PenaltyStep.not_rolesAgree {key : Buffer} {n : ℕ} (h : (w.membership env).Agrees ranking)
    (e : PenaltyStep env w key n) (hrole : e.a.role.isWriter) (hne : e.a.wk ≠ key) :
    ¬e.result.RolesAgree := by
  intro hagree
  have hmem : e.a.wk ∈ w.base.writers := (wk_mem_writers h e.has).mpr hrole
  have hhas : e.result.Has e.validator.address e.account := by
    simp [World.Has, PenaltyStep.result]
  have hwk : e.account.wk ∈ e.result.base.writers := by
    simpa [PenaltyStep.result, PenaltyStep.account] using ⟨hmem, hne⟩
  have hwriter := hagree.writer _ _ hhas
  have hindexer := hagree.indexer _ _ hhas
  simp [PenaltyStep.account] at hwriter hindexer
  exact hindexer (hwriter hwk)

theorem Event.Step.enrolled_iff (h1 : env.crypto.OneAddressPerKey) {e : Event} (hs : e.Step env)
    (hw : e.before.WellFormed) (h : e.before.Enrolled env) (hascii : e.AsciiAddresses) :
    (e.MembershipSafe env → e.after.Enrolled env) ∧
      (e.after.RolesAgree → e.MembershipSafe env) := by
  cases hs with
  | @operation w node type op hdec s =>
    refine ⟨s.enrolled h1 h hascii.aliasFree, ?_⟩
    rintro hagree rfl
    rw [← RemoveIndexerStep.target_ne_iff s]
    exact fun heq => RemoveIndexerStep.not_rolesAgree s heq hagree
  | @penalty w key n hpos hn s =>
    refine ⟨fun hsafe => s.enrolled h (hsafe _ s.owner_eq _ s.has), fun hagree => ?_⟩
    rintro address howner a ha hrole
    cases s.owner_eq.symm.trans howner
    cases s.has.unique ha
    by_contra hne
    exact s.not_rolesAgree h.agrees hrole hne hagree

theorem Path.rolesAgree_iff (h1 : env.crypto.OneAddressPerKey) {es : List Event}
    (hp : Path env w es w') (hw : w.WellFormed) (h : w.Enrolled env)
    (hascii : ∀ e ∈ es, e.AsciiAddresses) :
    (∀ e ∈ es, e.after.RolesAgree) ↔ ∀ e ∈ es, e.MembershipSafe env := by
  induction es generalizing w with
  | nil => simp
  | cons e es ih =>
    obtain ⟨rfl, hs, hrest⟩ := Path.cons_iff.mp hp
    obtain ⟨hkeep, hbreak⟩ := hs.enrolled_iff h1 hw h (hascii e List.mem_cons_self)
    have hafter := hs.wellFormed hw
    have hascii' : ∀ e' ∈ es, e'.AsciiAddresses := fun e' he' =>
      hascii e' (List.mem_cons_of_mem _ he')
    rw [List.forall_mem_cons, List.forall_mem_cons]
    constructor
    · rintro ⟨hagree, hagrees⟩
      have hsafe := hbreak hagree
      exact ⟨hsafe, (ih hrest hafter (hkeep hsafe) hascii').mp hagrees⟩
    · rintro ⟨hsafe, hsafes⟩
      have henrolled := hkeep hsafe
      exact ⟨henrolled.rolesAgree hafter, (ih hrest hafter henrolled hascii').mpr hsafes⟩

/-- In a run that starts with `ADD_ADMIN` and whose addresses are 7-bit, roles and membership agree
after every event exactly when no admin demotes itself and no penalty is for a key that its owner,
a writer or an indexer, has replaced. -/
theorem rolesAgree_iff_membershipSafe (h1 : env.crypto.OneAddressPerKey) {es : List Event}
    (hrun : Run env (genesis env) es w) (hstart : StartsWithAddAdmin es)
    (hascii : ∀ e ∈ es, e.AsciiAddresses) :
    (∀ e ∈ es, e.after.RolesAgree) ↔ ∀ e ∈ es, e.MembershipSafe env := by
  have hp := hrun.path wellFormed_genesis
  obtain ⟨e, he, htype⟩ := Option.bind_eq_some_iff.mp hstart
  obtain ⟨node, op, hcause⟩ := Event.operationType_eq_some.mp htype
  obtain ⟨es, rfl⟩ := List.head?_eq_some_iff.mp he
  obtain ⟨hbefore, hs, hrest⟩ := Path.cons_iff.mp hp
  obtain ⟨_, _, s, hafter⟩ := hs.cases_genesis hbefore.symm
  have hwf := hs.wellFormed (hbefore ▸ wellFormed_genesis)
  have henrolled : e.after.Enrolled env := hafter ▸ s.enrolled (.inl hbefore.symm)
  have hsafe : e.MembershipSafe env := by
    rw [Event.MembershipSafe, hcause]
    nofun
  rw [List.forall_mem_cons, List.forall_mem_cons, hrest.rolesAgree_iff h1 hwf henrolled fun e he =>
    hascii e (List.mem_cons_of_mem _ he)]
  exact and_congr_left fun _ => iff_of_true (henrolled.rolesAgree hwf) hsafe

namespace Sample

theorem rolesAgree_expelled :
    (∀ e ∈ expulsion, e.after.RolesAgree) ↔ ∀ e ∈ expulsion, e.MembershipSafe network :=
  rolesAgree_iff_membershipSafe oneAddressPerKey run_expelled (by decide +kernel)
    (by decide +kernel)

/-- The admin removes itself from the indexers. -/
def demoted : World := network.after [block bootstrap demoteAdminOp] founded

def demotion : List Event :=
  events network [block bootstrap addAdminOp] (genesis network) ++
    events network [block bootstrap demoteAdminOp] founded

theorem demoted_facts :
    (apply network [block bootstrap demoteAdminOp] founded).isSome ∧
    StartsWithAddAdmin demotion ∧ (∀ e ∈ demotion, e.AsciiAddresses) ∧
    demoted.role admin = some .indexer ∧ demoted.base.indexers = [] := by
  decide +kernel

/-- The base no longer lists the admin as an indexer, but its entry does. -/
theorem not_rolesAgree_demoted : ∃ es, Run network (genesis network) es demoted ∧
    StartsWithAddAdmin es ∧ (∀ e ∈ es, e.AsciiAddresses) ∧ ¬demoted.RolesAgree := by
  obtain ⟨happly, hstarts, hascii, hrole, hnone⟩ := demoted_facts
  have hrun : Run network (genesis network) demotion demoted :=
    Run.apply (.single apply_founded) (Env.apply_eq_after happly)
  refine ⟨demotion, hrun, hstarts, hascii, fun h => ?_⟩
  obtain ⟨a, ha, hindexer⟩ := World.exists_of_role_eq hrun.reachable.wellFormed hrole
  have hmem := (h.indexer admin a ha).mp hindexer
  rw [hnone] at hmem
  cases hmem

end Sample

end SettlementBus
