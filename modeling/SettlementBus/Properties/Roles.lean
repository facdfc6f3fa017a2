import SettlementBus.Invariants.Admin
import SettlementBus.Sample

/-! The roles of an address over a run. -/

namespace SettlementBus

open Lib View

variable {env : Env} {w w' : World} {node : Node} {op : Operation} {type : OperationType}
  {address : Str}

/-- The admin signed the operation, and `target` is whom it controls. -/
def AdminControls (env : Env) (w : World) (node : Node) (type : OperationType) (op : Operation)
    (target : Str) : Prop :=
  ∃ address o requester, Check.validateAdminControlOperation env op = some (address, o) ∧
    AdminSigned env w node (adminControlMessage env type o) address o.txv o.tx o.is requester ∧
    bufferToAddress env o.ia = some target

/-- The edges along which an event may change the role of an address. -/
inductive RoleEdge (env : Env) (w : World) (address : Str) :
    Cause → Option NodeRole → Option NodeRole → Prop
  | same {cause : Cause} (r : Option NodeRole) : RoleEdge env w address cause r r
  | received {node : Node} {type : OperationType} {op : Operation}
      (h : type = .transfer ∨ type = .balanceInitialization)
      (hrecipient : op.recipient.account env = some address) :
      RoleEdge env w address (.operation node type op) none (some .reader)
  | addAdmin {node : Node} {op : Operation} (h : op.address.account env = some address) :
      RoleEdge env w address (.operation node .addAdmin op) none (some .indexer)
  | appendWhitelist {node : Node} {op : Operation} {r : Option NodeRole}
      (hr : r = none ∨ r = some .reader)
      (h : AdminControls env w node .appendWhitelist op address) :
      RoleEdge env w address (.operation node .appendWhitelist op) r (some .whitelisted)
  | addWriter {node : Node} {op : Operation} (h : op.address.account env = some address) :
      RoleEdge env w address (.operation node .addWriter op) (some .whitelisted) (some .writer)
  | removeWriter {node : Node} {op : Operation} (h : op.address.account env = some address) :
      RoleEdge env w address (.operation node .removeWriter op) (some .writer) (some .whitelisted)
  | addIndexer {node : Node} {op : Operation}
      (h : AdminControls env w node .addIndexer op address) :
      RoleEdge env w address (.operation node .addIndexer op) (some .writer) (some .indexer)
  | removeIndexer {node : Node} {op : Operation}
      (h : AdminControls env w node .removeIndexer op address) :
      RoleEdge env w address (.operation node .removeIndexer op) (some .indexer) (some .writer)
  | banValidator {node : Node} {op : Operation} {r : NodeRole}
      (hr : r = .whitelisted ∨ r = .writer)
      (h : AdminControls env w node .banValidator op address) :
      RoleEdge env w address (.operation node .banValidator op) (some r) (some .reader)
  | penalty {key : Buffer} {n : ℕ} {r : NodeRole} (hr : r = .writer ∨ r = .indexer)
      (h : w.owner env key = some address) :
      RoleEdge env w address (.penalty key n) (some r) (some .whitelisted)

section

variable (env)

def Event.Bans (e : Event) (address : Str) : Prop :=
  ∃ node op, e.cause = .operation node .banValidator op ∧
    AdminControls env e.before node .banValidator op address

def Event.Whitelists (e : Event) (address : Str) : Prop :=
  ∃ node op, e.cause = .operation node .appendWhitelist op ∧
    AdminControls env e.before node .appendWhitelist op address

/-- A penalty does not hit a reader, and a ban names another account than its requester's. -/
def Event.RoleSafe (e : Event) : Prop :=
  match e.cause with
  | .operation _ type op =>
    type = .banValidator → op.target.account env ≠ op.address.account env
  | .penalty key _ => ∀ address ∈ e.before.owner env key, e.before.role address ≠ some .reader

instance : (e : Event) → Decidable (e.RoleSafe env)
  | ⟨_, .operation _ type _, _⟩ => inferInstanceAs (Decidable (type = .banValidator → _ ≠ _))
  | ⟨before, .penalty key _, _⟩ =>
    inferInstanceAs (Decidable (∀ address ∈ before.owner env key, _ ≠ _))

/-- The event moves roles along the edges only, and a banned address becomes a reader. -/
structure Event.RolesKept (e : Event) : Prop where
  edge : ∀ address, RoleEdge env e.before address e.cause (e.before.role address)
    (e.after.role address)
  banned : ∀ address, e.Bans env address → e.after.role address = some .reader

end

theorem View.Lookup.role_eq {old : Option Account} (h : w.view.Lookup address old) :
    w.role address = old.map Account.role := by
  cases old with
  | none => exact World.role_eq_none h
  | some a => exact World.role_eq h

/-- Every change of an account is one of the edges. -/
theorem Change.roleEdge (hw : w.Founded env) {old : Option Account} {a' : Account}
    (hlookup : w.view.Lookup address old) (h : Change env w node op address type old a') :
    RoleEdge env w address (.operation node type op) (old.map Account.role) (some a'.role) := by
  cases h with
  | balance a b => exact .same _
  | reader b h hrecipient => exact .received h hrecipient
  | addAdmin e h =>
    cases e.eq_genesis hw
    cases old with
    | some a => exact absurd hlookup not_has_genesis
    | none =>
      obtain ⟨-, ha, -⟩ := Check.validateCoreAdminOperation_eq_some.mp e.check
      refine .addAdmin ?_
      rw [ha, h]
      exact (party_eq_ok.mp e.requester).1
  | appendWhitelist e h hold =>
    refine .appendWhitelist ?_ ⟨_, _, _, e.check, e.signed, h ▸ (party_eq_ok.mp e.ia).1⟩
    obtain rfl | rfl := hold
    · exact .inl rfl
    · exact .inr (congrArg some e.notWhitelisted.role_eq)
  | addWriter e h =>
    obtain ⟨-, ha, -⟩ := Check.validateRoleAccessOperation_eq_some.mp e.check
    rw [Option.map_some, e.role]
    refine .addWriter ?_
    rw [ha, h]
    exact (party_eq_ok.mp e.completed.verified.requester).1
  | removeWriter e h =>
    obtain ⟨-, ha, -⟩ := Check.validateRoleAccessOperation_eq_some.mp e.check
    rw [Option.map_some, e.role]
    refine .removeWriter ?_
    rw [ha, h]
    exact (party_eq_ok.mp e.completed.verified.requester).1
  | adminRecovery e h => exact .same _
  | addIndexer e h hne =>
    rw [Option.map_some, e.role]
    exact .addIndexer ⟨_, _, _, e.check, e.signed, h ▸ (party_eq_ok.mp e.ia).1⟩
  | removeIndexer e h hne =>
    rw [Option.map_some, e.role]
    exact .removeIndexer ⟨_, _, _, e.check, e.signed, h ▸ (party_eq_ok.mp e.ia).1⟩
  | banValidator e h hne =>
    have hcontrols : AdminControls env w node .banValidator op address :=
      ⟨_, _, _, e.check, e.signed, h ▸ e.ia⟩
    obtain ⟨hrole, hbanned⟩ := e.ban.roles
    rw [hbanned]
    exact .banValidator hrole hcontrols

theorem OperationStep.roleEdge (hwf : w.WellFormed) (hw : w.Founded env)
    (e : OperationStep env w node op type) : RoleEdge env w address (.operation node type op)
      (w.role address) (e.result.role address) := by
  cases hget : e.result.view.get (.account address) with
  | none =>
    rw [World.role_eq_none hget, World.role_eq_none]
    · exact .same _
    · by_contra hne
      have hpresent := e.present (k := .account address) (Option.ne_none_iff_isSome.mp hne)
      rw [View.Present, hget] at hpresent
      cases hpresent
  | some v =>
    obtain ⟨a', rfl, ha'⟩ := (e.wellFormed hwf).has hget
    obtain ⟨old, hlookup, hchange⟩ := e.change hwf ha'
    rw [hlookup.role_eq, World.role_eq ha']
    exact hchange.roleEdge hw hlookup

theorem BanValidatorStep.role_eq (e : BanValidatorStep env w node op) :
    e.result.role e.target = some .reader ↔ op.target.account env ≠ op.address.account env := by
  obtain ⟨-, ha, hv, -⟩ := Check.validateAdminControlOperation_eq_some.mp e.check
  have hreq := (party_eq_ok.mp e.signed.decoded).1
  rw [Operation.target, hv, ha]
  simp only [AdminControlOperation.toField, Field.account_buffer, e.ia, hreq, ne_eq,
    Option.some.injEq]
  by_cases heq : e.target = e.requester.address
  · have hhas : e.result.Has e.target e.admin := by
      simp [World.Has, BanValidatorStep.result, heq]
    have hpayer := e.payer
    rw [← heq] at hpayer
    have hrole : e.a.role = e.t.role := by rw [hpayer.unique e.has]
    rw [World.role_eq hhas, Option.some.injEq, BanValidatorStep.admin]
    refine iff_of_false (fun h => ?_) (fun hne => hne heq)
    obtain ht | ht := e.ban.roles.1
    · cases (ht.symm.trans hrole.symm).trans h
    · cases (ht.symm.trans hrole.symm).trans h
  · have hhas : e.result.Has e.target e.banned := by
      simp [World.Has, BanValidatorStep.result, heq]
    refine iff_of_true ?_ heq
    rw [World.role_eq hhas, e.ban.roles.2]

theorem PenaltyStep.rolesKept_iff {key : Buffer} {n : ℕ} (e : PenaltyStep env w key n) :
    (∀ address, RoleEdge env w address (.penalty key n) (w.role address)
      (e.result.role address)) ↔ e.a.role ≠ .reader := by
  have hold := World.role_eq e.has
  have hnew : e.result.role e.validator.address = some .whitelisted :=
    World.role_eq (a := e.account) (by simp [World.Has, PenaltyStep.result])
  constructor
  · intro h hrole
    have hedge := h e.validator.address
    rw [hold, hnew, hrole] at hedge
    cases hedge with
    | penalty hr => exact hr.elim (fun h => by cases h) (fun h => by cases h)
  · intro hrole address
    by_cases heq : address = e.validator.address
    · subst heq
      rw [hold, hnew]
      cases hr : e.a.role with
      | reader => exact absurd hr hrole
      | whitelisted => exact .same _
      | writer => exact .penalty (.inl rfl) e.owner_eq
      | indexer => exact .penalty (.inr rfl) e.owner_eq
    · have hget : e.result.role address = w.role address := by
        rw [World.role, World.role, PenaltyStep.result, Store.get_put_ne _ _ (by simpa using heq)]
      rw [hget]
      exact .same _

theorem Event.Step.rolesKept_iff {e : Event} (hs : e.Step env) (hwf : e.before.WellFormed)
    (hw : e.before.Founded env) : e.RolesKept env ↔ e.RoleSafe env := by
  cases hs with
  | @operation w node type op hdec s =>
    have hban : ∀ s' : BanValidatorStep env w node op, type = .banValidator →
        (∀ address, Bans env ⟨w, .operation node type op, s.result⟩ address ↔
          s'.target = address) := by
      rintro s' rfl address
      constructor
      · rintro ⟨_, _, ⟨⟩, _, o, _, hcheck, -, hia⟩
        cases s'.check.symm.trans hcheck
        exact Option.some.inj (s'.ia.symm.trans hia)
      · rintro rfl
        exact ⟨_, _, rfl, _, _, _, s'.check, s'.signed, s'.ia⟩
    by_cases htype : type = .banValidator
    · subst htype
      have hrole := BanValidatorStep.role_eq s
      constructor
      · exact fun h _ => hrole.mp (h.banned _ ((hban s rfl _).mpr rfl))
      · refine fun h => ⟨fun address => s.roleEdge hwf hw, fun address hbans => ?_⟩
        rw [← (hban s rfl address).mp hbans]
        exact hrole.mpr (h rfl)
    · refine iff_of_true ⟨fun address => s.roleEdge hwf hw, ?_⟩ fun h => absurd h htype
      rintro address ⟨_, _, heq, -⟩
      cases heq
      exact absurd rfl htype
  | @penalty w key n hpos hn s =>
    have hkept := s.rolesKept_iff
    constructor
    · rintro ⟨hedge, -⟩ address howner hrole
      cases s.owner_eq.symm.trans howner
      refine hkept.mp hedge ?_
      exact Option.some.inj ((World.role_eq s.has).symm.trans hrole)
    · intro h
      refine ⟨hkept.mpr fun hrole => h _ s.owner_eq ?_, ?_⟩
      · rw [World.role_eq s.has, hrole]
      · rintro address ⟨_, _, heq, -⟩
        cases heq

/-- A reader stays a reader until it is whitelisted. -/
theorem RoleEdge.of_reader {e : Event} {r : Option NodeRole}
    (h : RoleEdge env e.before address e.cause (some .reader) r) :
    r = some .reader ∨ e.Whitelists env address := by
  generalize hcause : e.cause = cause at h
  cases h with
  | same => exact .inl rfl
  | @appendWhitelist node op _ _ h => exact .inr ⟨node, op, hcause, h⟩
  | banValidator => exact .inl rfl
  | penalty hr => exact hr.elim nofun nofun

theorem Path.stays_reader {es : List Event} (h : Path env w es w')
    (hkept : ∀ e ∈ es, e.RolesKept env) (hnot : ∀ e ∈ es, ¬e.Whitelists env address)
    (hrole : w.role address = some .reader) : w'.role address = some .reader := by
  refine h.preserves (P := fun w => w.role address = some .reader) hrole fun e he _ hbefore => ?_
  have hedge := (hkept e he).edge address
  rw [hbefore] at hedge
  exact hedge.of_reader.resolve_right (hnot e he)

/-- An address that was banned in a run is a reader at its end unless it was whitelisted since. -/
def BansStick (env : Env) (es : List Event) (w : World) : Prop :=
  ∀ es₁ e es₂ address, es = es₁ ++ e :: es₂ → e.Bans env address →
    (∀ e' ∈ es₂, ¬e'.Whitelists env address) → w.role address = some .reader

theorem Path.bansStick {es : List Event} (h : Path env w es w')
    (hkept : ∀ e ∈ es, e.RolesKept env) : BansStick env es w' := by
  rintro es₁ e es₂ address rfl hbans hnot
  obtain ⟨w₁, -, hrest⟩ := Path.append_iff.mp h
  cases hrest with
  | cons hs hrest =>
    refine hrest.stays_reader (fun e' he' => hkept e' ?_) hnot ((hkept e ?_).banned address hbans)
    · exact List.mem_append_right _ (List.mem_cons_of_mem _ he')
    · exact List.mem_append_right _ List.mem_cons_self

/-- In a run whose penalties spare readers and whose bans do not name their requester, roles change
along the edges only and bans stick. -/
theorem roles_of_run {es : List Event} (hrun : Run env (genesis env) es w)
    (hsafe : ∀ e ∈ es, e.RoleSafe env) : (∀ e ∈ es, e.RolesKept env) ∧ BansStick env es w := by
  have hp := hrun.path wellFormed_genesis
  have hkept : ∀ e ∈ es, e.RolesKept env := fun e he => by
    obtain ⟨hs, hwf, hfounded⟩ := hp.mem wellFormed_genesis (.inl rfl)
      (fun _ hs _ => hs.founded) he
    exact (hs.rolesKept_iff hwf hfounded).mpr (hsafe e he)
  exact ⟨hkept, hp.bansStick hkept⟩

namespace Sample

theorem roles_of_run_expelled :
    (∀ e ∈ expulsion, e.RolesKept network) ∧ BansStick network expulsion expelled :=
  roles_of_run run_expelled (by decide +kernel)

/-- The admin has banned Alice. -/
def banned : World := network.after [block bootstrap banAliceOp] joined

theorem banned_facts :
    (apply network [block bootstrap banAliceOp] joined).isSome ∧
    banned.role alice = some .reader ∧
    (events network [late] banned).any (fun e => e.operationType = none ∧
      e.before.role alice = some .reader ∧ e.after.role alice = some .whitelisted) := by
  decide +kernel

/-- The penalty for a late block makes the banned reader whitelisted. -/
theorem not_rolesKept_late : Reachable network banned ∧ banned.role alice = some .reader ∧
    ∃ e ∈ events network [late] banned, ¬e.RolesKept network := by
  obtain ⟨happly, hrole, hany⟩ := banned_facts
  refine ⟨reachable_joined.after happly, hrole, ?_⟩
  obtain ⟨e, he, h⟩ := List.any_eq_true.mp hany
  obtain ⟨htype, hbefore, hafter⟩ := of_decide_eq_true h
  refine ⟨e, he, fun hkept => ?_⟩
  have hedge := hkept.edge alice
  rw [hbefore] at hedge
  obtain hrole | ⟨node, op, hcause, -⟩ := hedge.of_reader
  · cases hafter.symm.trans hrole
  · cases htype.symm.trans (Event.operationType_eq_some.mpr ⟨node, op, hcause⟩)

end Sample

end SettlementBus
