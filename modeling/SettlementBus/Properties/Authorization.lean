import SettlementBus.Invariants.Stake
import SettlementBus.Properties.Roles
import SettlementBus.Steps.Effect

/-! Which accounts an event may change, and on whose authority. -/

namespace SettlementBus

open Lib View

variable {env : Env} {w w' : World} {node : Node} {op : Operation} {type : OperationType}
  {s : Str} {a a' : Account} {es : List Event}

section

variable (env)

/-- The entries an event may change: the accounts an operation names and the other entries its type
writes, and for a penalty the account to which the author key is registered. -/
def Event.Changes (e : Event) : EntryKey → Prop
  | .account s =>
    match e.cause with
    | .operation _ _ op => op.Names env e.before s
    | .penalty key _ => e.before.owner env key = some s
  | k =>
    match e.cause with
    | .operation _ type _ => type.writes k
    | .penalty .. => False

/-- The event is an operation that `s` requested and signed, and costs it no more than the fee and
what the operation moves. -/
inductive Event.PaidBy (e : Event) (s : Str) : Prop
  | pays {node : Node} {type : OperationType} {op : Operation}
      (cause : e.cause = .operation node type op) (signed : SignedBy env type op s)
      (cost : e.before.balance s ≤ e.after.balance s + allowance type op)
      (stake : type = .addWriter →
        e.after.stakedBalance s = e.before.stakedBalance s + balanceToStake.toNat)

/-- The event takes the stake of `s` on the authority of `s` or of the admin, who return it to the
balance of `s`, or as a penalty for a key of `s`. -/
inductive Event.UnstakedBy (e : Event) (s : Str) : Prop
  | removeWriter {node : Node} {op : Operation} (cause : e.cause = .operation node .removeWriter op)
      (signed : SignedBy env .removeWriter op s) (rest : e.after.stakedBalance s = 0)
      (returned : e.after.balance s + balanceFee.toNat =
        e.before.balance s + e.before.stakedBalance s)
  | banValidator {node : Node} {op : Operation} (cause : e.cause = .operation node .banValidator op)
      (controls : AdminControls env e.before node .banValidator op s)
      (rest : e.after.stakedBalance s = 0)
      (returned : e.after.balance s = e.before.balance s + e.before.stakedBalance s)
  | penalty {key : Buffer} {n : ℕ} (cause : e.cause = .penalty key n)
      (owner : e.before.owner env key = some s)

structure Event.Authorized (e : Event) : Prop where
  frame : ∀ k, e.after.view.get k ≠ e.before.view.get k → e.Changes env k
  balance : ∀ s, e.after.balance s < e.before.balance s → e.PaidBy env s
  stake : ∀ s, e.after.stakedBalance s < e.before.stakedBalance s → e.UnstakedBy env s

end

theorem OperationStep.changes (e : OperationStep env w node op type) {k : EntryKey}
    (h : e.result.view.get k ≠ w.view.get k) : Event.Changes env
      { before := w, cause := .operation node type op, after := e.result } k := by
  by_contra hn
  cases k with
  | account s => exact h (e.get_account hn)
  | _ => exact h (e.get_eq (Bool.eq_false_iff.mpr hn))

theorem Event.Step.changes {e : Event} (hs : e.Step env) {k : EntryKey}
    (h : e.after.view.get k ≠ e.before.view.get k) : e.Changes env k := by
  cases hs with
  | operation hdec s => exact s.changes h
  | penalty hpos hn s =>
    by_cases hk : k = .account s.validator.address
    · rw [hk]
      exact s.owner_eq
    · exact absurd (Store.get_put_ne _ _ hk) h

/-! ### Operations -/

theorem Banned.toNat_le {t banned : Account} (h : Banned t banned) :
    t.balance.toNat ≤ banned.balance.toNat := by
  cases h with
  | whitelisted => exact Nat.le_refl _
  | writer hrole hstaked released => exact le_of_eq_add released

/-- A ban takes the whole stake, if any, and returns it. -/
theorem Banned.returned {t banned : Account} (h : Banned t banned) :
    banned.stakedBalance = t.stakedBalance ∨ banned.stakedBalance.toNat = 0 ∧
      banned.balance.toNat = t.balance.toNat + t.stakedBalance.toNat := by
  cases h with
  | whitelisted => exact .inl rfl
  | writer hrole hstaked released => exact .inr ⟨toNat_balanceZero, released⟩

theorem Effect.paid {w₁ : World} (h : Effect env w node op s type a a') (ha : w.Has s a)
    (ha' : w₁.Has s a') (hstaked : a.Staked) (hlt : a'.balance.toNat < a.balance.toNat) :
    Event.PaidBy env { before := w, cause := .operation node type op, after := w₁ } s := by
  have hcost : a.balance.toNat ≤ a'.balance.toNat + allowance type op →
      w.balance s ≤ w₁.balance s + allowance type op := by
    rw [World.balance_eq ha, World.balance_eq ha']
    exact id
  cases h with
  | gains h => exact absurd hlt (Nat.not_lt.mpr h)
  | pays hsigned cost stake hne => exact .pays rfl hsigned (hcost cost) fun h => absurd h hne
  | recast balance => exact absurd hlt (balance ▸ Nat.lt_irrefl _)
  | addWriter e hsigned =>
    refine .pays rfl hsigned (hcost (e.charged.ge.trans ?_)) fun _ => ?_
    · exact Nat.le_refl _
    · have hzero : e.r.stakedBalance.toNat = 0 := by
        rw [hstaked, e.role]
        exact toNat_balanceZero
      rw [World.stakedBalance_eq ha, World.stakedBalance_eq ha', hzero, Nat.zero_add]
      rfl
  | removeWriter e hsigned =>
    refine .pays rfl hsigned (hcost ?_) nofun
    exact (Nat.le_add_right _ _).trans (e.charged.ge.trans
      (Nat.add_le_add_left balanceFee_le_allowance _))
  | banned e h => exact absurd hlt (Nat.not_lt.mpr e.ban.toNat_le)

theorem Effect.unstaked {w₁ : World} (h : Effect env w node op s type a a') (ha : w.Has s a)
    (ha' : w₁.Has s a') (hstaked : a.Staked)
    (hlt : a'.stakedBalance.toNat < a.stakedBalance.toNat) :
    Event.UnstakedBy env { before := w, cause := .operation node type op, after := w₁ } s := by
  cases h with
  | gains h => exact absurd hlt (Nat.lt_irrefl _)
  | pays hsigned cost stake hne => exact absurd hlt (stake ▸ Nat.lt_irrefl _)
  | recast balance stake => exact absurd hlt (stake ▸ Nat.lt_irrefl _)
  | addWriter e hsigned =>
    rw [hstaked, e.role] at hlt
    exact absurd hlt (Nat.not_lt.mpr (toNat_balanceZero.trans_le (Nat.zero_le _)))
  | removeWriter e hsigned =>
    refine .removeWriter rfl hsigned ?_ ?_
    · rw [World.stakedBalance_eq ha']
      exact toNat_balanceZero
    · rw [World.balance_eq ha', World.balance_eq ha, World.stakedBalance_eq ha]
      exact e.charged
  | banned e h =>
    obtain hsame | ⟨hrest, hreturned⟩ := e.ban.returned
    · exact absurd hlt (hsame ▸ Nat.lt_irrefl _)
    · refine .banValidator rfl ⟨_, _, _, e.check, e.signed, h ▸ e.ia⟩ ?_ ?_
      · rw [World.stakedBalance_eq ha', hrest]
      · rw [World.balance_eq ha', World.balance_eq ha, World.stakedBalance_eq ha, hreturned]

/-! ### Events -/

/-- An account that has lost something is there before and after the event. -/
theorem Event.Step.has_of_lt {e : Event} (hs : e.Step env) (hw : e.before.WellFormed)
    {f : World → Str → ℕ} (hnone : ∀ w : World, w.view.get (.account s) = none → f w s = 0)
    (h : f e.after s < f e.before s) : ∃ a a', e.before.Has s a ∧ e.after.Has s a' := by
  have hbefore : e.before.view.Present (.account s) := by
    rw [View.Present, Option.isSome_iff_ne_none]
    intro hget
    rw [hnone _ hget] at h
    exact Nat.not_lt_zero _ h
  obtain ⟨v, hv⟩ := Option.isSome_iff_exists.mp hbefore
  obtain ⟨v', hv'⟩ := Option.isSome_iff_exists.mp (hs.present hbefore)
  obtain ⟨a, -, ha⟩ := View.WellFormed.has hw hv
  obtain ⟨a', -, ha'⟩ := View.WellFormed.has (hs.wellFormed hw) hv'
  exact ⟨a, a', ha, ha'⟩

theorem World.balance_of_none (h : w.view.get (.account s) = none) : w.balance s = 0 := by
  rw [World.balance, h]
  rfl

theorem World.stakedBalance_of_none (h : w.view.get (.account s) = none) :
    w.stakedBalance s = 0 := by
  rw [World.stakedBalance, h]
  rfl

theorem PenaltyStep.balance_le {key : Buffer} {n : ℕ} (e : PenaltyStep env w key n)
    (ha : w.Has s a) (ha' : e.result.Has s a') : a.balance.toNat ≤ a'.balance.toNat := by
  simp only [World.Has, PenaltyStep.result, has_put_account] at ha'
  obtain ⟨rfl, rfl⟩ | ⟨-, ha'⟩ := ha'
  · cases ha.unique e.has
    exact le_of_eq_add e.released
  · cases ha.unique ha'
    exact Nat.le_refl _

/-- What holds from the time when the initialization is disabled. -/
structure World.Settled (env : Env) (w : World) : Prop where
  founded : w.Founded env
  staked : w.Staked
  disabled : w.InitializationDisabled

theorem World.Settled.ne_addAdmin (hw : w.Settled env) (e : OperationStep env w node op type) :
    type ≠ .addAdmin := by
  rintro rfl
  have hdisabled := hw.disabled
  rw [AddAdminStep.eq_genesis e hw.founded] at hdisabled
  cases hdisabled

theorem Event.Step.settled {e : Event} (hs : e.Step env) (hw : e.before.WellFormed)
    (h : e.before.Settled env) : e.after.Settled env where
  founded := hs.founded h.founded
  staked := hs.staked hw h.staked
  disabled := by
    cases hs with
    | @operation w node type op hdec s =>
      refine (s.get_eq ?_).trans h.disabled
      have hne := h.ne_addAdmin s
      cases type with
      | addAdmin => exact absurd rfl hne
      | disableInitialization => exact absurd h.disabled (DisableInitializationStep.enabled s)
      | _ => rfl
    | penalty hpos hn s => exact (s.get_eq rfl).trans h.disabled

theorem Event.Step.authorized {e : Event} (hs : e.Step env) (hw : e.before.WellFormed)
    (h : e.before.Settled env) : e.Authorized env where
  frame _ hne := hs.changes hne
  balance s hlt := by
    obtain ⟨a, a', ha, ha'⟩ := hs.has_of_lt hw (f := World.balance)
      (fun _ => World.balance_of_none) hlt
    rw [World.balance_eq ha, World.balance_eq ha'] at hlt
    cases hs with
    | operation hdec e =>
      exact (e.effect h.disabled (h.ne_addAdmin e) ha ha').paid ha ha' (h.staked _ _ ha) hlt
    | penalty hpos hn e => exact absurd hlt (Nat.not_lt.mpr (e.balance_le ha ha'))
  stake s hlt := by
    obtain ⟨a, a', ha, ha'⟩ := hs.has_of_lt hw (f := World.stakedBalance)
      (fun _ => World.stakedBalance_of_none) hlt
    rw [World.stakedBalance_eq ha, World.stakedBalance_eq ha'] at hlt
    cases hs with
    | operation hdec e =>
      exact (e.effect h.disabled (h.ne_addAdmin e) ha ha').unstaked ha ha' (h.staked _ _ ha) hlt
    | penalty hpos hn e =>
      refine .penalty rfl ?_
      simp only [World.Has, PenaltyStep.result, has_put_account] at ha'
      obtain ⟨rfl, -⟩ | ⟨-, ha'⟩ := ha'
      · exact e.owner_eq
      · cases ha.unique ha'
        exact absurd hlt (Nat.lt_irrefl _)

/-! ### Runs -/

/-- What differs between the ends of a path differs across one of its events. -/
theorem Path.exists_of_not {R : World → World → Prop} (hrefl : ∀ w, R w w)
    (htrans : ∀ w₁ w₂ w₃, R w₁ w₂ → R w₂ w₃ → R w₁ w₃) (h : Path env w es w') (hR : ¬R w w') :
    ∃ e ∈ es, ¬R e.before e.after := by
  induction h with
  | nil => exact absurd (hrefl _) hR
  | @cons e es w' hs _ ih =>
    by_cases he : R e.before e.after
    · obtain ⟨e', he', hne⟩ := ih fun hrest => hR (htrans _ _ _ he hrest)
      exact ⟨e', List.mem_cons_of_mem _ he', hne⟩
    · exact ⟨e, List.mem_cons_self, he⟩

/-- Once the initialization is disabled, batches change the entries that their operations and
penalties name only, no balance falls without an operation that its owner signed, and no stake
without its owner's or the admin's operation or a penalty for a key of its owner. -/
theorem run_authorized (hw : Reachable env w) (hdisabled : w.InitializationDisabled)
    (hrun : Run env w es w') :
    (∀ e ∈ es, e.Authorized env) ∧
      (∀ k, w'.view.get k ≠ w.view.get k → ∃ e ∈ es, e.Changes env k) ∧
      (∀ s, w'.balance s < w.balance s → ∃ e ∈ es, e.PaidBy env s) ∧
      ∀ s, w'.stakedBalance s < w.stakedBalance s → ∃ e ∈ es, e.UnstakedBy env s := by
  have hp := hrun.path hw.wellFormed
  have hsettled : w.Settled env := ⟨hw.visited.founded, hw.visited.staked, hdisabled⟩
  have hevents : ∀ e ∈ es, e.Authorized env := fun e he => by
    obtain ⟨hs, hwf, h⟩ := hp.mem (P := World.Settled env) hw.wellFormed hsettled
      (fun _ hs => hs.settled) he
    exact hs.authorized hwf h
  refine ⟨hevents, fun k hne => ?_, fun s hlt => ?_, fun s hlt => ?_⟩
  · obtain ⟨e, he, hne⟩ := hp.exists_of_not (R := fun w w' => w'.view.get k = w.view.get k)
      (fun _ => rfl) (fun _ _ _ h h' => h'.trans h) hne
    exact ⟨e, he, (hevents e he).frame k hne⟩
  · obtain ⟨e, he, hlt⟩ := hp.exists_of_not (R := fun w w' => w.balance s ≤ w'.balance s)
      (fun _ => Nat.le_refl _) (fun _ _ _ => Nat.le_trans) (Nat.not_le.mpr hlt)
    exact ⟨e, he, (hevents e he).balance s (Nat.not_le.mp hlt)⟩
  · obtain ⟨e, he, hlt⟩ := hp.exists_of_not
      (R := fun w w' => w.stakedBalance s ≤ w'.stakedBalance s)
      (fun _ => Nat.le_refl _) (fun _ _ _ => Nat.le_trans) (Nat.not_le.mpr hlt)
    exact ⟨e, he, (hevents e he).stake s (Nat.not_le.mp hlt)⟩

namespace Sample

theorem whitelistAlice_facts :
    (events network [block bootstrap whitelistAliceOp] disabled).length = 1 ∧
    disabled.InitializationDisabled ∧
    (apply network [block bootstrap whitelistAliceOp] disabled).isSome := by
  decide +kernel

theorem run_authorized_disabled :
    (events network [block bootstrap whitelistAliceOp] disabled).length = 1 ∧
      ∀ e ∈ events network [block bootstrap whitelistAliceOp] disabled, e.Authorized network :=
  ⟨whitelistAlice_facts.1, (run_authorized reachable_disabled whitelistAlice_facts.2.1
    (.single (Env.apply_eq_after whitelistAlice_facts.2.2))).1⟩

end Sample

end SettlementBus
