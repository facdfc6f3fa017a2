import SettlementBus.Invariants.Record
import SettlementBus.Invariants.Admin

/-! The deployments, their records and their creators. -/

namespace SettlementBus

open Lib View

variable {env : Env} {w w' : World} {node : Node} {op : Operation} {type : OperationType}
  {e : Event} {es : List Event} {bootstrap entry : Buffer}

/-- The bootstrap key that an event registers. -/
def Event.deployment (e : Event) : Option Buffer :=
  match e.cause with
  | .operation _ .bootstrapDeployment op => op.bs.bytes?
  | _ => none

/-- A deployment entry names the record of the operation that made it and its requester, who has an
account. -/
inductive Deployed (env : Env) (w : World) (bootstrap entry : Buffer) : Prop
  | mk {txHash address record : Buffer} {creator : Str} {op : Operation}
      {o : BootstrapDeploymentOperation Field} {c : Completion Field} {a : Account}
      (decoded : DeploymentEntry.decode entry env.config.addressLength = some { txHash, address })
      (valid : bufferToAddress env address = some creator)
      (recorded : w.view.get (.record txHash) = some record)
      (decodedRecord : env.safeDecodeApplyOperation record = some op)
      (type : op.type = OperationType.bootstrapDeployment.code)
      (value : op.value = some (.bdo o c)) (deployed : o.bs = .buffer bootstrap)
      (requester : op.address = .buffer address) (account : w.Has creator a)

def World.Deployments (env : Env) (w : World) : Prop :=
  ∀ bootstrap entry, w.view.get (.deployment bootstrap) = some entry →
    Deployed env w bootstrap entry

theorem Event.Step.exists_has (hs : e.Step env) (hw : e.before.WellFormed) {s : Str} {a : Account}
    (h : e.before.Has s a) : ∃ a', e.after.Has s a' := by
  have hp : e.before.view.Present (.account s) := by
    rw [View.Present, show Store.get e.before.view _ = _ from h]
    rfl
  obtain ⟨v, hv⟩ := Option.isSome_iff_exists.mp (hs.present hp)
  obtain ⟨a', -, ha'⟩ := (hs.wellFormed hw).has hv
  exact ⟨a', ha'⟩

theorem Deployed.step (hs : e.Step env) (hw : e.before.WellFormed)
    (h : Deployed env e.before bootstrap entry) : Deployed env e.after bootstrap entry := by
  obtain ⟨hdec, hvalid, hrec, hop, htype, hvalue, hbs, hreq, ha⟩ := h
  obtain ⟨a', ha'⟩ := hs.exists_has hw ha
  exact ⟨hdec, hvalid, hs.get_permanent rfl hrec, hop, htype, hvalue, hbs, hreq, ha'⟩

theorem decodeNode_eq_some (h : decodeNode env node = some (type, op)) :
    env.safeDecodeApplyOperation node.value = some op := by
  unfold decodeNode at h
  split at h
  case isTrue => cases h
  case isFalse =>
    simp only [Option.bind_eq_bind, Option.bind_eq_some_iff, Option.pure_def, Option.some.injEq,
      Prod.mk.injEq] at h
    obtain ⟨op', hdec, _, -, -, rfl⟩ := h
    exact hdec

namespace BootstrapDeploymentStep

variable (d : BootstrapDeploymentStep env w node op)

theorem bs_eq : op.bs = .buffer d.s.body.bs := by
  obtain ⟨-, -, ⟨f, hv, -⟩, -⟩ := Check.validateBootstrapDeploymentOperation_eq_some.mp d.check
  rw [Operation.bs, hv]
  rfl

theorem get_deployment (k : Buffer) : d.result.view.get (.deployment k) =
    if k = d.s.body.bs then some (d.s.body.tx ++ d.s.address)
    else w.view.get (.deployment k) := by
  simp [BootstrapDeploymentStep.result, Store.get_put]

theorem deployed (hw : w.WellFormed)
    (hdec : decodeNode env node = some (.bootstrapDeployment, op)) :
    Deployed env d.result d.s.body.bs (d.s.body.tx ++ d.s.address) := by
  obtain ⟨htype, ha, ⟨f, hv, -⟩, hs⟩ :=
    Check.validateBootstrapDeploymentOperation_eq_some.mp d.check
  have hvalid := (party_eq_ok.mp d.completed.verified.requester).1
  have hrec : d.result.view.get (.record d.s.body.tx) = some node.value := by
    simp [BootstrapDeploymentStep.result]
  have hstep := @Event.Step.operation env w node .bootstrapDeployment op hdec d
  obtain ⟨a, ha'⟩ := hstep.exists_has hw d.completed.requester
  exact ⟨DeploymentEntry.decode_append hvalid hs.tx.length_eq, hvalid, hrec,
    decodeNode_eq_some hdec, List.mem_singleton.mp htype, hv, rfl, ha, ha'⟩

end BootstrapDeploymentStep

/-- What an event does to the deployments. -/
structure Event.Deploys (env : Env) (e : Event) : Prop where
  fresh : ∀ {bootstrap}, e.deployment = some bootstrap →
    e.before.view.get (.deployment bootstrap) = none
  entry : ∀ {bootstrap}, e.deployment = some bootstrap → ∃ entry,
    e.after.view.get (.deployment bootstrap) = some entry ∧ Deployed env e.after bootstrap entry
  other : ∀ {bootstrap}, e.deployment ≠ some bootstrap →
    e.after.view.get (.deployment bootstrap) = e.before.view.get (.deployment bootstrap)

theorem Event.Deploys.of_none (h : e.deployment = none) (hget : ∀ bootstrap,
    e.after.view.get (.deployment bootstrap) = e.before.view.get (.deployment bootstrap)) :
    e.Deploys env where
  fresh hb := by cases h.symm.trans hb
  entry hb := by cases h.symm.trans hb
  other _ := hget _

theorem Event.Step.deploys (hs : e.Step env) (hw : e.before.WellFormed) : e.Deploys env := by
  cases hs with
  | @operation w node type op hdec s =>
    by_cases htype : type = .bootstrapDeployment
    case neg =>
      refine .of_none ?_ fun k => s.get_eq (decide_eq_false htype)
      cases type <;> first | rfl | exact absurd rfl htype
    subst htype
    have hbs := BootstrapDeploymentStep.bs_eq s
    have heq : ∀ {k}, op.bs.bytes? = some k → k = (BootstrapDeploymentStep.s s).body.bs := by
      intro k hk
      rw [hbs] at hk
      exact (Option.some.inj hk).symm
    refine ⟨fun hk => ?_, fun hk => ?_, fun {k} hk => ?_⟩
    · rw [heq hk]
      exact BootstrapDeploymentStep.undeployed s
    · rw [heq hk]
      exact ⟨_, (BootstrapDeploymentStep.get_deployment s _).trans (if_pos rfl),
        BootstrapDeploymentStep.deployed s hw hdec⟩
    · refine (BootstrapDeploymentStep.get_deployment s k).trans (if_neg ?_)
      rintro rfl
      exact hk (congrArg Field.bytes? hbs)
  | penalty hpos hn s => exact .of_none rfl fun k => s.get_eq rfl

theorem Event.Step.deployments (hs : e.Step env) (hw : e.before.WellFormed)
    (h : e.before.Deployments env) : e.after.Deployments env := by
  intro k entry hk
  have hdep := hs.deploys hw
  by_cases heq : e.deployment = some k
  · obtain ⟨entry', hentry, hd⟩ := hdep.entry heq
    cases hk.symm.trans hentry
    exact hd
  · rw [hdep.other heq] at hk
    exact (h k entry hk).step hs hw

theorem deployments_genesis : (genesis env).Deployments env := nofun

/-! ### Runs -/

theorem Path.deployment_notMem (h : Path env w es w') (hwf : w.WellFormed)
    (hw : w.view.Present (.deployment bootstrap)) :
    bootstrap ∉ es.filterMap Event.deployment := by
  induction h with
  | nil => exact List.not_mem_nil
  | @cons e es w' hs _ ih =>
    have hdep := hs.deploys hwf
    have hrest := ih (hs.wellFormed hwf) (hs.present hw)
    rw [List.filterMap_cons]
    cases hd : e.deployment with
    | none => exact hrest
    | some k =>
      refine fun hmem => (List.mem_cons.mp hmem).elim ?_ hrest
      rintro rfl
      rw [View.Present, hdep.fresh hd] at hw
      cases hw

/-- No bootstrap key is deployed twice. -/
theorem Path.deployments_nodup (h : Path env w es w') (hwf : w.WellFormed) :
    (es.filterMap Event.deployment).Nodup := by
  induction h with
  | nil => exact List.nodup_nil
  | @cons e es w' hs hrest ih =>
    have hafter := hs.wellFormed hwf
    rw [List.filterMap_cons]
    cases hd : e.deployment with
    | none => exact ih hafter
    | some k =>
      obtain ⟨entry, hentry, -⟩ := (hs.deploys hwf).entry hd
      refine List.nodup_cons.mpr ⟨hrest.deployment_notMem hafter ?_, ih hafter⟩
      rw [View.Present, hentry]
      rfl

/-- What is deployed after a path was deployed before it or on it. -/
theorem Path.present_deployment (h : Path env w es w') (hwf : w.WellFormed) :
    w'.view.Present (.deployment bootstrap) ↔
      w.view.Present (.deployment bootstrap) ∨ bootstrap ∈ es.filterMap Event.deployment := by
  induction h with
  | nil => simp
  | @cons e es w' hs hrest ih =>
    have hdep := hs.deploys hwf
    rw [ih (hs.wellFormed hwf), List.filterMap_cons]
    cases hd : e.deployment with
    | none =>
      rw [View.Present, hdep.other (hd ▸ Option.some_ne_none bootstrap |>.symm)]
    | some k =>
      rw [List.mem_cons]
      by_cases hk : bootstrap = k
      · subst hk
        obtain ⟨entry, hentry, -⟩ := hdep.entry hd
        exact iff_of_true (.inl (by rw [View.Present, hentry]; rfl)) (.inr (.inl rfl))
      · rw [View.Present, hdep.other (by rw [hd]; exact fun h => hk (Option.some.inj h).symm)]
        simp [hk]

end SettlementBus
