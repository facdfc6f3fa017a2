import SettlementBus.Invariants.Deployment
import SettlementBus.Validators.Value
import SettlementBus.Sample

/-! The deployment registry. -/

namespace SettlementBus

open Lib View

variable {env : Env} {w w' : World} {es : List Event}

/-- The deployments of a state in which handlers run: each belongs to a record and to a creator
whose entry `#transferFeeTxOperation` can read. -/
structure World.DeploymentsSound (env : Env) (w : World) : Prop where
  deployed : w.Deployments env
  creator : ∀ bootstrap entry, w.view.get (.deployment bootstrap) = some entry →
    ∃ creator nodeEntry decoded, w.creator env bootstrap = some creator ∧
      w.view.get (.account creator) = some nodeEntry ∧ NodeEntry.decode nodeEntry = some decoded

theorem World.Deployments.sound (h : w.Deployments env) : w.DeploymentsSound env := by
  refine ⟨h, fun bootstrap entry hentry => ?_⟩
  obtain ⟨hdec, hvalid, -, -, -, -, -, -, ha⟩ := h bootstrap entry hentry
  exact ⟨_, _, _, by rw [World.creator, hentry, Option.bind_some, hdec, Option.bind_some, hvalid],
    ha, Account.decode_toBuffer _⟩

/-- What a validator reads: a signed state and a later one. -/
def LocalState.of (signed w : World) : LocalState :=
  { signed := signed.view, view := w.view, base := w.base }

theorem PartialTransaction.validateIfExternalBootstrapHasBeenDeployed_eq
    (h : w.Deployments env) (hw : w.WellFormed) (hrun : Run env w es w') (bootstrap : Buffer) :
    validateIfExternalBootstrapHasBeenDeployed env (.of w w') bootstrap =
      if w.view.Present (.deployment bootstrap) then .ok ()
      else .error (.code .externalBootstrapNotDeployed) := by
  by_cases hp : w.view.Present (.deployment bootstrap)
  · rw [if_pos hp]
    obtain ⟨entry, hget⟩ := Option.isSome_iff_exists.mp hp
    obtain ⟨hdec, -, hrec, hop, -, hvalue, hbs, -, -⟩ := h bootstrap entry hget
    have hrec' := (hrun.path hw).get_permanent (k := .record _) rfl hrec
    simp only [validateIfExternalBootstrapHasBeenDeployed, bind_eq_ok, orExit_eq_ok, require_eq_ok]
    refine ⟨entry, hget, _, hdec, _, hrec', bootstrap, ?_, rfl⟩
    rw [deployedBootstrap, hop, Option.bind_some, hvalue]
    exact congrArg Field.bytes? hbs
  · rw [if_neg hp, validateIfExternalBootstrapHasBeenDeployed,
      show (LocalState.of w w').getRegisteredBootstrapEntry bootstrap = none from
        Option.not_isSome_iff_eq_none.mp hp]
    rfl

/-- In every run a deployment is written once, for good and soundly, and the pre-validation of a
transaction refuses nothing but bootstrap keys that are not deployed in the signed view. -/
theorem deployments_of_run (hrun : Run env (genesis env) es w) :
    (es.filterMap Event.deployment).Nodup ∧
      (∀ bootstrap, w.view.Present (.deployment bootstrap) ↔
        bootstrap ∈ es.filterMap Event.deployment) ∧
      (∀ e ∈ es, e.Deploys env ∧ e.after.DeploymentsSound env) ∧
      (∀ nodes n w₁, applyNodes env nodes w = some (n, w₁) → w₁.DeploymentsSound env) ∧
      ∀ es' w', Run env w es' w' → ∀ bootstrap,
        PartialTransaction.validateIfExternalBootstrapHasBeenDeployed env (.of w w') bootstrap =
          if w.view.Present (.deployment bootstrap) then .ok ()
          else .error (.code .externalBootstrapNotDeployed) := by
  have hp := hrun.path wellFormed_genesis
  have hvisited : ∀ {w₁}, Visited env w₁ → w₁.Deployments env := fun h =>
    h.invariant deployments_genesis fun _ hs => hs.deployments
  refine ⟨hp.deployments_nodup wellFormed_genesis, fun bootstrap => ?_, fun e he => ?_, ?_, ?_⟩
  · rw [hp.present_deployment wellFormed_genesis]
    exact or_iff_right nofun
  · obtain ⟨hs, hwf, hbefore⟩ := hp.mem wellFormed_genesis deployments_genesis
      (fun _ hs => hs.deployments) he
    exact ⟨hs.deploys hwf, (hs.deployments hwf hbefore).sound⟩
  · exact fun nodes n w₁ h => (hvisited (.mk hrun.reachable h)).sound
  · exact fun es' w' hrun' => PartialTransaction.validateIfExternalBootstrapHasBeenDeployed_eq
      (hvisited hrun.reachable.visited) hrun.reachable.wellFormed hrun'

namespace Sample

/-- Alice has deployed a subnetwork. -/
def deployed : World := network.after [block bootstrap deployOp] funded

theorem deployed_facts :
    (apply network [block bootstrap deployOp] funded).isSome ∧
    deployed.view.Present (.deployment subnetBootstrap) := by
  decide +kernel

theorem reachable_deployed : Reachable network deployed :=
  reachable_funded.after deployed_facts.1

theorem deployments_of_run_deployed :
    ∃ es, Run network (genesis network) es deployed ∧
      subnetBootstrap ∈ es.filterMap Event.deployment ∧ deployed.DeploymentsSound network := by
  obtain ⟨es, hrun⟩ := reachable_deployed.exists_run
  obtain ⟨-, hpresent, -, hsound, -⟩ := deployments_of_run hrun
  exact ⟨es, hrun, (hpresent subnetBootstrap).mp deployed_facts.2, hsound [] 0 deployed rfl⟩

end Sample

end SettlementBus
