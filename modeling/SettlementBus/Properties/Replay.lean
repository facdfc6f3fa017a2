import SettlementBus.Invariants.Record
import SettlementBus.Properties.Atomicity

/-! An operation is applied at most once. -/

namespace SettlementBus

open Lib View

variable {env : Env} {w w' : World} {es : List Event}

/-- What a run does to the records. -/
structure AppliedOnce (es : List Event) (w : World) : Prop where
  nodup : (es.filterMap Event.tx).Nodup
  recorded : ∀ e ∈ es, e.Recorded
  record_iff : ∀ h v, w.view.get (.record h) = some v ↔ ∃ e ∈ es, e.record = some (h, v)
  kept : ∀ {es₁ e es₂ h v}, es = es₁ ++ e :: es₂ → e.record = some (h, v) →
    ∀ e' ∈ es₂, e'.before.view.get (.record h) = some v ∧ e'.after.view.get (.record h) = some v
  ownKey : ∀ {h k}, w.view.Present k → k.render = toHex h → k = .record h

/-- In a run no two operations of one hash succeed, each that succeeds is recorded for good, and
the rest of the view stays out of the records' keys. An operation that does not succeed records
nothing. -/
theorem applied_once (hhrp : ∃ c ∈ env.config.addressPrefix, c ∉ hexDigits)
    (hrun : Run env (genesis env) es w) :
    AppliedOnce es w ∧ ∀ w₀ node status w', Visited env w₀ →
      applyNode env node w₀ = some (status, w') → status ≠ .success →
        ∀ h, w'.view.get (.record h) = w₀.view.get (.record h) := by
  have hp := hrun.path wellFormed_genesis
  have hsteps : ∀ e ∈ es, e.Step env := fun e he =>
    (hp.mem wellFormed_genesis (P := fun _ => True) trivial (fun _ _ _ _ => trivial) he).1
  refine ⟨⟨hp.nodup, fun e he => (hsteps e he).recorded, fun h v => ?_, ?_, ?_⟩, ?_⟩
  · rw [hp.get_record]
    exact or_iff_right nofun
  · rintro es₁ e es₂ h v rfl hrec
    obtain ⟨w₁, -, hrest⟩ := Path.append_iff.mp hp
    obtain ⟨-, hs, hrest⟩ := Path.cons_iff.mp hrest
    exact hrest.kept rfl ((hs.recorded.get h v).mpr (.inr hrec))
  · intro h k hk
    exact render_eq_toHex hhrp (hrun.reachable.invariant addressed_genesis
      fun _ hs hw => hs.addressed hw) hk
  · intro w₀ node status w' hw hnode hstatus h
    rw [applyNode_eq hw.wellFormed hnode hstatus]

namespace Sample

theorem applied_once_expelled : AppliedOnce expulsion expelled :=
  (applied_once ⟨'t', by decide, by decide⟩ run_expelled).1

end Sample

end SettlementBus
