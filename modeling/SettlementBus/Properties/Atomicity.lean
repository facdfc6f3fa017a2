import SettlementBus.Invariants.Admin
import SettlementBus.Sample

/-! Operations that do not succeed. -/

namespace SettlementBus

open Lib

variable {env : Env} {w w' : World} {node : Node} {status : Status}

theorem applyNode_eq (hw : w.WellFormed) (h : applyNode env node w = some (status, w'))
    (hstatus : status ≠ .success) : w' = w := by
  unfold applyNode at h
  split at h
  case h_1 type op hdec =>
    obtain ⟨rfl, -⟩ | ⟨-, rfl⟩ := runHandler_eq_some (handler_atomic hw) h
    · exact absurd rfl hstatus
    · rfl
  case h_2 hdec =>
    cases h
    rfl

/-- A batch goes on after a node that fails as it does without the node, with one more invalid
operation to count. -/
theorem applyNodes_of_failed {nodes : List Node} (h : applyNode env node w = some (status, w)) :
    applyNodes env (node :: nodes) w = (applyNodes env nodes w).map fun r =>
      ((if status = .failure then 1 else 0) + r.1, r.2) := by
  simp only [applyNodes, h, Option.bind_eq_bind, Option.bind_some]
  cases applyNodes env nodes w with
  | none => rfl
  | some r => rfl

/-- An operation that does not succeed changes neither the view nor the base, and only counts
towards the penalty at the end of its batch. -/
theorem failed_operation_unchanged (hw : Visited env w)
    (h : applyNode env node w = some (status, w')) (hstatus : status ≠ .success) :
    w' = w ∧ ∀ nodes, applyNodes env (node :: nodes) w = (applyNodes env nodes w).map fun r =>
      ((if status = .failure then 1 else 0) + r.1, r.2) := by
  obtain rfl := applyNode_eq hw.wellFormed h hstatus
  exact ⟨rfl, fun _ => applyNodes_of_failed h⟩

namespace Sample

/-- The second `ADD_ADMIN` fails. -/
theorem failed_operation_unchanged_addAdmin : ∃ w',
    applyNode network (block bootstrap addAdminOp) founded = some (.failure, w') ∧ w' = founded ∧
      ∀ nodes, applyNodes network (block bootstrap addAdminOp :: nodes) founded =
        (applyNodes network nodes founded).map fun r => (1 + r.1, r.2) := by
  obtain ⟨w', h⟩ := exists_applyNode (show (applyNode network (block bootstrap addAdminOp)
    founded).map Prod.fst = some .failure by decide +kernel)
  exact ⟨w', h, failed_operation_unchanged reachable_founded.visited h nofun⟩

end Sample

end SettlementBus
