import Mathlib.Data.Nat.Init
import Mathlib.Order.Nat
import SettlementBus.Lib.Machine

/-! Infinite runs of machines, and what weak fairness makes of a rank. -/

namespace SettlementBus.Lib.Machine

variable {σ ε : Type} (step : σ → ε → Option σ)

/-- A run without an end. -/
structure Trace where
  state : ℕ → σ
  event : ℕ → ε
  next : ∀ n, step (state n) (event n) = some (state (n + 1))

variable {step}

/-- One of the own events happens after any time from which on there is always one enabled. -/
def Trace.Fair (t : Trace step) (Own : σ → ε → Prop) : Prop :=
  ∀ n, (∀ m ≥ n, ∃ e, Own (t.state m) e ∧ (step (t.state m) e).isSome) →
    ∃ m ≥ n, Own (t.state m) (t.event m)

variable {I : σ → Prop} {Own : σ → ε → Prop} {rank : σ → ℕ} {t : Trace step}

theorem Trace.invariant (hstep : ∀ s e s', I s → step s e = some s' → I s') {n m : ℕ}
    (h : n ≤ m) (hn : I (t.state n)) : I (t.state m) := by
  induction m, h using Nat.le_induction with
  | base => exact hn
  | succ m _ ih => exact hstep _ _ _ ih (t.next m)

/-- A run that leads to a state where an event changes nothing goes on for ever. -/
theorem exists_trace {s s' : σ} {es : List ε} {e : ε} (hrun : run step s es = some s')
    (hidle : step s' e = some s') :
    ∃ t : Trace step, ∀ n, run step s (es.take n) = some (t.state n) := by
  induction es generalizing s with
  | nil =>
    cases hrun
    exact ⟨{ state := fun _ => s', event := fun _ => e, next := fun _ => hidle }, fun n => by
      rw [List.take_nil, run]⟩
  | cons e' es ih =>
    obtain ⟨s₁, hstep, hrun⟩ := run_cons.mp hrun
    obtain ⟨t, ht⟩ := ih hrun
    obtain rfl : s₁ = t.state 0 := Option.some.inj (ht 0)
    refine ⟨{ state := fun n => n.casesOn s t.state, event := fun n => n.casesOn e' t.event,
              next := fun n => ?_ }, fun n => ?_⟩
    · cases n with
      | zero => exact hstep
      | succ n => exact t.next n
    · cases n with
      | zero => rfl
      | succ n => exact run_cons.mpr ⟨_, hstep, ht n⟩

/-- What steps make of a rank: none raises it, own events lower it, and one of these is enabled until
the rank is zero. -/
structure Lowers (step : σ → ε → Option σ) (I : σ → Prop) (Own : σ → ε → Prop) (rank : σ → ℕ) :
    Prop where
  invariant : ∀ s e s', I s → step s e = some s' → I s'
  le : ∀ s e s', I s → step s e = some s' → rank s' ≤ rank s
  lt : ∀ s e s', I s → step s e = some s' → Own s e → rank s' < rank s
  enabled : ∀ s, I s → rank s ≠ 0 → ∃ e, Own s e ∧ (step s e).isSome

theorem Lowers.le_of_le (h : Lowers step I Own rank) {n m : ℕ} (hnm : n ≤ m)
    (hn : I (t.state n)) : rank (t.state m) ≤ rank (t.state n) := by
  induction m, hnm using Nat.le_induction with
  | base => exact Nat.le_refl _
  | succ m hm ih =>
    exact (h.le _ _ _ (Trace.invariant h.invariant hm hn) (t.next m)).trans ih

/-- Where the rank is zero, no own event is enabled. -/
theorem Lowers.fair_of_eq_zero (h : Lowers step I Own rank) {n : ℕ} (hn : I (t.state n))
    (hzero : rank (t.state n) = 0) : t.Fair Own := by
  intro m henabled
  obtain ⟨e, hown, hsome⟩ := henabled (max m n) (le_max_left m n)
  obtain ⟨s', hs'⟩ := Option.isSome_iff_exists.mp hsome
  have hI := Trace.invariant h.invariant (le_max_right m n) hn
  have hle := h.le_of_le (le_max_right m n) hn
  have hlt := h.lt _ _ _ hI hs' hown
  omega

/-- If the own events are weakly fair, then the rank becomes zero. -/
theorem Lowers.exists_eq_zero (h : Lowers step I Own rank) (hfair : t.Fair Own) {n : ℕ}
    (hn : I (t.state n)) : ∃ m ≥ n, rank (t.state m) = 0 := by
  generalize hr : rank (t.state n) = r
  induction r using Nat.strongRecOn generalizing n with
  | _ r ih =>
    by_cases hzero : ∃ m ≥ n, rank (t.state m) = 0
    · exact hzero
    · have hI : ∀ m ≥ n, I (t.state m) := fun m hm => Trace.invariant h.invariant hm hn
      obtain ⟨m, hm, hown⟩ := hfair n fun m hm =>
        h.enabled _ (hI m hm) fun heq => hzero ⟨m, hm, heq⟩
      have hlt : rank (t.state (m + 1)) < r :=
        hr ▸ (h.lt _ _ _ (hI m hm) (t.next m) hown).trans_le (h.le_of_le hm hn)
      obtain ⟨l, hl, heq⟩ := ih _ hlt (hI (m + 1) (Nat.le_succ_of_le hm)) rfl
      exact ⟨l, (Nat.le_succ_of_le hm).trans hl, heq⟩

end SettlementBus.Lib.Machine
