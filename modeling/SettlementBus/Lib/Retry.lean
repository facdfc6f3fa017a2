import Mathlib.Data.Nat.Notation

/-! Attempts that are repeated a bounded number of times, and the rules for their runs. -/

namespace SettlementBus.Lib.Retry

variable {σ ε : Type}

/-- What follows an attempt. -/
inductive Next (σ ε : Type)
  | stop (result : Except ε Bool) (s : σ)
  | retry (s : σ)
  /-- One retry and, if that returns false, another one from a changed state. -/
  | twice (s : σ) (again : σ → σ)

namespace Next

/-- The state after the attempt. -/
def state : Next σ ε → σ
  | stop _ s => s
  | retry s => s
  | twice s _ => s

end Next

variable (attempt : σ → Next σ ε)

/-- The result is false when no attempt is left. -/
def run : ℕ → σ → Except ε Bool × σ
  | 0, s => (.ok false, s)
  | n + 1, s =>
    match attempt s with
    | .stop result t => (result, t)
    | .retry t => run n t
    | .twice t again =>
      match run n t with
      | (.ok false, u) => run n (again u)
      | out => out

section Rules

variable {attempt} {R : σ → σ → Prop} {s : σ} {n : ℕ}

/-- What the attempts and the changes between them keep from a state to the next is kept by a run. -/
theorem run_rel (hrefl : ∀ s, R s s) (htrans : ∀ s t u, R s t → R t u → R s u)
    (hattempt : ∀ s, R s (attempt s).state)
    (hagain : ∀ s t again, attempt s = .twice t again → ∀ u, R u (again u)) :
    R s (run attempt n s).2 := by
  induction n generalizing s with
  | zero => exact hrefl s
  | succ n ih =>
    have hs := hattempt s
    rw [run]
    cases h : attempt s with
    | stop result t => rwa [h] at hs
    | retry t =>
      rw [h] at hs
      exact htrans _ _ _ hs ih
    | twice t again =>
      rw [h] at hs
      have hfirst : R s (run attempt n t).2 := htrans _ _ _ hs ih
      dsimp only
      split
      case h_1 u hu =>
        rw [hu] at hfirst
        exact htrans _ _ _ (htrans _ _ _ hfirst (hagain s t again h u)) ih
      case h_2 => exact hfirst

/-- The rule of a run. The precondition is about the attempts that are left. -/
theorem run_rule {I : ℕ → σ → Prop} {P : Except ε Bool → σ → Prop}
    (hR : ∀ n s, R s (run attempt n s).2) (hzero : ∀ s, I 0 s → P (.ok false) s)
    (hstop : ∀ n s, I (n + 1) s → ∀ result t, attempt s = .stop result t → P result t)
    (hretry : ∀ n s, I (n + 1) s → ∀ t, attempt s = .retry t → I n t)
    (htwice : ∀ n s, I (n + 1) s → ∀ t again, attempt s = .twice t again →
      I n t ∧ ∀ u, R t u → P (.ok false) u → I n (again u)) (hs : I n s) :
    P (run attempt n s).1 (run attempt n s).2 := by
  induction n generalizing s with
  | zero => exact hzero s hs
  | succ n ih =>
    rw [run]
    cases h : attempt s with
    | stop result t => exact hstop n s hs result t h
    | retry t => exact ih (hretry n s hs t h)
    | twice t again =>
      obtain ⟨ht, hagain⟩ := htwice n s hs t again h
      have hfirst := ih ht
      have hRt := hR n t
      dsimp only
      split
      case h_1 u hu =>
        rw [hu] at hfirst hRt
        exact ih (hagain u hRt hfirst)
      case h_2 => exact hfirst

end Rules

end SettlementBus.Lib.Retry
