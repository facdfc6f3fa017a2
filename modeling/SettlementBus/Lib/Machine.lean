import Mathlib.Data.Option.Basic

/-! Machines that take enabled events one after another, and the rules for their runs. -/

namespace SettlementBus.Lib.Machine

variable {σ ε : Type} (step : σ → ε → Option σ)

/-- The state after a sequence of events, each of which is enabled in its turn. -/
def run : σ → List ε → Option σ
  | s, [] => some s
  | s, e :: es => (step s e).bind fun s' => run s' es

/-- Every step of a sequence of events has the property. -/
def Along (P : σ → ε → σ → Prop) : σ → List ε → Prop
  | _, [] => True
  | s, e :: es => ∀ s', step s e = some s' → P s e s' ∧ Along P s' es

variable {step} {I : σ → Prop} {P Q : σ → ε → σ → Prop} {s s' : σ} {es : List ε}

theorem run_cons {e : ε} :
    run step s (e :: es) = some s' ↔ ∃ t, step s e = some t ∧ run step t es = some s' :=
  Option.bind_eq_some_iff

/-- What the steps with a property preserve holds after a run of such steps. -/
theorem run_invariant (hstep : ∀ s e s', I s → step s e = some s' → P s e s' → I s') (hs : I s)
    (hP : Along step P s es) (h : run step s es = some s') : I s' := by
  induction es generalizing s with
  | nil => exact Option.some.inj h ▸ hs
  | cons e es ih =>
    obtain ⟨t, ht, hrun⟩ := run_cons.mp h
    obtain ⟨hPe, hPes⟩ := hP t ht
    exact ih (hstep s e t hs ht hPe) hPes hrun

theorem along_true : Along step (fun _ _ _ => True) s es := by
  induction es generalizing s with
  | nil => trivial
  | cons e es ih => exact fun _ _ => ⟨trivial, ih⟩

theorem along_of_forall (h : ∀ e ∈ es, ∀ s s', P s e s') : Along step P s es := by
  induction es generalizing s with
  | nil => trivial
  | cons e es ih =>
    intro t _
    exact ⟨h e (List.mem_cons_self ..) s t, ih fun e he => h e (List.mem_cons_of_mem _ he)⟩

/-- Two properties that agree on the steps from states of an invariant, which the steps with one of
them preserve, agree along a run. -/
theorem along_iff (hstep : ∀ s e s', I s → step s e = some s' → Q s e s' → I s')
    (hPQ : ∀ s e s', I s → step s e = some s' → (P s e s' ↔ Q s e s')) (hs : I s) :
    Along step P s es ↔ Along step Q s es := by
  induction es generalizing s with
  | nil => exact Iff.rfl
  | cons e es ih =>
    refine forall₂_congr fun t ht => (and_congr_left' (hPQ s e t hs ht)).trans ?_
    exact and_congr_right fun hQ => ih (hstep s e t hs ht hQ)

end SettlementBus.Lib.Machine
