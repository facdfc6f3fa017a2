import Mathlib.Tactic.Common

/-! Stateful computations that may leave early, and their weakest preconditions.
The state survives an early exit: what was written before it stays written. -/

namespace SettlementBus.Lib

variable {ε σ α β : Type}

abbrev Exec (ε σ : Type) := ExceptT ε (StateM σ)

def Exec.exec (x : Exec ε σ α) (s : σ) : Except ε α × σ := x.run.run s

/-- A check that exits with `e`. -/
def require {m : Type → Type} [Monad m] [MonadExcept ε m] (e : ε) (c : Prop) [Decidable c] :
    m Unit :=
  if c then pure () else throw e

def orExit {m : Type → Type} [Monad m] [MonadExcept ε m] (e : ε) : Option α → m α
  | some a => pure a
  | none => throw e

namespace Exec

@[simp] theorem exec_pure (a : α) (s : σ) : (pure a : Exec ε σ α).exec s = (.ok a, s) := rfl

theorem exec_bind (x : Exec ε σ α) (f : α → Exec ε σ β) (s : σ) :
    (x >>= f).exec s = match x.exec s with
      | (.ok a, s') => (f a).exec s'
      | (.error e, s') => (.error e, s') := by
  show (ExceptT.bind x f).run.run s = _
  simp only [exec, ExceptT.bind, ExceptT.run, ExceptT.mk, StateT.run_bind]
  rcases h : StateT.run x s with ⟨_ | a, s'⟩ <;> rfl

@[simp] theorem exec_throw (e : ε) (s : σ) : (throw e : Exec ε σ α).exec s = (.error e, s) := rfl

@[simp] theorem exec_tryCatch (x : Exec ε σ α) (f : ε → Exec ε σ α) (s : σ) :
    (tryCatch x f : Exec ε σ α).exec s = match x.exec s with
      | (.ok a, s') => (.ok a, s')
      | (.error e, s') => (f e).exec s' := by
  show (ExceptT.tryCatch x f).run.run s = _
  simp only [exec, ExceptT.tryCatch, ExceptT.run, ExceptT.mk, StateT.run_bind]
  rcases h : StateT.run x s with ⟨_ | a, s'⟩ <;> rfl

@[simp] theorem exec_set (s t : σ) : (set t : Exec ε σ PUnit).exec s = (.ok ⟨⟩, t) := rfl

@[simp] theorem exec_get (s : σ) : (get : Exec ε σ σ).exec s = (.ok s, s) := rfl

@[simp] theorem exec_modify (f : σ → σ) (s : σ) :
    (modify f : Exec ε σ PUnit).exec s = (.ok ⟨⟩, f s) := rfl

@[simp] theorem exec_liftM (x : Except ε α) (s : σ) :
    (liftM x : Exec ε σ α).exec s = (x, s) := rfl

end Exec

/-- The weakest precondition of a check: `Q` of its result, `E` of its exit. -/
def wpe (x : Except ε α) (Q : α → Prop) (E : ε → Prop) : Prop :=
  match x with
  | .ok a => Q a
  | .error e => E e

section Checks

variable (Q : α → Prop) (E : ε → Prop)

@[simp] theorem wpe_ok (a : α) : wpe (.ok a) Q E ↔ Q a := Iff.rfl

@[simp] theorem wpe_pure (a : α) : wpe (pure a) Q E ↔ Q a := Iff.rfl

@[simp] theorem wpe_error (e : ε) : wpe (.error e) Q E ↔ E e := Iff.rfl

@[simp] theorem wpe_throw (e : ε) : wpe (throw e) Q E ↔ E e := Iff.rfl

@[simp] theorem wpe_bind (x : Except ε β) (f : β → Except ε α) :
    wpe (x >>= f) Q E ↔ wpe x (fun b => wpe (f b) Q E) E := by
  cases x <;> rfl

@[simp] theorem wpe_require (e : ε) (c : Prop) [Decidable c] (Q : Unit → Prop) :
    wpe (require e c) Q E ↔ (c → Q ()) ∧ (¬c → E e) := by
  by_cases h : c <;> simp [require, h]

@[simp] theorem wpe_orExit (e : ε) (o : Option α) :
    wpe (orExit e o) Q E ↔ (∀ a, o = some a → Q a) ∧ (o = none → E e) := by
  cases o <;> simp [orExit]

@[simp] theorem wpe_map (x : Except ε β) (f : β → α) :
    wpe (f <$> x) Q E ↔ wpe x (fun b => Q (f b)) E := by
  cases x <;> rfl

@[simp] theorem wpe_true (x : Except ε α) : wpe x (fun _ => True) (fun _ => True) ↔ True := by
  cases x <;> simp

variable {Q E}

theorem wpe_intro {x : Except ε α} (h : ∀ a, x = .ok a → Q a) : wpe x Q (fun _ => True) := by
  cases x with
  | error e => trivial
  | ok a => exact h a rfl

end Checks

/-! ### Runs that succeed -/

@[simp] theorem bind_eq_ok {x : Except ε β} {f : β → Except ε α} {a : α} :
    x >>= f = .ok a ↔ ∃ b, x = .ok b ∧ f b = .ok a := by
  cases x with
  | error e =>
    constructor
    · rintro ⟨⟩
    · rintro ⟨_, ⟨⟩, _⟩
  | ok b => exact ⟨fun h => ⟨b, rfl, h⟩, fun ⟨_, rfl, h⟩ => h⟩

@[simp] theorem map_eq_ok {x : Except ε β} {f : β → α} {a : α} :
    f <$> x = .ok a ↔ ∃ b, x = .ok b ∧ f b = a := by
  cases x with
  | error e =>
    constructor
    · rintro ⟨⟩
    · rintro ⟨_, ⟨⟩, _⟩
  | ok b => exact ⟨fun h => ⟨b, rfl, Except.ok.inj h⟩, fun ⟨_, rfl, h⟩ => congrArg _ h⟩

@[simp] theorem pure_eq_ok {a b : α} : (pure a : Except ε α) = .ok b ↔ a = b :=
  ⟨Except.ok.inj, congrArg _⟩

@[simp] theorem require_eq_ok {e : ε} {c : Prop} [Decidable c] {u : Unit} :
    (require e c : Except ε Unit) = .ok u ↔ c := by
  by_cases h : c
  · exact iff_of_true (if_pos h) h
  · exact iff_of_false (by simp [require, h, throw, throwThe, MonadExceptOf.throw]) h

@[simp] theorem orExit_eq_ok {e : ε} {o : Option α} {a : α} :
    (orExit e o : Except ε α) = .ok a ↔ o = some a := by
  cases o with
  | none => exact iff_of_false (by simp [orExit, throw, throwThe, MonadExceptOf.throw]) (by simp)
  | some b => simp [orExit]

namespace Exec

section Ok

variable {s s' : σ} {a : α}

@[simp] theorem bind_ok {x : Exec ε σ β} {f : β → Exec ε σ α} :
    (x >>= f).exec s = (.ok a, s') ↔
      ∃ b t, x.exec s = (.ok b, t) ∧ (f b).exec t = (.ok a, s') := by
  rw [exec_bind]
  rcases x.exec s with ⟨_ | b, t⟩ <;> simp

@[simp] theorem map_ok {x : Exec ε σ β} {f : β → α} :
    (f <$> x).exec s = (.ok a, s') ↔ ∃ b, x.exec s = (.ok b, s') ∧ f b = a := by
  rw [map_eq_pure_bind, bind_ok]
  simp [and_comm]

@[simp] theorem require_ok {e : ε} {c : Prop} [Decidable c] {u : Unit} :
    (require e c : Exec ε σ Unit).exec s = (.ok u, s') ↔ c ∧ s = s' := by
  by_cases h : c <;> simp [require, h]

@[simp] theorem orExit_ok {e : ε} {o : Option α} :
    (orExit e o : Exec ε σ α).exec s = (.ok a, s') ↔ o = some a ∧ s = s' := by
  cases o <;> simp [orExit]

@[simp] theorem ite_ok {c : Prop} [Decidable c] {x y : Exec ε σ α} :
    (if c then x else y).exec s = (.ok a, s') ↔
      (c ∧ x.exec s = (.ok a, s')) ∨ (¬c ∧ y.exec s = (.ok a, s')) := by
  by_cases h : c <;> simp [h]

end Ok

/-- The weakest precondition of a computation started in `s`. -/
def wp (x : Exec ε σ α) (Q : α → σ → Prop) (E : ε → σ → Prop) (s : σ) : Prop :=
  match x.exec s with
  | (.ok a, s') => Q a s'
  | (.error e, s') => E e s'

section Rules

variable (Q : α → σ → Prop) (E : ε → σ → Prop) (s : σ)

@[simp] theorem wp_pure (a : α) : (pure a : Exec ε σ α).wp Q E s ↔ Q a s := Iff.rfl

@[simp] theorem wp_throw (e : ε) : (throw e : Exec ε σ α).wp Q E s ↔ E e s := Iff.rfl

@[simp] theorem wp_bind (x : Exec ε σ β) (f : β → Exec ε σ α) :
    (x >>= f).wp Q E s ↔ x.wp (fun b s' => (f b).wp Q E s') E s := by
  unfold wp
  rw [exec_bind]
  rcases x.exec s with ⟨_ | b, s'⟩ <;> rfl

@[simp] theorem wp_map (x : Exec ε σ β) (f : β → α) :
    (f <$> x).wp Q E s ↔ x.wp (fun b => Q (f b)) E s := by
  rw [map_eq_pure_bind, wp_bind]
  rfl

@[simp] theorem wp_get (Q : σ → σ → Prop) : (get : Exec ε σ σ).wp Q E s ↔ Q s s := Iff.rfl

@[simp] theorem wp_modify (Q : PUnit → σ → Prop) (f : σ → σ) :
    (modify f : Exec ε σ PUnit).wp Q E s ↔ Q ⟨⟩ (f s) := Iff.rfl

@[simp] theorem wp_liftM (x : Except ε α) :
    (liftM x : Exec ε σ α).wp Q E s ↔ wpe x (fun a => Q a s) (fun e => E e s) := by
  cases x <;> rfl

@[simp] theorem wp_require (e : ε) (c : Prop) [Decidable c] (Q : Unit → σ → Prop) :
    (require e c : Exec ε σ Unit).wp Q E s ↔ (c → Q () s) ∧ (¬c → E e s) := by
  by_cases h : c <;> simp [require, h]

@[simp] theorem wp_orExit (e : ε) (o : Option α) :
    (orExit e o : Exec ε σ α).wp Q E s ↔ (∀ a, o = some a → Q a s) ∧ (o = none → E e s) := by
  cases o <;> simp [orExit]

@[simp] theorem wp_ite (c : Prop) [Decidable c] (x y : Exec ε σ α) :
    (if c then x else y).wp Q E s ↔ (c → x.wp Q E s) ∧ (¬c → y.wp Q E s) := by
  by_cases h : c <;> simp [h]

theorem wp_iff (x : Exec ε σ α) : x.wp Q E s ↔
    (∀ a s', x.exec s = (.ok a, s') → Q a s') ∧ (∀ e s', x.exec s = (.error e, s') → E e s') := by
  unfold wp
  rcases x.exec s with ⟨_ | _, _⟩ <;> simp

variable {Q E s}

theorem wp_of_exec {x : Exec ε σ α} {a : α} {s' : σ} (hx : x.exec s = (.ok a, s')) :
    x.wp Q E s ↔ Q a s' := by
  rw [wp, hx]

theorem wp_of_error {x : Exec ε σ α} {e : ε} {s' : σ} (h : x.wp Q E s)
    (hx : x.exec s = (.error e, s')) : E e s' := ((wp_iff Q E s x).mp h).2 e s' hx

theorem exec_eq_error {x : Exec ε σ α} {s' : σ} {e : ε}
    (h : x.wp (fun _ _ => False) (fun e' t => e' = e ∧ t = s') s) : x.exec s = (.error e, s') := by
  rw [wp_iff] at h
  rcases hx : x.exec s with ⟨e' | a, t⟩
  · obtain ⟨rfl, rfl⟩ := h.2 e' t hx
    rfl
  · exact (h.1 a t hx).elim

end Rules

/-- From `s` the computation leaves early only without a write or by a fatal exit. -/
def Atomic (fatal : ε → Prop) (x : Exec ε σ α) (s : σ) : Prop :=
  x.wp (fun _ _ => True) (fun e s' => fatal e ∨ s' = s) s

theorem Atomic.state_eq {fatal : ε → Prop} {x : Exec ε σ α} {s s' : σ} {e : ε}
    (h : x.Atomic fatal s) (hx : x.exec s = (.error e, s')) (he : ¬fatal e) : s' = s :=
  (wp_of_error h hx).resolve_left he

end Exec

end SettlementBus.Lib
