import Mathlib.Data.List.AList
import Mathlib.Algebra.Order.BigOperators.Group.List
import Mathlib.Algebra.Order.Ring.Nat

/-! Finite maps with decidable keys, and the sum of a weight over their entries. -/

namespace SettlementBus.Lib

abbrev Store (κ β : Type) := AList (fun _ : κ => β)

namespace Store

variable {κ β : Type} [DecidableEq κ]

def get (s : Store κ β) (k : κ) : Option β := s.lookup k

def put (s : Store κ β) (k : κ) (v : β) : Store κ β := s.insert k v

@[simp] theorem get_empty (k : κ) : (∅ : Store κ β).get k = none := AList.lookup_empty k

@[simp] theorem get_put_self (s : Store κ β) (k : κ) (v : β) : (s.put k v).get k = some v :=
  AList.lookup_insert s

theorem get_put_ne (s : Store κ β) {k k' : κ} (v : β) (h : k' ≠ k) :
    (s.put k v).get k' = s.get k' := AList.lookup_insert_ne h

theorem get_put (s : Store κ β) (k k' : κ) (v : β) :
    (s.put k v).get k' = if k' = k then some v else s.get k' := by
  by_cases h : k' = k
  · subst h
    simp
  · simp [get_put_ne s v h, h]

theorem get_put_eq_some {s : Store κ β} {k k' : κ} {v u : β} :
    (s.put k v).get k' = some u ↔ k' = k ∧ v = u ∨ k' ≠ k ∧ s.get k' = some u := by
  rw [get_put]
  by_cases h : k' = k <;> simp [h]

theorem get_erase (s : Store κ β) (k k' : κ) :
    get (s.erase k) k' = if k' = k then none else s.get k' := by
  by_cases h : k' = k
  · subst h
    rw [if_pos rfl]
    exact AList.lookup_erase _ s
  · rw [if_neg h]
    exact AList.lookup_erase_ne h

theorem length_keys_put_of_none {s : Store κ β} {k : κ} (h : s.get k = none) (v : β) :
    (s.put k v).keys.length = s.keys.length + 1 := by
  have hk : k ∉ s.keys := AList.lookup_eq_none.mp h
  rw [put, AList.keys_insert, List.length_cons, List.erase_of_not_mem hk]

theorem length_keys_erase_le (s : Store κ β) (k : κ) :
    (s.erase k).keys.length ≤ s.keys.length := by
  rw [AList.keys_erase]
  exact List.length_erase_le

/-- The sum of `f` over the entries. -/
def sum (f : κ → β → ℕ) (s : Store κ β) : ℕ :=
  (s.entries.map fun e => f e.1 e.2).sum

variable (f : κ → β → ℕ)

omit [DecidableEq κ] in
@[simp] theorem sum_empty : sum f (∅ : Store κ β) = 0 := rfl

theorem sum_kerase (k : κ) (l : List (Sigma fun _ : κ => β)) :
    ((l.kerase k).map fun e => f e.1 e.2).sum + (l.dlookup k).elim 0 (f k) =
      (l.map fun e => f e.1 e.2).sum := by
  induction l with
  | nil => rfl
  | cons e l ih =>
    obtain ⟨k', v⟩ := e
    by_cases h : k = k'
    · subst h
      rw [List.dlookup_cons_eq]
      simp [List.kerase_cons_eq, Nat.add_comm]
    · rw [List.kerase_cons_ne h, List.dlookup_cons_ne _ _ h]
      simp only [List.map_cons, List.sum_cons]
      rw [← ih, Nat.add_assoc]

/-- A put changes the sum by the new entry minus the one it replaces. -/
theorem sum_put (s : Store κ β) (k : κ) (v : β) :
    sum f (s.put k v) + (s.get k).elim 0 (f k) = sum f s + f k v := by
  have h : sum f (s.put k v) = f k v + ((s.entries.kerase k).map fun e => f e.1 e.2).sum := by
    simp [sum, put, AList.insert, List.kinsert]
  rw [h, Nat.add_assoc]
  show f k v + (_ + (s.entries.dlookup k).elim 0 (f k)) = _
  rw [sum_kerase, Nat.add_comm]
  rfl

theorem sum_put_of_get {s : Store κ β} {k : κ} {u : β} (h : s.get k = some u) (v : β) :
    sum f (s.put k v) + f k u = sum f s + f k v := by
  simpa [h] using sum_put f s k v

theorem sum_put_of_none {s : Store κ β} {k : κ} (h : s.get k = none) (v : β) :
    sum f (s.put k v) = sum f s + f k v := by
  simpa [h] using sum_put f s k v

theorem le_sum {s : Store κ β} {k : κ} {u : β} (h : s.get k = some u) : f k u ≤ sum f s := by
  have := sum_kerase f k s.entries
  rw [show s.entries.dlookup k = some u from h] at this
  show _ ≤ (s.entries.map fun e => f e.1 e.2).sum
  rw [← this]
  exact Nat.le_add_left _ _

/-- Two different keys weigh at most the whole. -/
theorem add_le_sum {s : Store κ β} {k k' : κ} {u v : β} (hne : k ≠ k') (h : s.get k = some u)
    (h' : s.get k' = some v) : f k u + f k' v ≤ sum f s := by
  have hk := sum_kerase f k s.entries
  rw [show s.entries.dlookup k = some u from h] at hk
  have hk' := sum_kerase f k' (s.entries.kerase k)
  rw [List.dlookup_kerase_ne hne.symm, show s.entries.dlookup k' = some v from h'] at hk'
  simp only [Option.elim] at hk hk'
  show _ ≤ (s.entries.map fun e => f e.1 e.2).sum
  omega

end Store

end SettlementBus.Lib
