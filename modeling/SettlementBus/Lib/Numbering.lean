import Mathlib.Logic.Function.Basic
import Mathlib.Tactic.Common

/-! Registries that only grow: a numbering, where a member keeps its number, and a listing, where a
member may occur more than once. -/

namespace SettlementBus.Lib

variable {α : Type}

/-- Numbers from one to `count`, each with the name of its member. Zero is no number. -/
structure Numbering (α : Type) where
  count : ℕ
  name : ℕ → Option α
  number : α → ℕ

namespace Numbering

/-- Names and numbers are inverse to each other. -/
structure Agrees (m : Numbering α) : Prop where
  named : ∀ {i}, 0 < i → i ≤ m.count → ∃ s, m.name i = some s ∧ m.number s = i
  numbered : ∀ {s}, 0 < m.number s → m.number s ≤ m.count ∧ m.name (m.number s) = some s

/-- Nothing is renumbered. -/
structure Grows (m m' : Numbering α) : Prop where
  count : m.count ≤ m'.count
  name : ∀ {i}, i ≤ m.count → m'.name i = m.name i
  number : ∀ {s}, 0 < m.number s → m'.number s = m.number s

/-- A member without a number gets the next one. -/
structure Assigned [DecidableEq α] (m : Numbering α) (s : α) (m' : Numbering α) : Prop where
  fresh : m.number s = 0
  count : m'.count = m.count + 1
  name : m'.name = Function.update m.name (m.count + 1) (some s)
  number : m'.number = Function.update m.number s (m.count + 1)

variable {m m' : Numbering α} {s t : α}

theorem Agrees.unique (h : m.Agrees) (heq : m.number s = m.number t) (hpos : 0 < m.number s) :
    s = t := by
  have hs := (h.numbered hpos).2
  rw [heq] at hs hpos
  exact Option.some.inj (hs.symm.trans (h.numbered hpos).2)

theorem Grows.refl (m : Numbering α) : m.Grows m :=
  ⟨Nat.le_refl _, fun _ => rfl, fun _ => rfl⟩

variable [DecidableEq α]

theorem Assigned.grows (h : m.Assigned s m') : m.Grows m' := by
  refine ⟨by rw [h.count]; exact Nat.le_succ _, fun hi => ?_, fun {t} ht => ?_⟩
  · rw [h.name, Function.update_of_ne (by omega)]
  · have hne : t ≠ s := by
      rintro rfl
      rw [h.fresh] at ht
      exact Nat.lt_irrefl 0 ht
    rw [h.number, Function.update_of_ne hne]

theorem Assigned.agrees (h : m.Assigned s m') (hm : m.Agrees) : m'.Agrees := by
  constructor
  · intro i hpos hi
    rw [h.count] at hi
    obtain hi | rfl := Nat.le_or_eq_of_le_succ hi
    · obtain ⟨t, ht, hti⟩ := hm.named hpos hi
      have hnum := h.grows.number (s := t) (hti.symm ▸ hpos)
      exact ⟨t, (h.grows.name hi).trans ht, hnum.trans hti⟩
    · exact ⟨s, by rw [h.name, Function.update_self], by rw [h.number, Function.update_self]⟩
  · intro t ht
    by_cases hts : t = s
    · subst hts
      rw [h.number, Function.update_self, h.count, h.name, Function.update_self]
      exact ⟨Nat.le_refl _, rfl⟩
    · rw [h.number, Function.update_of_ne hts] at ht ⊢
      obtain ⟨hle, hname⟩ := hm.numbered ht
      exact ⟨Nat.le_trans hle h.grows.count, (h.grows.name hle).trans hname⟩

end Numbering

/-- The names at the indices below `length`. -/
structure Listing (α : Type) where
  length : ℕ
  name : ℕ → Option α

namespace Listing

/-- The list holds `known` members only, and all the `active` ones. -/
structure Lists (m : Listing α) (known active : α → Prop) : Prop where
  named : ∀ {i}, i < m.length → ∃ s, m.name i = some s ∧ known s
  listed : ∀ {s}, active s → ∃ i, i < m.length ∧ m.name i = some s

structure Grows (m m' : Listing α) : Prop where
  length : m.length ≤ m'.length
  name : ∀ {i}, i < m.length → m'.name i = m.name i

structure Appended (m : Listing α) (s : α) (m' : Listing α) : Prop where
  length : m'.length = m.length + 1
  name : m'.name = Function.update m.name m.length (some s)

variable {m m' : Listing α} {s : α} {known active known' active' : α → Prop}

theorem Appended.grows (h : m.Appended s m') : m.Grows m' := by
  refine ⟨by rw [h.length]; exact Nat.le_succ _, fun hi => ?_⟩
  rw [h.name, Function.update_of_ne (Nat.ne_of_lt hi)]

theorem Lists.mono (h : m.Lists known active) (hknown : ∀ s, known s → known' s)
    (hactive : ∀ s, active' s → active s) : m.Lists known' active' where
  named hi := by
    obtain ⟨s, hs, hk⟩ := h.named hi
    exact ⟨s, hs, hknown s hk⟩
  listed hs := h.listed (hactive _ hs)

theorem Appended.lists (h : m.Appended s m') (hm : m.Lists known active)
    (hknown : ∀ t, known t → known' t) (hs : known' s)
    (hactive : ∀ t, active' t → t ≠ s → active t) : m'.Lists known' active' := by
  have hnew : m'.name m.length = some s := by rw [h.name, Function.update_self]
  have hlast : m.length < m'.length := by
    rw [h.length]
    exact Nat.lt_succ_self _
  constructor
  · intro i hi
    rw [h.length] at hi
    obtain hi | rfl := Nat.lt_succ_iff_lt_or_eq.mp hi
    · obtain ⟨t, ht, hk⟩ := hm.named hi
      exact ⟨t, (h.grows.name hi).trans ht, hknown t hk⟩
    · exact ⟨s, hnew, hs⟩
  · intro t ht
    by_cases hts : t = s
    · exact ⟨m.length, hlast, hts ▸ hnew⟩
    · obtain ⟨i, hi, hname⟩ := hm.listed (hactive t ht hts)
      exact ⟨i, Nat.lt_trans hi hlast, (h.grows.name hi).trans hname⟩

end Listing

end SettlementBus.Lib
