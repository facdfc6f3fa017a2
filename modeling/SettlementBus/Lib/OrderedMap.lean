import Mathlib.Data.List.Nodup

/-! Finite maps that remember the order in which their keys came in. -/

namespace SettlementBus.Lib

structure OrderedMap (κ β : Type) where
  entries : List (κ × β)
  nodup_keys : (entries.map Prod.fst).Nodup

namespace OrderedMap

variable {κ β : Type}

def keys (m : OrderedMap κ β) : List κ := m.entries.map Prod.fst

def values (m : OrderedMap κ β) : List β := m.entries.map Prod.snd

def empty : OrderedMap κ β := ⟨[], List.nodup_nil⟩

theorem mem_keys {m : OrderedMap κ β} {k : κ} : k ∈ m.keys ↔ ∃ v, (k, v) ∈ m.entries := by
  simp [keys]

variable [DecidableEq κ] (m : OrderedMap κ β) (k k' : κ) (v : β)

private theorem map_fst_update (l : List (κ × β)) :
    (l.map fun e => if e.1 = k then (k, v) else e).map Prod.fst = l.map Prod.fst := by
  rw [List.map_map]
  refine List.map_congr_left fun e _ => ?_
  simp only [Function.comp_apply]
  split
  case isTrue h => exact h.symm
  case isFalse => rfl

/-- A key that is there keeps its place. -/
def set : OrderedMap κ β :=
  if h : k ∈ m.keys then
    { entries := m.entries.map fun e => if e.1 = k then (k, v) else e
      nodup_keys := (map_fst_update k v m.entries).symm ▸ m.nodup_keys }
  else
    { entries := m.entries ++ [(k, v)]
      nodup_keys := by
        rw [List.map_append]
        exact m.nodup_keys.append (List.nodup_singleton k) (List.disjoint_singleton.mpr h) }

def delete : OrderedMap κ β where
  entries := m.entries.filter fun e => e.1 ≠ k
  nodup_keys := m.nodup_keys.sublist (List.filter_sublist.map Prod.fst)

def get : Option β := m.entries.lookup k

variable {m k k' v}

theorem get_eq_some : m.get k = some v ↔ (k, v) ∈ m.entries := by
  rw [get, List.lookup_eq_some_iff]
  constructor
  · rintro ⟨l₁, l₂, h, -⟩
    rw [h]
    exact List.mem_append_right _ (List.mem_cons_self ..)
  · intro h
    obtain ⟨l₁, l₂, hl⟩ := List.append_of_mem h
    refine ⟨l₁, l₂, hl, fun e he => ?_⟩
    have hnodup := m.nodup_keys
    rw [hl, List.map_append, List.nodup_append] at hnodup
    have hne := hnodup.2.2 e.1 (List.mem_map_of_mem he) k (List.mem_cons_self ..)
    exact bne_iff_ne.mpr hne.symm

@[simp] theorem mem_entries_set {e : κ × β} :
    e ∈ (m.set k v).entries ↔ e = (k, v) ∨ e.1 ≠ k ∧ e ∈ m.entries := by
  rw [set]
  split
  case isTrue h =>
    obtain ⟨u, hu⟩ := mem_keys.mp h
    simp only [List.mem_map]
    constructor
    · rintro ⟨e', he', rfl⟩
      split
      case isTrue => exact .inl rfl
      case isFalse hne => exact .inr ⟨hne, he'⟩
    · rintro (rfl | ⟨hne, he⟩)
      · exact ⟨(k, u), hu, if_pos rfl⟩
      · exact ⟨e, he, if_neg hne⟩
  case isFalse h =>
    simp only [List.mem_append, List.mem_singleton]
    constructor
    · rintro (he | rfl)
      · exact .inr ⟨fun heq => h (mem_keys.mpr ⟨e.2, heq ▸ he⟩), he⟩
      · exact .inl rfl
    · rintro (rfl | ⟨-, he⟩)
      · exact .inr rfl
      · exact .inl he

@[simp] theorem mem_entries_delete {e : κ × β} :
    e ∈ (m.delete k).entries ↔ e.1 ≠ k ∧ e ∈ m.entries := by
  simp [delete, and_comm]

@[simp] theorem mem_keys_set : k' ∈ (m.set k v).keys ↔ k' = k ∨ k' ∈ m.keys := by
  simp only [mem_keys, mem_entries_set, Prod.mk.injEq]
  constructor
  · rintro ⟨u, ⟨rfl, -⟩ | ⟨-, hu⟩⟩
    · exact .inl rfl
    · exact .inr ⟨u, hu⟩
  · rintro (rfl | ⟨u, hu⟩)
    · exact ⟨v, .inl ⟨rfl, rfl⟩⟩
    · by_cases h : k' = k
      · exact ⟨v, .inl ⟨h, rfl⟩⟩
      · exact ⟨u, .inr ⟨h, hu⟩⟩

@[simp] theorem mem_keys_delete : k' ∈ (m.delete k).keys ↔ k' ≠ k ∧ k' ∈ m.keys := by
  simp [mem_keys, exists_and_left]

theorem mem_keys_iff_get : k ∈ m.keys ↔ (m.get k).isSome := by
  simp only [mem_keys, ← get_eq_some, Option.isSome_iff_exists]

@[simp] theorem get_empty : (empty : OrderedMap κ β).get k = none := rfl

theorem get_set : (m.set k v).get k' = if k' = k then some v else m.get k' := by
  ext u
  rw [get_eq_some, mem_entries_set]
  by_cases h : k' = k
  · simp [h, eq_comm]
  · simp [h, get_eq_some]

theorem get_delete : (m.delete k).get k' = if k' = k then none else m.get k' := by
  ext u
  rw [get_eq_some, mem_entries_delete]
  by_cases h : k' = k
  · simp [h]
  · simp [h, get_eq_some]

end OrderedMap

end SettlementBus.Lib
