import Mathlib.Data.Set.Insert
import Mathlib.Logic.Function.Basic

/-! A group that is kept twice: by what its members hold, a rank and a key each, and by the keys
the group admits. Keys are registered to one member for good. -/

namespace SettlementBus.Lib

/-- Which ranks make a writer and which an indexer, and the key that stands for none. -/
structure Ranking (ρ κ : Type) where
  isWriter : ρ → Bool
  isIndexer : ρ → Bool
  isWriter_of_isIndexer : ∀ r, isIndexer r → isWriter r
  unset : κ

structure Membership (α ρ κ : Type) where
  holds : α → Option (ρ × κ)
  owner : κ → Option α
  writers : Set κ
  indexers : Set κ

namespace Membership

variable {α ρ κ : Type} (rk : Ranking ρ κ)

/-- The keys that the group admits are those its writers hold, and likewise for indexers. -/
structure Agrees (m : Membership α ρ κ) : Prop where
  registered : ∀ {s r k}, m.holds s = some (r, k) → k ≠ rk.unset → m.owner k = some s
  unset_notMem : rk.unset ∉ m.writers
  writer_iff : ∀ {s r k}, m.holds s = some (r, k) → (rk.isWriter r ↔ k ∈ m.writers)
  indexer_iff : ∀ {s r k}, m.holds s = some (r, k) → (rk.isIndexer r ↔ k ∈ m.indexers)
  subset : m.indexers ⊆ m.writers
  stored : ∀ {k}, k ∈ m.writers → ∃ s r, m.holds s = some (r, k)

/-- The keys after a member that held `old` has come to hold `new`. -/
def moveKeys (keys : Set κ) (old : Option κ) (new : Option κ) : Set κ :=
  {k | k ∈ keys ∧ old ≠ some k ∨ new = some k}

/-- The member `s` comes to hold the key `k` in the rank `r`, and the group follows. -/
structure Moved [DecidableEq α] (m : Membership α ρ κ) (s : α) (r : ρ) (k : κ)
    (m' : Membership α ρ κ) : Prop where
  holds : m'.holds = Function.update m.holds s (some (r, k))
  owner : ∀ {k t}, m.owner k = some t → m'.owner k = some t
  registered : k ≠ rk.unset → m'.owner k = some s
  key : k = rk.unset ∨ (∃ r, m.holds s = some (r, k)) ∨ m.owner k = none
  set : rk.isWriter r → k ≠ rk.unset
  writers : m'.writers =
    moveKeys m.writers ((m.holds s).map Prod.snd) (if rk.isWriter r then some k else none)
  indexers : m'.indexers =
    moveKeys m.indexers ((m.holds s).map Prod.snd) (if rk.isIndexer r then some k else none)

variable {rk} {m m' : Membership α ρ κ} {s t : α} {r r' : ρ} {k : κ}

theorem Agrees.ne_unset (h : m.Agrees rk) (hk : k ∈ m.writers) : k ≠ rk.unset := by
  rintro rfl
  exact h.unset_notMem hk

/-- Only one member holds a key. -/
theorem Agrees.unique (h : m.Agrees rk) (hs : m.holds s = some (r, k))
    (ht : m.holds t = some (r', k)) (hk : k ≠ rk.unset) : s = t :=
  Option.some.inj ((h.registered hs hk).symm.trans (h.registered ht hk))

theorem Agrees.owner_eq (h : m.Agrees rk) (hk : k ∈ m.writers) (ht : m.holds t = some (r, k)) :
    m.owner k = some t := h.registered ht (h.ne_unset hk)

theorem mem_moveKeys {keys : Set κ} {old : Option κ} {c : Bool} {k' : κ} :
    k ∈ moveKeys keys old (if c then some k' else none) ↔
      k ∈ keys ∧ old ≠ some k ∨ c ∧ k' = k := by
  cases c <;> simp [moveKeys]

/-- More registrations do no harm. -/
theorem Agrees.mono (h : m.Agrees rk) (holds : m'.holds = m.holds)
    (owner : ∀ {k t}, m.owner k = some t → m'.owner k = some t) (writers : m'.writers = m.writers)
    (indexers : m'.indexers = m.indexers) : m'.Agrees rk where
  registered hs hk := owner (h.registered (holds ▸ hs) hk)
  unset_notMem := writers ▸ h.unset_notMem
  writer_iff hs := writers ▸ h.writer_iff (holds ▸ hs)
  indexer_iff hs := indexers ▸ h.indexer_iff (holds ▸ hs)
  subset := by
    rw [writers, indexers]
    exact h.subset
  stored hk := by
    rw [writers] at hk
    rw [holds]
    exact h.stored hk

section Move

variable [DecidableEq α] (hm : m.Agrees rk) (h : m.Moved rk s r k m')

include hm h

/-- A key that the group admits and another member holds is neither old nor new. -/
theorem Moved.holds_ne {t : α} {r' : ρ} {k' : κ} (hne : t ≠ s) (ht : m.holds t = some (r', k'))
    (hk' : k' ≠ rk.unset) : (m.holds s).map Prod.snd ≠ some k' ∧ k ≠ k' := by
  constructor
  · intro hold
    obtain ⟨⟨r₀, _⟩, hs, rfl⟩ := Option.map_eq_some_iff.mp hold
    exact hne (hm.unique ht hs hk')
  · rintro rfl
    obtain hk | ⟨r₀, hs⟩ | hnone := h.key
    · exact hk' hk
    · exact hne (hm.unique ht hs hk')
    · cases hnone.symm.trans (hm.registered ht hk')

/-- The new key was not admitted unless the member held it. -/
theorem Moved.notMem (hk : (m.holds s).map Prod.snd ≠ some k) : k ∉ m.writers := by
  intro hmem
  obtain hk' | ⟨r₀, hs⟩ | hnone := h.key
  · exact hm.ne_unset hmem hk'
  · exact hk (by rw [hs]; rfl)
  · obtain ⟨t, r', ht⟩ := hm.stored hmem
    cases hnone.symm.trans (hm.owner_eq hmem ht)

theorem Moved.mem_iff {keys keys' : Set κ} {c : Bool} {p : ρ → Bool} (hsub : keys ⊆ m.writers)
    (hkeys : keys' = moveKeys keys ((m.holds s).map Prod.snd) (if c then some k else none))
    (hc : c → k ≠ rk.unset) (hp : p r = c)
    (hold : ∀ {t r' k'}, m.holds t = some (r', k') → (p r' ↔ k' ∈ keys)) {t : α} {r' : ρ} {k' : κ}
    (ht : m'.holds t = some (r', k')) : p r' ↔ k' ∈ keys' := by
  rw [hkeys, mem_moveKeys]
  rw [h.holds] at ht
  by_cases hts : t = s
  · subst hts
    rw [Function.update_self] at ht
    cases ht
    rw [hp]
    constructor
    · exact fun hc => .inr ⟨hc, rfl⟩
    · rintro (⟨hmem, hne⟩ | ⟨hc, -⟩)
      · exact absurd (hsub hmem) (h.notMem hm hne)
      · exact hc
  · rw [Function.update_of_ne hts] at ht
    rw [hold ht]
    constructor
    · intro hmem
      exact .inl ⟨hmem, (h.holds_ne hm hts ht (hm.ne_unset (hsub hmem))).1⟩
    · rintro (⟨hmem, -⟩ | ⟨hc', rfl⟩)
      · exact hmem
      · exact absurd rfl (h.holds_ne hm hts ht (hc hc')).2

theorem Moved.agrees : m'.Agrees rk where
  registered := by
    intro t r' k' ht hk'
    rw [h.holds] at ht
    by_cases hts : t = s
    · subst hts
      rw [Function.update_self] at ht
      cases ht
      exact h.registered hk'
    · rw [Function.update_of_ne hts] at ht
      exact h.owner (hm.registered ht hk')
  unset_notMem := by
    rw [h.writers, mem_moveKeys]
    rintro (⟨hmem, -⟩ | ⟨hr, hk⟩)
    · exact hm.unset_notMem hmem
    · exact h.set hr hk
  writer_iff ht := h.mem_iff hm (p := rk.isWriter) subset_rfl h.writers h.set rfl hm.writer_iff ht
  indexer_iff ht := h.mem_iff hm (p := rk.isIndexer) hm.subset h.indexers
    (fun hr => h.set (rk.isWriter_of_isIndexer r hr)) rfl hm.indexer_iff ht
  subset := by
    intro k' hk'
    rw [h.indexers, mem_moveKeys] at hk'
    rw [h.writers, mem_moveKeys]
    obtain ⟨hmem, hne⟩ | ⟨hr, hk⟩ := hk'
    · exact .inl ⟨hm.subset hmem, hne⟩
    · exact .inr ⟨rk.isWriter_of_isIndexer r hr, hk⟩
  stored := by
    intro k' hk'
    rw [h.writers, mem_moveKeys] at hk'
    rw [h.holds]
    obtain ⟨hmem, hne⟩ | ⟨hr, rfl⟩ := hk'
    · obtain ⟨t, r', ht⟩ := hm.stored hmem
      have hts : t ≠ s := by
        rintro rfl
        exact hne (by rw [ht]; rfl)
      exact ⟨t, r', by rw [Function.update_of_ne hts, ht]⟩
    · exact ⟨s, r, Function.update_self ..⟩

end Move

end Membership

end SettlementBus.Lib
