import Mathlib.Data.List.Nodup

/-! Pending promises under ids, each with a timer that settles it. -/

namespace SettlementBus.Lib

structure Pending.Entry (κ α : Type) where
  id : κ
  data : α
  /-- The timer of the entry, until it is stopped. -/
  timeoutId : Option ℕ
  /-- The promise that the settlement of the entry settles. -/
  promise : ℕ
  deriving DecidableEq

/-- The entries in their order of insertion, with what the runtime keeps for them: a running timer
has the id that it settles, and a promise keeps its first settlement. -/
structure Pending (κ α ρ : Type) where
  entries : List (Pending.Entry κ α)
  timers : List (ℕ × κ)
  settlements : List (ℕ × ρ)
  nextId : ℕ
  deriving DecidableEq

namespace Pending

variable {κ α ρ : Type}

def init : Pending κ α ρ := { entries := [], timers := [], settlements := [], nextId := 0 }

variable (p : Pending κ α ρ) (id : κ) (o : ρ)

/-- `clearTimeout` ignores `null`. -/
def clearTimeout (timeoutId : Option ℕ) : Pending κ α ρ :=
  { p with timers := p.timers.filter fun timer => some timer.1 ≠ timeoutId }

def settlement (promise : ℕ) : Option ρ := p.settlements.lookup promise

/-- The promise is settled unless it has been before. -/
def settle (promise : ℕ) : Pending κ α ρ :=
  match p.settlement promise with
  | none => { p with settlements := (promise, o) :: p.settlements }
  | some _ => p

/-- All promises are settled, and no entry is left. -/
def settleAll : Pending κ α ρ :=
  let p := p.entries.foldl (fun p entry =>
    (p.clearTimeout entry.timeoutId).settle o entry.promise) p
  { p with entries := [] }

/-- A new entry with a new promise and a running timer. -/
def register (data : α) : Pending κ α ρ :=
  { p with
    entries := p.entries ++ [{ id, data, timeoutId := some p.nextId, promise := p.nextId }]
    timers := (p.nextId, id) :: p.timers
    nextId := p.nextId + 1 }

/-! ### What is kept -/

/-- The entries have different ids and promises, which are not settled. The running timers are those
of the entries. -/
structure Sound (p : Pending κ α ρ) : Prop where
  ids : (p.entries.map Entry.id).Nodup
  promises : (p.entries.map Entry.promise).Nodup
  pending : ∀ x ∈ p.entries, x.promise < p.nextId ∧ p.settlement x.promise = none
  running : ∀ x ∈ p.entries, ∀ t, x.timeoutId = some t → t = x.promise ∧ (t, x.id) ∈ p.timers
  timers : ∀ timer ∈ p.timers, ∃ x ∈ p.entries, x.timeoutId = some timer.1 ∧ x.id = timer.2
  settled : ∀ s ∈ p.settlements, s.1 < p.nextId

/-- The entry, its timer and its promise are as before. -/
structure Entry.Unchanged (x : Entry κ α) (p p' : Pending κ α ρ) : Prop where
  entry : x ∈ p'.entries
  timer : ∀ t, x.timeoutId = some t → (t, x.id) ∈ p'.timers
  promise : p'.settlement x.promise = p.settlement x.promise

variable {p p' : Pending κ α ρ} {entry x : Entry κ α} {id : κ} {o : ρ}

theorem sound_init : (init : Pending κ α ρ).Sound where
  ids := List.nodup_nil
  promises := List.nodup_nil
  pending := by simp [init]
  running := by simp [init]
  timers := by simp [init]
  settled := by simp [init]

namespace Sound

variable (h : p.Sound)

include h

theorem eq_of_id (hx : x ∈ p.entries) (hentry : entry ∈ p.entries) (hid : x.id = entry.id) :
    x = entry := List.inj_on_of_nodup_map h.ids hx hentry hid

theorem eq_of_promise (hx : x ∈ p.entries) (hentry : entry ∈ p.entries)
    (hpromise : x.promise = entry.promise) : x = entry :=
  List.inj_on_of_nodup_map h.promises hx hentry hpromise

/-- No other entry has the timer of an entry. -/
theorem timeoutId_ne (hx : x ∈ p.entries) (hentry : entry ∈ p.entries) (hne : x ≠ entry) {t : ℕ}
    (ht : x.timeoutId = some t) : some t ≠ entry.timeoutId := by
  intro heq
  have hxt := (h.running x hx t ht).1
  have hentryt := (h.running entry hentry t heq.symm).1
  exact hne (h.eq_of_promise hx hentry (hxt.symm.trans hentryt))

theorem unchanged_iff (h' : p'.Sound) (hx : x ∈ p.entries) :
    x.Unchanged p p' ↔ x ∈ p'.entries := by
  constructor
  · exact fun hunchanged => hunchanged.entry
  · intro hx'
    exact ⟨hx', fun t ht => (h'.running x hx' t ht).2,
      (h'.pending x hx').2.trans (h.pending x hx).2.symm⟩

end Sound

/-! ### Settlements -/

section

variable {promise promise' : ℕ}

@[simp] theorem settle_entries : (p.settle o promise).entries = p.entries := by
  unfold settle
  split <;> rfl

@[simp] theorem settle_timers : (p.settle o promise).timers = p.timers := by
  unfold settle
  split <;> rfl

@[simp] theorem settle_nextId : (p.settle o promise).nextId = p.nextId := by
  unfold settle
  split <;> rfl

theorem settlement_settle_ne (h : promise' ≠ promise) :
    (p.settle o promise).settlement promise' = p.settlement promise' := by
  unfold settle
  split
  · simp [settlement, List.lookup_cons, beq_false_of_ne h]
  · rfl

theorem mem_settlements_settle {s : ℕ × ρ} (h : s ∈ (p.settle o promise).settlements) :
    s = (promise, o) ∨ s ∈ p.settlements := by
  unfold settle at h
  split at h
  · exact List.mem_cons.mp h
  · exact .inr h

theorem settled_settle (hpromise : promise < p.nextId)
    (h : ∀ s ∈ p.settlements, s.1 < p.nextId) :
    ∀ s ∈ (p.settle o promise).settlements, s.1 < p.nextId := by
  intro s hs
  obtain rfl | hs := mem_settlements_settle hs
  · exact hpromise
  · exact h s hs

end

theorem settleAll_foldl (entries : List (Entry κ α)) (hpromises : ∀ x ∈ entries, x.promise < p.nextId)
    (hsettled : ∀ s ∈ p.settlements, s.1 < p.nextId) :
    let p' := entries.foldl (fun p entry =>
      (p.clearTimeout entry.timeoutId).settle o entry.promise) p
    (∀ timer ∈ p'.timers, timer ∈ p.timers ∧ ∀ x ∈ entries, x.timeoutId ≠ some timer.1) ∧
      p'.nextId = p.nextId ∧ ∀ s ∈ p'.settlements, s.1 < p.nextId := by
  induction entries generalizing p with
  | nil => exact ⟨fun timer htimer => ⟨htimer, by simp⟩, rfl, hsettled⟩
  | cons entry entries ih =>
    have hentry : entry.promise < p.nextId := hpromises entry List.mem_cons_self
    set next := (p.clearTimeout entry.timeoutId).settle o entry.promise with hnext
    have hid : next.nextId = p.nextId := settle_nextId
    have hlt : ∀ s ∈ next.settlements, s.1 < next.nextId := by
      rw [hid]
      exact @settled_settle κ α ρ (p.clearTimeout entry.timeoutId) o _ hentry hsettled
    obtain ⟨htimers, hnextId, hclosed⟩ := @ih next
      (fun x hx => hid ▸ hpromises x (List.mem_cons_of_mem _ hx)) hlt
    refine ⟨fun timer htimer => ?_, hnextId.trans hid, hid ▸ hclosed⟩
    obtain ⟨hmem, hne⟩ := htimers timer htimer
    rw [hnext, settle_timers] at hmem
    obtain ⟨hmem, hcleared⟩ := List.mem_filter.mp hmem
    refine ⟨hmem, List.forall_mem_cons.mpr ⟨fun heq => ?_, hne⟩⟩
    simp [heq] at hcleared

theorem Sound.settleAll (h : p.Sound) : (p.settleAll o).Sound := by
  obtain ⟨htimers, hnextId, hsettled⟩ := @settleAll_foldl κ α ρ p o p.entries
    (fun x hx => (h.pending x hx).1) h.settled
  constructor
  · exact List.nodup_nil
  · exact List.nodup_nil
  · exact fun x hx => absurd hx List.not_mem_nil
  · exact fun x hx => absurd hx List.not_mem_nil
  · intro timer htimer
    obtain ⟨hmem, hne⟩ := htimers timer htimer
    obtain ⟨x, hx, ht, -⟩ := h.timers timer hmem
    exact absurd ht (hne x hx)
  · exact hnextId.symm ▸ hsettled

theorem mem_register {data : α} : x ∈ (p.register id data).entries ↔
    x ∈ p.entries ∨ x = { id, data, timeoutId := some p.nextId, promise := p.nextId } := by
  rw [register, List.mem_append, List.mem_singleton]

/-! ### By id -/

section

variable [DecidableEq κ] (p : Pending κ α ρ) (id : κ) (o : ρ)

def find? : Option (Entry κ α) := p.entries.find? fun entry => entry.id = id

def delete : Pending κ α ρ :=
  { p with entries := p.entries.filter fun entry => entry.id ≠ id }

/-- The entry of the id, if there is one, is deleted with its timer, and its promise is settled. -/
def settleId : Pending κ α ρ :=
  match p.find? id with
  | none => p
  | some entry => ((p.clearTimeout entry.timeoutId).delete id).settle o entry.promise

/-- One settlement after another. -/
def settleEach (outcomes : List (κ × ρ)) : Pending κ α ρ :=
  outcomes.foldl (fun p outcome => p.settleId outcome.1 outcome.2) p

def stopTimeout : Pending κ α ρ :=
  match p.find? id with
  | none => p
  | some entry =>
    { p.clearTimeout entry.timeoutId with
      entries := p.entries.map fun entry =>
        if entry.id = id then { entry with timeoutId := none } else entry }

/-- A running timer fires. -/
def fire (timer : ℕ) : Option (Pending κ α ρ) := do
  let id ← p.timers.lookup timer
  return (p.clearTimeout (some timer)).settleId id o

end

variable [DecidableEq κ]

theorem find?_eq_none : p.find? id = none ↔ ∀ x ∈ p.entries, x.id ≠ id := by
  simp [find?]

theorem mem_of_find? (h : p.find? id = some entry) : entry ∈ p.entries ∧ entry.id = id :=
  ⟨List.mem_of_find?_eq_some h, by simpa using List.find?_some h⟩

theorem mem_settleId : x ∈ (p.settleId id o).entries ↔ x ∈ p.entries ∧ x.id ≠ id := by
  unfold settleId
  split
  case h_1 h =>
    rw [find?_eq_none] at h
    exact ⟨fun hx => ⟨hx, h x hx⟩, And.left⟩
  case h_2 => simp [delete, clearTimeout]

theorem settleId_nextId : (p.settleId id o).nextId = p.nextId := by
  unfold settleId
  split
  · rfl
  · exact settle_nextId

/-- The only new settlement is that of the entry's promise. -/
theorem mem_settlements_settleId {s : ℕ × ρ} (h : s ∈ (p.settleId id o).settlements) :
    s ∈ p.settlements ∨ ∃ entry ∈ p.entries, entry.id = id ∧ s = (entry.promise, o) := by
  unfold settleId at h
  split at h
  case h_1 => exact .inl h
  case h_2 entry hentry =>
    obtain ⟨hmem, hid⟩ := mem_of_find? hentry
    obtain rfl | h := mem_settlements_settle h
    · exact .inr ⟨entry, hmem, hid, rfl⟩
    · exact .inl h

theorem Sound.settleId (h : p.Sound) : (p.settleId id o).Sound := by
  unfold Pending.settleId
  split
  case h_1 => exact h
  case h_2 entry hentry =>
    obtain ⟨hmem, rfl⟩ := mem_of_find? hentry
    have hsub : (p.entries.filter fun x => x.id ≠ entry.id).Sublist p.entries :=
      List.filter_sublist
    have hother : ∀ x ∈ p.entries.filter fun x => x.id ≠ entry.id, x ∈ p.entries ∧ x ≠ entry := by
      intro x hx
      obtain ⟨hx, hid⟩ := List.mem_filter.mp hx
      exact ⟨hx, fun heq => by simp [heq] at hid⟩
    constructor
    · simpa [delete, clearTimeout] using h.ids.sublist (hsub.map _)
    · simpa [delete, clearTimeout] using h.promises.sublist (hsub.map _)
    · intro x hx
      simp only [settle_entries, delete, clearTimeout] at hx
      obtain ⟨hx, hne⟩ := hother x hx
      obtain ⟨hlt, hnone⟩ := h.pending x hx
      refine ⟨by simpa [delete, clearTimeout] using hlt, ?_⟩
      rw [settlement_settle_ne fun heq => hne (h.eq_of_promise hx hmem heq)]
      exact hnone
    · intro x hx t ht
      simp only [settle_entries, delete, clearTimeout] at hx
      obtain ⟨hx, hne⟩ := hother x hx
      obtain ⟨hpromise, hrunning⟩ := h.running x hx t ht
      refine ⟨hpromise, ?_⟩
      simp only [settle_timers, delete, clearTimeout]
      exact List.mem_filter.mpr ⟨hrunning, by simpa using h.timeoutId_ne hx hmem hne ht⟩
    · intro timer htimer
      simp only [settle_timers, delete, clearTimeout] at htimer
      obtain ⟨htimer, hcleared⟩ := List.mem_filter.mp htimer
      obtain ⟨x, hx, ht, hid⟩ := h.timers timer htimer
      refine ⟨x, ?_, ht, hid⟩
      simp only [settle_entries, delete, clearTimeout]
      refine List.mem_filter.mpr ⟨hx, ?_⟩
      simp only [decide_eq_true_eq] at hcleared ⊢
      intro heq
      exact hcleared (ht.symm.trans (congrArg _ (h.eq_of_id hx hmem heq)))
    · rw [settle_nextId]
      exact @settled_settle κ α ρ ((p.clearTimeout entry.timeoutId).delete entry.id) o _
        (h.pending entry hmem).1 h.settled

section

variable {outcomes : List (κ × ρ)}

theorem mem_settleEach :
    x ∈ (p.settleEach outcomes).entries ↔ x ∈ p.entries ∧ x.id ∉ outcomes.map Prod.fst := by
  induction outcomes generalizing p with
  | nil => simp [settleEach]
  | cons outcome outcomes ih =>
    refine (ih (p := p.settleId outcome.1 outcome.2)).trans ?_
    rw [mem_settleId, List.map_cons, List.mem_cons, not_or, and_assoc]

theorem settleEach_nextId : (p.settleEach outcomes).nextId = p.nextId := by
  induction outcomes generalizing p with
  | nil => rfl
  | cons outcome outcomes ih => exact ih.trans settleId_nextId

/-- The new settlements are those of the entries with an outcome. -/
theorem mem_settlements_settleEach {s : ℕ × ρ} (h : s ∈ (p.settleEach outcomes).settlements) :
    s ∈ p.settlements ∨
      ∃ entry ∈ p.entries, ∃ o, (entry.id, o) ∈ outcomes ∧ s = (entry.promise, o) := by
  induction outcomes generalizing p with
  | nil => exact .inl h
  | cons outcome outcomes ih =>
    obtain h | ⟨entry, hentry, o, ho, rfl⟩ := ih h
    · obtain h | ⟨entry, hentry, hid, rfl⟩ := mem_settlements_settleId h
      · exact .inl h
      · exact .inr ⟨entry, hentry, outcome.2, hid ▸ List.mem_cons_self, rfl⟩
    · exact .inr ⟨entry, (mem_settleId.mp hentry).1, o, List.mem_cons_of_mem _ ho, rfl⟩

theorem Sound.settleEach (h : p.Sound) : (p.settleEach outcomes).Sound := by
  induction outcomes generalizing p with
  | nil => exact h
  | cons outcome outcomes ih => exact ih h.settleId

end

/-! ### Timers -/

/-- An entry is kept as it is, unless its own running timer is stopped. -/
theorem mem_stopTimeout (hx : x ∈ p.entries) :
    x ∈ (p.stopTimeout id).entries ↔ (x.id = id → x.timeoutId = none) := by
  unfold stopTimeout
  split
  case h_1 h =>
    rw [find?_eq_none] at h
    exact ⟨fun _ hid => absurd hid (h x hx), fun _ => hx⟩
  case h_2 =>
    simp only [List.mem_map]
    constructor
    · rintro ⟨y, -, hy⟩ hid
      split at hy
      case isTrue => rw [← hy]
      case isFalse hne => exact absurd (hy ▸ hid) hne
    · intro h
      refine ⟨x, hx, ?_⟩
      split
      case isTrue hid => rw [← h hid]
      case isFalse => rfl

theorem Sound.stopTimeout (h : p.Sound) : (p.stopTimeout id).Sound := by
  unfold Pending.stopTimeout
  split
  case h_1 => exact h
  case h_2 entry hentry =>
    obtain ⟨hmem, rfl⟩ := mem_of_find? hentry
    set stop := fun x : Entry κ α => if x.id = entry.id then { x with timeoutId := none } else x
      with hstop
    have hid : ∀ x, (stop x).id = x.id := fun x => by
      simp only [hstop]
      split <;> rfl
    have hpromise : ∀ x, (stop x).promise = x.promise := fun x => by
      simp only [hstop]
      split <;> rfl
    -- A timer that is still running is that of another entry.
    have htimeout : ∀ x ∈ p.entries, ∀ t, (stop x).timeoutId = some t →
        x ≠ entry ∧ x.timeoutId = some t := by
      intro x hx t ht
      simp only [hstop] at ht
      split at ht
      case isTrue => cases ht
      case isFalse hne => exact ⟨fun heq => hne (congrArg _ heq), ht⟩
    constructor
    · simpa [List.map_map, Function.comp_def, hid] using h.ids
    · simpa [List.map_map, Function.comp_def, hpromise] using h.promises
    · intro y hy
      obtain ⟨x, hx, rfl⟩ := List.mem_map.mp hy
      rw [hpromise]
      exact h.pending x hx
    · intro y hy t ht
      obtain ⟨x, hx, rfl⟩ := List.mem_map.mp hy
      obtain ⟨hne, ht⟩ := htimeout x hx t ht
      obtain ⟨heq, hrunning⟩ := h.running x hx t ht
      rw [hpromise, hid]
      exact ⟨heq, List.mem_filter.mpr ⟨hrunning, by simpa using h.timeoutId_ne hx hmem hne ht⟩⟩
    · intro timer htimer
      obtain ⟨htimer, hcleared⟩ := List.mem_filter.mp htimer
      obtain ⟨x, hx, ht, hxid⟩ := h.timers timer htimer
      simp only [decide_eq_true_eq] at hcleared
      have hne : x.id ≠ entry.id := fun heq =>
        hcleared (ht.symm.trans (congrArg _ (h.eq_of_id hx hmem heq)))
      have hx' : stop x = x := by simp only [hstop, if_neg hne]
      exact ⟨x, List.mem_map.mpr ⟨x, hx, hx'⟩, ht, hxid⟩
    · exact h.settled

/-- The timer that fires is that of an entry, which is settled. -/
theorem Sound.fire_eq {t : ℕ} (h : p.Sound) (hfire : p.fire o t = some p') :
    ∃ entry ∈ p.entries, entry.timeoutId = some t ∧ p' = p.settleId entry.id o := by
  simp only [fire, Option.bind_eq_bind, Option.bind_eq_some_iff, Option.pure_def,
    Option.some.injEq] at hfire
  obtain ⟨id, hid, rfl⟩ := hfire
  obtain ⟨l₁, l₂, htimers, -⟩ := List.lookup_eq_some_iff.mp hid
  obtain ⟨entry, hentry, ht, rfl⟩ := h.timers (t, id) (by simp [htimers])
  have hfind : p.find? entry.id = some entry := by
    cases hfound : p.find? entry.id with
    | none => exact absurd rfl (find?_eq_none.mp hfound entry hentry)
    | some y =>
      obtain ⟨hy, hid⟩ := mem_of_find? hfound
      rw [h.eq_of_id hy hentry hid]
  have hfind' : (p.clearTimeout (some t)).find? entry.id = some entry := hfind
  have hclear : (p.clearTimeout (some t)).clearTimeout (some t) = p.clearTimeout (some t) := by
    simp [clearTimeout, List.filter_filter]
  refine ⟨entry, hentry, ht, ?_⟩
  rw [Pending.settleId, Pending.settleId, hfind, hfind']
  simp only [ht, hclear]

/-! ### Registration -/

theorem Sound.register (h : p.Sound) (hid : p.find? id = none) (data : α) :
    (p.register id data).Sound := by
  rw [find?_eq_none] at hid
  have hlt : ∀ x ∈ p.entries, x.promise < p.nextId := fun x hx => (h.pending x hx).1
  constructor
  · simpa [Pending.register, List.nodup_append] using ⟨h.ids, hid⟩
  · simpa [Pending.register, List.nodup_append] using ⟨h.promises, fun x hx => Nat.ne_of_lt (hlt x hx)⟩
  · intro x hx
    obtain hx | rfl := mem_register.mp hx
    · exact ⟨Nat.lt_succ_of_lt (hlt x hx), (h.pending x hx).2⟩
    · -- A promise that is not made yet is not settled.
      refine ⟨Nat.lt_succ_self _, List.lookup_eq_none_iff.mpr fun s hs => ?_⟩
      simpa using Nat.ne_of_gt (h.settled s hs)
  · intro x hx t ht
    obtain hx | rfl := mem_register.mp hx
    · obtain ⟨heq, hrunning⟩ := h.running x hx t ht
      exact ⟨heq, List.mem_cons_of_mem _ hrunning⟩
    · cases ht
      exact ⟨rfl, List.mem_cons_self⟩
  · intro timer htimer
    rcases List.mem_cons.mp htimer with rfl | htimer
    · exact ⟨_, mem_register.mpr (.inr rfl), rfl, rfl⟩
    · obtain ⟨x, hx, ht, hid⟩ := h.timers timer htimer
      exact ⟨x, mem_register.mpr (.inl hx), ht, hid⟩
  · exact fun s hs => Nat.lt_succ_of_lt (h.settled s hs)

end Pending

end SettlementBus.Lib
