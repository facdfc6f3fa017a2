import SettlementBus.Lib.Pending

/-! How long the entries of a map of pending promises stay. -/

namespace SettlementBus.Lib.Pending

variable {κ α ρ : Type}

/-- From `p` to `q` every promise keeps its settlement, and those that are not settled keep their
entries. A new promise has an entry until it is settled. -/
structure Lasts (p q : Pending κ α ρ) : Prop where
  nextId : p.nextId ≤ q.nextId
  settled : ∀ n o, p.settlement n = some o → q.settlement n = some o
  kept : ∀ x ∈ p.entries, q.settlement x.promise = none →
    ∃ y ∈ q.entries, y.id = x.id ∧ y.promise = x.promise
  fresh : ∀ n, p.nextId ≤ n → n < q.nextId → q.settlement n = none →
    ∃ y ∈ q.entries, y.promise = n

variable {p q r : Pending κ α ρ} {x y : Entry κ α} {o : ρ} {n promise : ℕ}

theorem Lasts.unsettled (h : p.Lasts q) (hn : q.settlement n = none) : p.settlement n = none := by
  cases hp : p.settlement n with
  | none => rfl
  | some o => exact absurd ((h.settled n o hp).symm.trans hn) (by simp)

theorem Lasts.refl (p : Pending κ α ρ) : p.Lasts p where
  nextId := Nat.le_refl _
  settled := fun _ _ => id
  kept := fun x hx _ => ⟨x, hx, rfl, rfl⟩
  fresh := fun _ hle hlt => absurd hlt (Nat.not_lt.mpr hle)

theorem Lasts.trans (h : p.Lasts q) (h' : q.Lasts r) : p.Lasts r where
  nextId := Nat.le_trans h.nextId h'.nextId
  settled := fun n o hn => h'.settled n o (h.settled n o hn)
  kept := by
    intro x hx hn
    obtain ⟨y, hy, hid, hpromise⟩ := h.kept x hx (h'.unsettled hn)
    obtain ⟨z, hz, hid', hpromise'⟩ := h'.kept y hy (hpromise ▸ hn)
    exact ⟨z, hz, hid'.trans hid, hpromise'.trans hpromise⟩
  fresh := by
    intro n hle hlt hn
    by_cases hq : n < q.nextId
    · obtain ⟨y, hy, rfl⟩ := h.fresh n hle hq (h'.unsettled hn)
      obtain ⟨z, hz, -, hpromise⟩ := h'.kept y hy hn
      exact ⟨z, hz, hpromise⟩
    · exact h'.fresh n (Nat.not_lt.mp hq) hlt hn

/-! ### Settlements -/

theorem settlement_settle_self : ((p.settle o promise).settlement promise).isSome := by
  unfold settle
  split
  case h_1 => simp [settlement]
  case h_2 hsome => simp [hsome]

theorem settlement_settle_of_some {o' : ρ} (h : p.settlement n = some o') :
    (p.settle o promise).settlement n = some o' := by
  by_cases heq : n = promise
  · subst heq
    rw [settle, h]
    exact h
  · rw [settlement_settle_ne heq, h]

/-- Nothing is lost when the promises of the entries that leave are settled. -/
theorem Lasts.of_entries (hnextId : q.nextId = p.nextId)
    (hsettled : ∀ n o, p.settlement n = some o → q.settlement n = some o)
    (hleft : ∀ x ∈ p.entries, (∃ y ∈ q.entries, y.id = x.id ∧ y.promise = x.promise) ∨
      (q.settlement x.promise).isSome) : p.Lasts q where
  nextId := Nat.le_of_eq hnextId.symm
  settled := hsettled
  kept := by
    intro x hx hn
    obtain hy | hsome := hleft x hx
    · exact hy
    · rw [hn] at hsome
      cases hsome
  fresh := fun _ hle hlt => absurd (hnextId ▸ hlt) (Nat.not_lt.mpr hle)

theorem settlement_foldl_settle (entries : List (Entry κ α)) :
    let p' := entries.foldl (fun p entry =>
      (p.clearTimeout entry.timeoutId).settle o entry.promise) p
    p'.nextId = p.nextId ∧ (∀ n o', p.settlement n = some o' → p'.settlement n = some o') ∧
      ∀ x ∈ entries, (p'.settlement x.promise).isSome := by
  induction entries generalizing p with
  | nil => exact ⟨rfl, fun _ _ => id, fun x hx => absurd hx List.not_mem_nil⟩
  | cons entry entries ih =>
    obtain ⟨hnextId, hsettled, hall⟩ :=
      @ih ((p.clearTimeout entry.timeoutId).settle o entry.promise)
    refine ⟨hnextId.trans settle_nextId, fun n o' hn => ?_, List.forall_mem_cons.mpr ⟨?_, hall⟩⟩
    · exact hsettled n o' (settlement_settle_of_some hn)
    · obtain ⟨o', ho'⟩ := Option.isSome_iff_exists.mp
        (@settlement_settle_self _ _ _ (p.clearTimeout entry.timeoutId) o entry.promise)
      exact Option.isSome_iff_exists.mpr ⟨o', hsettled _ o' ho'⟩

theorem mem_settlements_of_settlement (h : p.settlement promise = some o) :
    (promise, o) ∈ p.settlements := by
  obtain ⟨l₁, l₂, heq, -⟩ := List.lookup_eq_some_iff.mp h
  rw [heq]
  exact List.mem_append_right _ List.mem_cons_self

theorem lasts_settleAll : p.Lasts (p.settleAll o) := by
  obtain ⟨hnextId, hsettled, hall⟩ := @settlement_foldl_settle κ α ρ p o p.entries
  exact Lasts.of_entries hnextId hsettled fun x hx => .inr (hall x hx)

theorem mem_settlements_settleAll {x : ℕ × ρ} (h : x ∈ (p.settleAll o).settlements) :
    x ∈ p.settlements ∨ x.2 = o := by
  have hfold : ∀ (entries : List (Entry κ α)) (q : Pending κ α ρ),
      x ∈ (entries.foldl (fun p entry =>
        (p.clearTimeout entry.timeoutId).settle o entry.promise) q).settlements →
      x ∈ q.settlements ∨ x.2 = o := by
    intro entries
    induction entries with
    | nil => exact fun _ => .inl
    | cons entry entries ih =>
      intro q hx
      obtain hx | hx := ih _ hx
      · obtain rfl | hx := mem_settlements_settle hx
        · exact .inr rfl
        · exact .inl hx
      · exact .inr hx
  exact hfold _ _ h

theorem lasts_register {id : κ} {data : α} : p.Lasts (p.register id data) where
  nextId := Nat.le_succ _
  settled := fun _ _ h => h
  kept := fun x hx _ => ⟨x, mem_register.mpr (.inl hx), rfl, rfl⟩
  fresh := fun _ hle hlt _ =>
    ⟨_, mem_register.mpr (.inr rfl), Nat.le_antisymm hle (Nat.lt_succ_iff.mp hlt)⟩

variable [DecidableEq κ] {id : κ} {entry : Entry κ α}

theorem mem_entries_stopTimeout (h : x ∈ (p.stopTimeout id).entries) :
    ∃ y ∈ p.entries, y.id = x.id ∧ y.promise = x.promise ∧ y.data = x.data := by
  unfold stopTimeout at h
  split at h
  case h_1 => exact ⟨x, h, rfl, rfl, rfl⟩
  case h_2 =>
    obtain ⟨y, hy, rfl⟩ := List.mem_map.mp h
    refine ⟨y, hy, ?_⟩
    split <;> exact ⟨rfl, rfl, rfl⟩

theorem settlements_stopTimeout : (p.stopTimeout id).settlements = p.settlements := by
  unfold stopTimeout
  split <;> rfl

theorem settlement_settleId (h : p.find? id = some entry) :
    ((p.settleId id o).settlement entry.promise).isSome := by
  rw [settleId, h]
  exact settlement_settle_self

theorem find?_register {id : κ} {data : α} (h : p.find? id = none) :
    (p.register id data).find? id =
      some { id, data, timeoutId := some p.nextId, promise := p.nextId } := by
  have hnone : p.entries.find? (fun entry => decide (entry.id = id)) = none := h
  rw [find?, register, List.find?_append, hnone]
  simp

theorem lasts_settleId (h : p.Sound) : p.Lasts (p.settleId id o) := by
  refine Lasts.of_entries settleId_nextId (fun n o' hn => ?_) fun x hx => ?_
  · unfold settleId
    split
    case h_1 => exact hn
    case h_2 => exact settlement_settle_of_some hn
  · by_cases hid : x.id = id
    · cases hfind : p.find? id with
      | none => exact absurd hid (find?_eq_none.mp hfind x hx)
      | some entry =>
        obtain ⟨hmem, heq⟩ := mem_of_find? hfind
        obtain rfl := h.eq_of_id hx hmem (hid.trans heq.symm)
        exact .inr (settlement_settleId hfind)
    · exact .inl ⟨x, mem_settleId.mpr ⟨hx, hid⟩, rfl, rfl⟩

theorem lasts_stopTimeout : p.Lasts (p.stopTimeout id) := by
  unfold stopTimeout
  split
  case h_1 => exact .refl p
  case h_2 =>
    refine Lasts.of_entries rfl (fun _ _ h => h) fun x hx =>
      .inl ⟨_, List.mem_map.mpr ⟨x, hx, rfl⟩, ?_, ?_⟩
    · split <;> rfl
    · split <;> rfl

/-! ### Sequences of operations -/

/-- Operations lead from `p` to `q`: registrations under fresh ids while there are fewer than `limit`
entries, settlements, and the end of the timers of ids in `Stops`. -/
inductive Moves (limit : ℕ) (Stops : κ → Prop) (p : Pending κ α ρ) : Pending κ α ρ → Prop
  | refl : Moves limit Stops p p
  | register {q : Pending κ α ρ} (id : κ) (data : α) : Moves limit Stops p q →
    q.entries.length < limit → q.find? id = none → Moves limit Stops p (q.register id data)
  | settleId {q : Pending κ α ρ} (id : κ) (o : ρ) : Moves limit Stops p q →
    Moves limit Stops p (q.settleId id o)
  | stopTimeout {q : Pending κ α ρ} (id : κ) : Moves limit Stops p q → Stops id →
    Moves limit Stops p (q.stopTimeout id)
  | settleAll {q : Pending κ α ρ} (o : ρ) : Moves limit Stops p q →
    Moves limit Stops p (q.settleAll o)

namespace Moves

variable {limit : ℕ} {Stops : κ → Prop}

theorem settleEach (h : Moves limit Stops p q) (outcomes : List (κ × ρ)) :
    Moves limit Stops p (q.settleEach outcomes) := by
  induction outcomes generalizing q with
  | nil => exact h
  | cons outcome outcomes ih => exact ih (h.settleId outcome.1 outcome.2)

theorem mono {Stops' : κ → Prop} (h : Moves limit Stops p q) (hstops : ∀ id, Stops id → Stops' id) :
    Moves limit Stops' p q := by
  induction h with
  | refl => exact .refl
  | register id data _ hlt hid ih => exact ih.register id data hlt hid
  | settleId id o _ ih => exact ih.settleId id o
  | stopTimeout id _ hid ih => exact ih.stopTimeout id (hstops id hid)
  | settleAll o _ ih => exact ih.settleAll o

theorem trans (h : Moves limit Stops p q) (h' : Moves limit Stops q r) :
    Moves limit Stops p r := by
  induction h' with
  | refl => exact h
  | register id data _ hlt hid ih => exact ih.register id data hlt hid
  | settleId id o _ ih => exact ih.settleId id o
  | stopTimeout id _ hid ih => exact ih.stopTimeout id hid
  | settleAll o _ ih => exact ih.settleAll o

theorem sound (h : Moves limit Stops p q) (hp : p.Sound) : q.Sound := by
  induction h with
  | refl => exact hp
  | register id data _ _ hid ih => exact ih.register hid data
  | settleId id o _ ih => exact ih.settleId
  | stopTimeout id _ _ ih => exact ih.stopTimeout
  | settleAll o _ ih => exact ih.settleAll

theorem lasts (h : Moves limit Stops p q) (hp : p.Sound) : p.Lasts q := by
  induction h with
  | refl => exact .refl p
  | register id data _ _ _ ih => exact ih.trans lasts_register
  | settleId id o h ih => exact ih.trans (lasts_settleId (h.sound hp))
  | stopTimeout id _ _ ih => exact ih.trans lasts_stopTimeout
  | settleAll o _ ih => exact ih.trans lasts_settleAll

/-- An entry keeps its data until it is settled. -/
theorem kept (h : Moves limit Stops p q) (hp : p.Sound) (hx : x ∈ p.entries)
    (hn : q.settlement x.promise = none) :
    ∃ y ∈ q.entries, y.promise = x.promise ∧ y.data = x.data := by
  induction h with
  | refl => exact ⟨x, hx, rfl, rfl⟩
  | register id data _ _ _ ih =>
    obtain ⟨y, hy, hpromise, hdata⟩ := ih hn
    exact ⟨y, mem_register.mpr (.inl hy), hpromise, hdata⟩
  | @settleId q id o h ih =>
    have hq := h.sound hp
    obtain ⟨y, hy, hpromise, hdata⟩ := ih ((lasts_settleId hq).unsettled hn)
    obtain ⟨z, hz, -, hpromise'⟩ := (lasts_settleId hq).kept y hy (hpromise ▸ hn)
    obtain rfl := hq.eq_of_promise (mem_settleId.mp hz).1 hy hpromise'
    exact ⟨z, hz, hpromise, hdata⟩
  | @stopTimeout q id _ _ ih =>
    rw [settlement, settlements_stopTimeout] at hn
    obtain ⟨y, hy, hpromise, hdata⟩ := ih hn
    unfold Pending.stopTimeout
    split
    case h_1 => exact ⟨y, hy, hpromise, hdata⟩
    case h_2 =>
      refine ⟨_, List.mem_map.mpr ⟨y, hy, rfl⟩, ?_⟩
      split
      case isTrue => exact ⟨hpromise, hdata⟩
      case isFalse => exact ⟨hpromise, hdata⟩
  | settleAll o h ih =>
    obtain ⟨y, hy, hpromise, -⟩ := ih (lasts_settleAll.unsettled hn)
    obtain ⟨z, hz, -⟩ := lasts_settleAll.kept y hy (hpromise ▸ hn)
    exact absurd hz List.not_mem_nil

theorem length_le (h : Moves limit Stops p q) (hp : p.entries.length ≤ limit) :
    q.entries.length ≤ limit := by
  induction h with
  | refl => exact hp
  | register id data _ hlt _ _ =>
    rw [Pending.register, List.length_append]
    exact hlt
  | @settleId q id o _ ih =>
    refine Nat.le_trans ?_ ih
    unfold Pending.settleId
    split
    · exact Nat.le_refl _
    · rw [settle_entries]
      exact List.length_filter_le _ _
  | @stopTimeout q id _ _ ih =>
    unfold Pending.stopTimeout
    split
    · exact ih
    · rw [List.length_map]
      exact ih
  | settleAll o _ _ => exact Nat.zero_le _

/-- A timer that does not run is one that was stopped. -/
theorem mem_or_stops (h : Moves limit Stops p q) (hy : y ∈ q.entries)
    (htimeout : y.timeoutId = none) : y ∈ p.entries ∨ Stops y.id := by
  induction h with
  | refl => exact .inl hy
  | register id data _ _ _ ih =>
    obtain hy | rfl := mem_register.mp hy
    · exact ih hy
    · cases htimeout
  | settleId id o _ ih => exact ih (mem_settleId.mp hy).1
  | @stopTimeout q id _ hstops ih =>
    unfold Pending.stopTimeout at hy
    split at hy
    · exact ih hy
    · obtain ⟨x, hx, rfl⟩ := List.mem_map.mp hy
      split at htimeout
      case isTrue hid =>
        rw [if_pos hid]
        exact .inr (hid ▸ hstops)
      case isFalse hid =>
        rw [if_neg hid] at ih ⊢
        exact ih hx
  | settleAll o _ _ => exact absurd hy List.not_mem_nil

end Moves

/-! ### From the start -/

/-- There are at most `limit` entries, with different ids. The promises that are not settled are
those of the entries. -/
structure Exact (limit : ℕ) (p : Pending κ α ρ) : Prop where
  size : p.entries.length ≤ limit
  ids : (p.entries.map Entry.id).Nodup
  unsettled_iff : ∀ n < p.nextId, p.settlement n = none ↔ ∃ x ∈ p.entries, x.promise = n

/-- The timer of the entry runs. -/
def Entry.Armed (x : Entry κ α) (p : Pending κ α ρ) : Prop :=
  ∃ t, x.timeoutId = some t ∧ (t, x.id) ∈ p.timers

omit [DecidableEq κ] in
theorem Sound.armed (h : p.Sound) (hx : x ∈ p.entries) (htimeout : x.timeoutId ≠ none) :
    x.Armed p := by
  obtain ⟨t, ht⟩ := Option.ne_none_iff_exists'.mp htimeout
  exact ⟨t, ht, (h.running x hx t ht).2⟩

/-- An entry is found under its id. -/
theorem Sound.find?_eq_some (h : p.Sound) (hx : x ∈ p.entries) : p.find? x.id = some x := by
  cases hfind : p.find? x.id with
  | none => exact absurd rfl (find?_eq_none.mp hfind x hx)
  | some y =>
    obtain ⟨hy, hid⟩ := mem_of_find? hfind
    rw [h.eq_of_id hy hx hid]

/-- A timer that runs can fire. -/
theorem isSome_fire {t : ℕ} (o : ρ) (h : (t, id) ∈ p.timers) : (p.fire o t).isSome := by
  unfold fire
  cases hlookup : p.timers.lookup t with
  | none => exact absurd rfl (bne_iff_ne.mp (List.lookup_eq_none_iff.mp hlookup _ h))
  | some id => rfl

theorem Moves.exact {limit : ℕ} {Stops : κ → Prop} (h : Moves limit Stops init p) :
    p.Exact limit where
  size := h.length_le (Nat.zero_le _)
  ids := (h.sound sound_init).ids
  unsettled_iff := by
    intro n hn
    constructor
    · exact (h.lasts sound_init).fresh n (Nat.zero_le n) hn
    · rintro ⟨x, hx, rfl⟩
      exact ((h.sound sound_init).pending x hx).2

end SettlementBus.Lib.Pending
