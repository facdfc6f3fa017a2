import SettlementBus.Network.Connection

/-! The pool of validators under late close events. -/

namespace SettlementBus

open Lib

/-- The occurrence ends that the pool holds the connection under the key. -/
def Occurrence.Ends (publicKey : Str) (connection : Connection) : Occurrence → Prop
  | .added publicKey' _ => publicKey' = publicKey
  | .removed publicKey' => publicKey' = publicKey
  | .closed connection' => connection' = connection

/-- The connection was the last one added under the key, and since then neither the key was removed
nor the connection closed. -/
def Held (log : List Occurrence) (publicKey : Str) (connection : Connection) : Prop :=
  ∃ later earlier, log = later ++ .added publicKey connection :: earlier ∧
    ∀ o ∈ later, ¬o.Ends publicKey connection

theorem held_cons {log : List Occurrence} {o : Occurrence} {k : Str} {c : Connection} :
    Held (o :: log) k c ↔ o = .added k c ∨ ¬o.Ends k c ∧ Held log k c := by
  constructor
  · rintro ⟨later, earlier, heq, hlater⟩
    cases later with
    | nil => exact .inl (List.cons.inj heq).1
    | cons o' later =>
      obtain ⟨rfl, rfl⟩ := List.cons.inj heq
      exact .inr ⟨hlater o List.mem_cons_self, later, earlier, rfl, fun o' ho' =>
        hlater o' (List.mem_cons_of_mem _ ho')⟩
  · rintro (rfl | ⟨ho, later, earlier, rfl, hlater⟩)
    · exact ⟨[], log, rfl, fun o ho => absurd ho List.not_mem_nil⟩
    · exact ⟨o :: later, earlier, rfl, List.forall_mem_cons.mpr ⟨ho, hlater⟩⟩

namespace ConnectionManager

variable {maxValidators : ℕ} {s s' : ConnectionManager} {k k' : Str} {c c' : Connection}

/-- The pool holds what it should hold. -/
def Exact (s : ConnectionManager) : Prop :=
  ∀ k c, s.getConnection k = some c ↔ Held s.log k c

/-- What every run keeps. -/
structure Sound (maxValidators : ℕ) (s : ConnectionManager) : Prop where
  connected : ∀ k entry, s.validators.get k = some entry → entry.connection.isSome
  size : s.validators.keys.length ≤ maxValidators
  handler : ∀ k c, s.getConnection k = some c → (c, k) ∈ s.handlers

/-- Under the keys that the close handlers of `c` remove, the pool holds nothing but `c`. -/
def ClosesOwn (s : ConnectionManager) (c : Connection) : Prop :=
  ∀ k ∈ s.closeKeys c, ∀ c', s.getConnection k = some c' → c' = c

/-! ### The operations -/

theorem mem_closeKeys : k ∈ s.closeKeys c ↔ (c, k) ∈ s.handlers := by
  simp only [closeKeys, List.mem_map, List.mem_filter, decide_eq_true_eq]
  constructor
  · rintro ⟨⟨c', k'⟩, ⟨h, rfl⟩, rfl⟩
    exact h
  · intro h
    exact ⟨(c, k), ⟨h, rfl⟩, rfl⟩

theorem mem_keys : k ∈ s.validators.keys ↔ s.exists_ k := by
  rw [exists_, ← AList.mem_keys, AList.lookup_isSome.symm]
  rfl

theorem connected_iff : s.connected k ↔ (s.getConnection k).isSome := by
  simp only [ConnectionManager.connected, decide_eq_true_eq, and_iff_right_iff_imp]
  intro h
  rw [exists_]
  cases hk : s.validators.get k with
  | none => rw [getConnection, hk] at h; exact h
  | some _ => rfl

theorem Sound.connected_iff (h : s.Sound maxValidators) : s.connected k ↔ s.exists_ k := by
  simp only [ConnectionManager.connected, decide_eq_true_eq, and_iff_left_iff_imp]
  intro hk
  obtain ⟨entry, hentry⟩ := Option.isSome_iff_exists.mp hk
  rw [getConnection, hentry]
  exact h.connected k entry hentry

theorem Sound.connectionCount_eq (h : s.Sound maxValidators) :
    s.connectionCount = s.validators.keys.length := by
  rw [connectionCount, connectedValidators, List.filter_eq_self.mpr]
  exact fun k hk => h.connected_iff.mpr (mem_keys.mp hk)

theorem sound_init : init.Sound maxValidators where
  connected := by simp [init]
  size := Nat.zero_le _
  handler := by simp [init, getConnection]

theorem Sound.onClose (h : s.Sound maxValidators) : (s.onClose c k).Sound maxValidators where
  connected := h.connected
  size := h.size
  handler := fun k' c' hk => List.mem_append_left _ (h.handler k' c' hk)

theorem Sound.record (h : s.Sound maxValidators) (o : Occurrence) :
    (s.record o).Sound maxValidators := ⟨h.connected, h.size, h.handler⟩

/-- A validator is added where there is none under its key and the pool is not full. -/
theorem Sound.addValidator_cases (h : s.Sound maxValidators) (k : Str) (c : Connection) :
    (s.addValidator maxValidators k c = (false, s)) ∨
      (s.validators.get k = none ∧ s.validators.keys.length < maxValidators ∧
        s.addValidator maxValidators k c = (true, { s with
          validators := s.validators.put k { connection := some c, sent := 0 }
          handlers := s.handlers ++ [(c, k)] })) := by
  rw [addValidator]
  split
  case isTrue => exact .inl rfl
  case isFalse hmax =>
    rw [maxConnectionsReached, h.connectionCount_eq, decide_eq_true_eq, Nat.not_le] at hmax
    split
    case isTrue hexists =>
      refine .inr ⟨by simpa [exists_] using hexists, hmax, ?_⟩
      rw [append, if_neg hexists]
      rfl
    case isFalse hexists =>
      rw [if_neg]
      · exact .inl rfl
      · rw [not_not] at hexists ⊢
        exact h.connected_iff.mpr hexists

theorem getConnection_remove : (s.remove k).getConnection k' =
    if k' = k then none else s.getConnection k' := by
  rw [remove]
  by_cases heq : k' = k
  · subst heq
    rw [if_pos rfl]
    cases hk : s.validators.get k' with
    | none => rw [getConnection, hk, Option.bind_none]
    | some entry => rw [getConnection, Store.get_erase, if_pos rfl, Option.bind_none]
  · rw [if_neg heq]
    cases s.validators.get k with
    | none => rfl
    | some entry => rw [getConnection, Store.get_erase, if_neg heq]; rfl

@[simp] theorem handlers_remove : (s.remove k).handlers = s.handlers := by
  rw [remove]
  split <;> rfl

@[simp] theorem log_remove : (s.remove k).log = s.log := by
  rw [remove]
  split <;> rfl

theorem mem_ended_remove :
    c ∈ (s.remove k).ended ↔ c ∈ s.ended ∨ s.getConnection k = some c := by
  rw [remove, getConnection]
  cases s.validators.get k with
  | none => simp
  | some entry => simp [or_comm]

theorem Sound.remove (h : s.Sound maxValidators) (k : Str) : (s.remove k).Sound maxValidators where
  connected := by
    intro k' entry hk'
    rw [ConnectionManager.remove] at hk'
    cases hk : s.validators.get k with
    | none => exact h.connected k' entry (by rwa [hk] at hk')
    | some entry' =>
      rw [hk] at hk'
      rw [Store.get_erase] at hk'
      split at hk'
      case isTrue => cases hk'
      case isFalse => exact h.connected k' entry hk'
  size := by
    rw [ConnectionManager.remove]
    cases s.validators.get k with
    | none => exact h.size
    | some entry =>
      exact (Store.length_keys_erase_le _ _).trans h.size
  handler := by
    intro k' c hk'
    rw [getConnection_remove] at hk'
    rw [handlers_remove]
    split at hk'
    case isTrue => cases hk'
    case isFalse => exact h.handler k' c hk'

section Close

variable {keys : List Str}

theorem Sound.foldl_remove (h : s.Sound maxValidators) (keys : List Str) :
    (keys.foldl ConnectionManager.remove s).Sound maxValidators := by
  induction keys generalizing s with
  | nil => exact h
  | cons k keys ih => exact ih (h.remove k)

theorem log_foldl_remove : (keys.foldl remove s).log = s.log := by
  induction keys generalizing s with
  | nil => rfl
  | cons k keys ih => exact ih.trans log_remove

theorem getConnection_foldl_remove : (keys.foldl remove s).getConnection k =
    if k ∈ keys then none else s.getConnection k := by
  induction keys generalizing s with
  | nil => simp
  | cons k' keys ih =>
    rw [List.foldl_cons, ih, getConnection_remove]
    by_cases heq : k = k' <;> by_cases hmem : k ∈ keys <;> simp [heq, hmem]

theorem mem_ended_foldl_remove : c ∈ (keys.foldl remove s).ended ↔
    c ∈ s.ended ∨ ∃ k ∈ keys, s.getConnection k = some c := by
  induction keys generalizing s with
  | nil => simp
  | cons k keys ih =>
    rw [List.foldl_cons, ih, mem_ended_remove]
    constructor
    · rintro ((h | h) | ⟨k', hk', h⟩)
      · exact .inl h
      · exact .inr ⟨k, List.mem_cons_self, h⟩
      · rw [getConnection_remove] at h
        split at h
        case isTrue => cases h
        case isFalse => exact .inr ⟨k', List.mem_cons_of_mem _ hk', h⟩
    · rintro (h | ⟨k', hk', h⟩)
      · exact .inl (.inl h)
      · by_cases heq : k' = k
        · exact .inl (.inr (heq ▸ h))
        · refine .inr ⟨k', (List.mem_cons.mp hk').resolve_left heq, ?_⟩
          rwa [getConnection_remove, if_neg heq]

end Close

/-! ### Steps and runs -/

/-- The step leaves the pool exact, and a close event ends no other connection. -/
def Keeps (s : ConnectionManager) (e : ConnectionEvent) (s' : ConnectionManager) : Prop :=
  s'.Exact ∧ ∀ c, e = .close c → ∀ c' ∈ s'.ended, c' ∈ s.ended ∨ c' = c

/-- A connection that closes closes its own. -/
def Timely (s : ConnectionManager) (e : ConnectionEvent) : Prop := ∀ c, e = .close c → s.ClosesOwn c

theorem exact_init : init.Exact := by
  intro k c
  refine iff_of_false (by simp [init, getConnection]) ?_
  rintro ⟨later, earlier, heq, -⟩
  exact List.append_ne_nil_of_right_ne_nil later (List.cons_ne_nil _ _) heq.symm

theorem Sound.step {e : ConnectionEvent} (h : s.Sound maxValidators)
    (hs : s.step maxValidators e = some s') : s'.Sound maxValidators := by
  cases e with
  | connection c =>
    cases hs
    exact h.onClose
  | addValidator k c =>
    rw [ConnectionManager.step] at hs
    obtain heq | ⟨hnone, hsize, heq⟩ := h.addValidator_cases k c
    · rw [heq] at hs
      cases hs
      exact h
    · rw [heq] at hs
      cases hs
      refine Sound.record ⟨?_, ?_, ?_⟩ _
      · intro k' entry hk'
        obtain ⟨-, rfl⟩ | ⟨-, hk'⟩ := Store.get_put_eq_some.mp hk'
        · rfl
        · exact h.connected k' entry hk'
      · exact (Store.length_keys_put_of_none hnone _).trans_le hsize
      · intro k' c' hk'
        rw [ConnectionManager.getConnection, Store.get_put] at hk'
        split at hk'
        case isTrue heq =>
          cases hk'
          exact List.mem_append_right _ (heq ▸ List.mem_cons_self)
        case isFalse => exact List.mem_append_left _ (h.handler k' c' hk')
  | remove k =>
    cases hs
    exact (h.remove k).record _
  | healthCheckFailed k =>
    cases hs
    exact (h.remove k).record _
  | close c =>
    rw [ConnectionManager.step] at hs
    split at hs
    case isTrue => cases hs
    case isFalse =>
      cases hs
      have h' := h.foldl_remove (s.closeKeys c)
      exact ⟨h'.connected, h'.size, h'.handler⟩

theorem exact_remove (h : s.Exact) : ((s.remove k).record (.removed k)).Exact := by
  intro k' c
  show (s.remove k).getConnection k' = some c ↔ Held (.removed k :: (s.remove k).log) k' c
  rw [getConnection_remove, log_remove, held_cons, ← h]
  by_cases heq : k' = k
  · simp [heq, Occurrence.Ends]
  · simp [heq, Ne.symm heq, Occurrence.Ends]

theorem exact_added (h : s.Exact) (hnone : s.validators.get k = none) :
    ({ s with
        validators := s.validators.put k { connection := some c, sent := 0 }
        handlers := s.handlers ++ [(c, k)] }.record (.added k c)).Exact := by
  intro k' c'
  show ((s.validators.put k { connection := some c, sent := 0 }).get k').bind
    ValidatorEntry.connection = some c' ↔ Held (.added k c :: s.log) k' c'
  rw [Store.get_put, held_cons, ← h]
  by_cases heq : k' = k
  · subst heq
    simp [getConnection, hnone, Occurrence.Ends]
  · simp [heq, Ne.symm heq, Occurrence.Ends, getConnection]

/-- A close event keeps the pool exact exactly when the connection closes its own. -/
theorem Sound.exact_close_iff (h : s.Sound maxValidators) (hex : s.Exact) :
    ({ (s.closeKeys c).foldl ConnectionManager.remove s with
        closed := c :: ((s.closeKeys c).foldl ConnectionManager.remove s).closed }.record
          (.closed c)).Exact ↔ s.ClosesOwn c := by
  have hiff : ∀ k c', ((s.closeKeys c).foldl ConnectionManager.remove s).getConnection k = some c' ↔
      k ∉ s.closeKeys c ∧ s.getConnection k = some c' := by
    intro k c'
    rw [getConnection_foldl_remove]
    split <;> simp [*]
  have hheld : ∀ k c', Held (.closed c :: ((s.closeKeys c).foldl ConnectionManager.remove s).log) k c' ↔
      c ≠ c' ∧ s.getConnection k = some c' := by
    intro k c'
    rw [held_cons, log_foldl_remove, ← hex]
    simp [Occurrence.Ends]
  constructor
  · intro hex' k hk c' hget
    by_contra hne
    have hboth := (hheld k c').mpr ⟨Ne.symm hne, hget⟩
    exact ((hiff k c').mp ((hex' k c').mpr hboth)).1 hk
  · intro hown k c'
    refine (hiff k c').trans (Iff.trans ?_ (hheld k c').symm)
    refine and_congr_left fun hget => ⟨fun hk hne => ?_, fun hne hk => ?_⟩
    · exact hk (mem_closeKeys.mpr (h.handler k c (hne ▸ hget)))
    · exact hne (hown k hk c' hget).symm

theorem Sound.keeps_iff {e : ConnectionEvent} (h : s.Sound maxValidators) (hex : s.Exact)
    (hs : s.step maxValidators e = some s') : s.Keeps e s' ↔ s.Timely e := by
  cases e with
  | connection c =>
    cases hs
    exact iff_of_true ⟨hex, nofun⟩ nofun
  | addValidator k c =>
    refine iff_of_true ⟨?_, nofun⟩ nofun
    rw [ConnectionManager.step] at hs
    obtain heq | ⟨hnone, -, heq⟩ := h.addValidator_cases k c
    · rw [heq] at hs
      cases hs
      exact hex
    · rw [heq] at hs
      cases hs
      exact exact_added hex hnone
  | remove k =>
    cases hs
    exact iff_of_true ⟨exact_remove hex, nofun⟩ nofun
  | healthCheckFailed k =>
    cases hs
    exact iff_of_true ⟨exact_remove hex, nofun⟩ nofun
  | close c =>
    rw [ConnectionManager.step] at hs
    split at hs
    case isTrue => cases hs
    case isFalse =>
      cases hs
      constructor
      · rintro ⟨hex', -⟩ _ ⟨⟩
        exact (h.exact_close_iff hex).mp hex'
      · intro hown
        have hc := hown c rfl
        refine ⟨(h.exact_close_iff hex).mpr hc, ?_⟩
        rintro _ ⟨⟩ c' hc'
        refine (mem_ended_foldl_remove.mp hc').imp_right ?_
        rintro ⟨k, hk, hget⟩
        exact hc k hk c' hget

/-- In every run the pool is bounded and holds one connection a key, and it holds after every step
exactly what it should hold when every connection that closes closes its own. -/
theorem pool_exact_iff (maxValidators : ℕ) :
    (∀ es s, Machine.run (ConnectionManager.step maxValidators) .init es = some s →
        s.connectionCount ≤ maxValidators ∧ s.validators.keys.Nodup) ∧
      ∀ es, Machine.Along (ConnectionManager.step maxValidators) Keeps .init es ↔
        Machine.Along (ConnectionManager.step maxValidators) (fun s e _ => s.Timely e) .init es := by
  constructor
  · intro es s hrun
    have h : s.Sound maxValidators := Machine.run_invariant (P := fun _ _ _ => True)
      (fun _ _ _ h hs _ => h.step hs) sound_init Machine.along_true hrun
    exact ⟨h.connectionCount_eq.trans_le h.size, s.validators.keys_nodup⟩
  · intro es
    refine Machine.along_iff (I := fun s => s.Sound maxValidators ∧ s.Exact) ?_ ?_
      ⟨sound_init, exact_init⟩
    · rintro s e s' ⟨h, hex⟩ hs htimely
      exact ⟨h.step hs, ((h.keeps_iff hex hs).mpr htimely).1⟩
    · rintro s e s' ⟨h, hex⟩ hs
      exact h.keeps_iff hex hs

end ConnectionManager

namespace Sample

def peerKey : Str := toHex (List.replicate 32 1)

/-- Two connections of one peer, one after the other. -/
def firstConnection : Connection := { id := 1, remotePublicKey := peerKey }

def secondConnection : Connection := { id := 2, remotePublicKey := peerKey }

/-- The peer is removed and connects again before its first connection has closed. -/
def lateClose : List ConnectionEvent :=
  [.addValidator peerKey firstConnection, .connection firstConnection, .remove peerKey,
    .addValidator peerKey secondConnection, .connection secondConnection, .close firstConnection]

theorem not_keeps_lateClose :
    ¬Machine.Along (ConnectionManager.step 8) ConnectionManager.Keeps .init lateClose ∧
      (Machine.run (ConnectionManager.step 8) .init lateClose).map (fun s =>
        (s.getConnection peerKey, decide (secondConnection ∈ s.ended))) = some (none, true) := by
  refine ⟨fun h => ?_, by decide +kernel⟩
  obtain ⟨-, h⟩ := h _ rfl
  obtain ⟨-, h⟩ := h _ rfl
  obtain ⟨-, h⟩ := h _ rfl
  obtain ⟨-, h⟩ := h _ rfl
  obtain ⟨-, h⟩ := h _ rfl
  obtain ⟨⟨hexact, -⟩, -⟩ := h _ rfl
  have hheld := (hexact peerKey secondConnection).mpr
    ⟨[.closed firstConnection], _, rfl, by simp [Occurrence.Ends, firstConnection, secondConnection]⟩
  exact absurd hheld (by decide +kernel)

end Sample

end SettlementBus
