import SettlementBus.Lib.Trace
import SettlementBus.Network.Lifecycle
import SettlementBus.Properties.Connection
import SettlementBus.Properties.Exchange

/-! The attempts to connect to a peer: each has a timer, and ends once. -/

namespace SettlementBus

open Lib

namespace Network

variable {env : Env} {wallet : Wallet} {maxValidators maxPendingConnections maxPendingRequests : ℕ}
  {schema : NetworkMessage → Bool} {s s' : Network} {e : NetworkEvent} {k : Str} {c : Connection}

/-! ### Attempts -/

/-- The running timers are those of the pending attempts, and every attempt has a running timer or
has ended once. -/
structure Attempts (maxPendingConnections : ℕ) (s : Network) : Prop where
  size : s.pendingConnections.keys.length ≤ maxPendingConnections
  timer_iff : ∀ n k, (n, k) ∈ s.timeouts ↔
    ∃ type, s.pendingConnections.get k = some { type, timeoutId := n }
  once : (s.timeouts.map Prod.fst ++ s.ends.map Prod.fst).Perm (List.range s.nextTimeoutId)

/-- What the attempts have to do with. -/
def attempts (s : Network) :
    Store Str PendingConnection × List (ℕ × Str) × ℕ × List (ℕ × AttemptEnd) :=
  (s.pendingConnections, s.timeouts, s.nextTimeoutId, s.ends)

theorem Attempts.congr (h : s.Attempts maxPendingConnections) (heq : s'.attempts = s.attempts) :
    s'.Attempts maxPendingConnections := by
  simp only [attempts, Prod.mk.injEq] at heq
  obtain ⟨hpending, htimeouts, hnext, hends⟩ := heq
  exact ⟨hpending ▸ h.size, hpending ▸ htimeouts ▸ h.timer_iff, htimeouts ▸ hends ▸ hnext ▸ h.once⟩

theorem attempts_init : init.Attempts maxPendingConnections where
  size := Nat.zero_le _
  timer_iff := fun n k => iff_of_false List.not_mem_nil fun ⟨type, h⟩ => by
    rw [init, Store.get_empty] at h
    cases h
  once := List.Perm.refl _

theorem Attempts.nodup (h : s.Attempts maxPendingConnections) : (s.timeouts.map Prod.fst).Nodup :=
  (h.once.nodup_iff.mpr List.nodup_range).of_append_left

theorem Attempts.begin (h : s.Attempts maxPendingConnections) {type : Option Str}
    (hnone : s.pendingConnections.get k = none)
    (hlt : s.pendingConnections.keys.length < maxPendingConnections) :
    (s.beginAttempt k type).Attempts maxPendingConnections where
  size := (Store.length_keys_put_of_none hnone _).trans_le hlt
  timer_iff := by
    intro n k'
    rw [beginAttempt, List.mem_cons, h.timer_iff, Store.get_put]
    by_cases heq : k' = k
    · subst heq
      simp [hnone, eq_comm]
    · simp [heq]
  once := by
    rw [beginAttempt, List.range_succ, List.map_cons, List.cons_append]
    exact (h.once.cons _).trans (List.perm_append_singleton _ _).symm

theorem Attempts.finish (h : s.Attempts maxPendingConnections) {entry : PendingConnection}
    (hentry : s.pendingConnections.get k = some entry) (last : AttemptEnd) :
    (s.endAttempt k entry.timeoutId last).Attempts maxPendingConnections where
  size := (Store.length_keys_erase_le _ _).trans h.size
  timer_iff := by
    intro n k'
    have hmem : (entry.timeoutId, k) ∈ s.timeouts := (h.timer_iff _ _).mpr ⟨entry.type, hentry⟩
    rw [endAttempt, List.mem_filter, h.timer_iff, Store.get_erase, decide_eq_true_eq]
    by_cases heq : k' = k
    · subst heq
      rw [if_pos rfl, hentry]
      simp only [Option.some.injEq, reduceCtorEq, exists_false, iff_false, not_and]
      rintro ⟨type, rfl⟩
      exact not_not_intro rfl
    · rw [if_neg heq, and_iff_left_iff_imp]
      rintro ⟨type, hk'⟩ rfl
      have hmem' : (entry.timeoutId, k') ∈ s.timeouts := (h.timer_iff _ _).mpr ⟨type, hk'⟩
      exact heq (congrArg Prod.snd (List.inj_on_of_nodup_map h.nodup hmem' hmem rfl))
  once := by
    have hmem : entry.timeoutId ∈ s.timeouts.map Prod.fst :=
      List.mem_map.mpr ⟨_, (h.timer_iff _ _).mpr ⟨entry.type, hentry⟩, rfl⟩
    have herase : (s.timeouts.filter fun timer => timer.1 ≠ entry.timeoutId).map Prod.fst =
        (s.timeouts.map Prod.fst).erase entry.timeoutId := by
      rw [h.nodup.erase_eq_filter, List.filter_map]
      refine congrArg _ (List.filter_congr fun timer _ => ?_)
      exact Bool.eq_iff_iff.mpr (by simp)
    rw [endAttempt, herase, List.map_cons]
    exact List.perm_middle.trans ((List.perm_cons_erase hmem).symm.append_right _ |>.trans h.once)

/-- What a step does to the attempts. -/
structure Attempting (maxPendingConnections : ℕ) (s s' : Network) : Prop where
  attempts : s.Attempts maxPendingConnections → s'.Attempts maxPendingConnections
  next : s.nextTimeoutId ≤ s'.nextTimeoutId
  ends : ∀ x ∈ s.ends, x ∈ s'.ends

theorem attempting_of_eq (h : s'.attempts = s.attempts) :
    Attempting maxPendingConnections s s' := by
  have heq := h
  simp only [Network.attempts, Prod.mk.injEq] at heq
  exact ⟨fun hs => hs.congr h, heq.2.2.1.ge, fun _ hx => heq.2.2.2 ▸ hx⟩

theorem Attempting.trans {t : Network} (h : Attempting maxPendingConnections s t)
    (h' : Attempting maxPendingConnections t s') : Attempting maxPendingConnections s s' :=
  ⟨fun hs => h'.attempts (h.attempts hs), h.next.trans h'.next, fun x hx => h'.ends x (h.ends x hx)⟩

theorem attempting_begin {type : Option Str} (hnone : s.pendingConnections.get k = none)
    (hlt : s.pendingConnections.keys.length < maxPendingConnections) :
    Attempting maxPendingConnections s (s.beginAttempt k type) :=
  ⟨fun hs => hs.begin hnone hlt, Nat.le_succ _, fun _ => id⟩

theorem attempting_end {entry : PendingConnection}
    (hentry : s.pendingConnections.get k = some entry) (last : AttemptEnd) :
    Attempting maxPendingConnections s (s.endAttempt k entry.timeoutId last) :=
  ⟨fun hs => hs.finish hentry last, le_rfl, fun _ => List.mem_cons_of_mem _⟩

/-! #### The operations -/

@[simp] theorem attempts_await (task : Task) : (s.await task).attempts = s.attempts := rfl

@[simp] theorem attempts_drop (place : ℕ) : (s.drop place).attempts = s.attempts := rfl

@[simp] theorem attempts_setPreferredProtocol (p : Protocol) :
    (s.setPreferredProtocol c p).attempts = s.attempts := by
  unfold setPreferredProtocol
  split <;> rfl

@[simp] theorem attempts_send (message : NetworkMessage) (sent : Bool) :
    (s.send c maxPendingRequests message sent).2.attempts = s.attempts := by
  unfold send
  split <;> rfl

@[simp] theorem attempts_sendHealthCheck : (s.sendHealthCheck c k).attempts = s.attempts := by
  unfold sendHealthCheck
  split <;> rfl

@[simp] theorem attempts_stopHealthCheck : (s.stopHealthCheck k).attempts = s.attempts := rfl

@[simp] theorem attempts_remove : (s.remove k).attempts = s.attempts := rfl

@[simp] theorem attempts_healthCheckHandler : (s.healthCheckHandler k).attempts = s.attempts := by
  unfold healthCheckHandler
  split
  case isTrue => rfl
  case isFalse =>
    split
    case h_1 => rfl
    case h_2 => exact attempts_sendHealthCheck

@[simp] theorem attempts_finishHealthCheck (resultCode : ℕ) :
    (s.finishHealthCheck k resultCode).attempts = s.attempts := by
  unfold finishHealthCheck
  split <;> rfl

@[simp] theorem attempts_addReady : (s.addReady maxValidators k c).attempts = s.attempts := by
  unfold addReady watch
  split <;> rfl

theorem attempts_validatorReady : (s.validatorReady maxValidators k c).attempts = s.attempts := by
  unfold validatorReady
  split
  case isTrue => exact attempts_addReady
  case isFalse => rfl

@[simp] theorem attempts_listen : (s.listen c).attempts = s.attempts := rfl

@[simp] theorem attempts_rejectPendingRequestsForPeer (error : RequestError) :
    (s.rejectPendingRequestsForPeer k error).attempts = s.attempts := rfl

@[simp] theorem attempts_foldl_remove (keys : List Str) :
    (keys.foldl remove s).attempts = s.attempts := by
  induction keys generalizing s with
  | nil => rfl
  | cons k keys ih => exact ih.trans attempts_remove

@[simp] theorem attempts_close : (s.close c).attempts = s.attempts := by
  have hreject : (if c ∈ s.listening then
      s.rejectPendingRequestsForPeer c.remotePublicKey .connectionClosed else s).attempts =
        s.attempts := by
    split <;> rfl
  exact (attempts_foldl_remove _).trans hreject

theorem attempting_connectionReady {type : Option Str} :
    Attempting maxPendingConnections s (s.connectionReady maxValidators k type c) := by
  unfold connectionReady
  split
  case h_1 => exact attempting_of_eq rfl
  case h_2 entry hentry =>
    have hend : Attempting maxPendingConnections s
        (s.endAttempt k entry.timeoutId (.ready c)) := attempting_end hentry _
    dsimp only
    split
    case isTrue => exact hend.trans (attempting_of_eq attempts_validatorReady)
    case isFalse => exact hend

theorem attempting_finalizeConnection {type : Option Str} :
    Attempting maxPendingConnections s (s.finalizeConnection maxValidators k type c) := by
  unfold finalizeConnection
  split
  case isTrue => exact attempting_connectionReady
  case isFalse => exact attempting_of_eq rfl

theorem attempting_tryConnect {type : Option Str} {found : Option Connection} :
    Attempting maxPendingConnections s
      (s.tryConnect maxValidators maxPendingConnections k type found).2 := by
  unfold tryConnect
  split
  case isTrue => exact attempting_of_eq rfl
  case isFalse hfree =>
    rw [not_or, Option.not_isSome_iff_eq_none, Nat.not_le] at hfree
    have hbegin : Attempting maxPendingConnections s (s.beginAttempt k type) :=
      attempting_begin hfree.1 hfree.2
    cases found with
    | none => exact hbegin
    | some connection =>
      dsimp only
      split
      case isTrue => exact hbegin.trans attempting_finalizeConnection
      case isFalse => exact hbegin

theorem attempting_handleConnection :
    Attempting maxPendingConnections s (s.handleConnection maxValidators c) := by
  unfold handleConnection
  split
  case h_1 => exact attempting_finalizeConnection.trans (attempting_of_eq (attempts_await _))
  case h_2 => exact attempting_of_eq attempts_listen

/-- The timer that fires is the one of the attempt. -/
theorem Attempts.timeout_eq (h : s.Attempts maxPendingConnections) {n : ℕ}
    (hs : s.timeout n = some s') :
    ∃ k entry, s.pendingConnections.get k = some entry ∧ entry.timeoutId = n ∧
      s' = s.endAttempt k entry.timeoutId .timeout := by
  simp only [timeout, Option.bind_eq_bind, Option.bind_eq_some_iff] at hs
  obtain ⟨k, hk, hs⟩ := hs
  obtain ⟨l₁, l₂, heq, -⟩ := List.lookup_eq_some_iff.mp hk
  have hmem : (n, k) ∈ s.timeouts := heq ▸ List.mem_append_right _ List.mem_cons_self
  obtain ⟨type, hentry⟩ := (h.timer_iff n k).mp hmem
  rw [hentry] at hs
  cases hs
  exact ⟨k, _, hentry, rfl, rfl⟩

theorem attempting_goOnBuilt {now : ℕ} {nonce : Buffer} {id : Str} {sent : Bool} {task : Task}
    (hs : s.goOnBuilt env wallet maxPendingRequests now nonce id sent task = some s') :
    Attempting maxPendingConnections s s' := by
  unfold goOnBuilt at hs
  split at hs
  case h_1 =>
    split at hs
    case h_1 =>
      cases hs
      exact attempting_of_eq (attempts_setPreferredProtocol _)
    case h_2 =>
      cases hs
      exact attempting_of_eq (attempts_send _ _)
  case h_2 =>
    split at hs
    case h_1 =>
      cases hs
      exact attempting_of_eq (attempts_await _)
    case h_2 =>
      cases hs
      exact attempting_of_eq (attempts_send _ _)
  case h_3 => cases hs

theorem attempting_goOn {task : Task} (hs : s.goOn maxValidators task = some s') :
    Attempting maxPendingConnections s s' := by
  cases task with
  | setup c =>
    cases hs
    exact attempting_handleConnection
  | finalized c =>
    cases hs
    exact attempting_of_eq attempts_listen
  | probe k c => cases hs
  | probeSent k c reply =>
    simp only [goOn, Option.bind_eq_bind, Option.bind_eq_some_iff] at hs
    obtain ⟨outcome, -, hs⟩ := hs
    cases hs
    split
    case isTrue => exact attempting_of_eq (attempts_setPreferredProtocol _)
    case isFalse => exact attempting_of_eq (attempts_setPreferredProtocol _)
  | probed k c =>
    cases hs
    exact attempting_of_eq attempts_addReady
  | check k c => cases hs
  | checkSent k reply =>
    simp only [goOn, Option.bind_eq_bind, Option.bind_eq_some_iff] at hs
    obtain ⟨outcome, -, hs⟩ := hs
    cases hs
    exact attempting_of_eq (attempts_await _)
  | checked k resultCode =>
    cases hs
    exact attempting_of_eq (attempts_finishHealthCheck _)

/-! #### Steps and runs -/

theorem Attempts.attempting (h : s.Attempts maxPendingConnections)
    (hs : step env wallet maxValidators maxPendingConnections maxPendingRequests schema s e =
      some s') : Attempting maxPendingConnections s s' := by
  have hfollows := follows_of_step hs
  cases e with
  | tryConnect k type found =>
    cases hfollows
    exact attempting_tryConnect
  | timeout n =>
    obtain ⟨k, entry, hentry, -, rfl⟩ := h.timeout_eq hfollows
    exact attempting_end hentry .timeout
  | connection c =>
    cases hfollows
    exact attempting_of_eq rfl
  | received c p =>
    cases hfollows
    exact attempting_of_eq (attempts_setPreferredProtocol _)
  | built place now nonce id sent =>
    obtain ⟨task, hs⟩ := hfollows
    exact (attempting_of_eq (attempts_drop place)).trans (attempting_goOnBuilt hs)
  | resume place =>
    obtain ⟨task, -, hs⟩ := hfollows
    exact (attempting_of_eq (attempts_drop place)).trans (attempting_goOn hs)
  | healthCheck k =>
    cases hfollows
    exact attempting_of_eq attempts_healthCheckHandler
  | remove k =>
    cases hfollows
    exact attempting_of_eq attempts_remove
  | requests event =>
    obtain ⟨requests, -, rfl⟩ := hfollows
    exact attempting_of_eq rfl
  | close c =>
    cases hfollows
    exact attempting_of_eq attempts_close
  | error c =>
    cases hfollows
    exact attempting_of_eq (attempts_rejectPendingRequestsForPeer _)

/-- An attempt that has begun. -/
def Begins (maxPendingConnections n : ℕ) (s : Network) : Prop :=
  s.Attempts maxPendingConnections ∧ n < s.nextTimeoutId

variable {n : ℕ}

theorem Attempts.mem_ends_iff (h : s.Attempts maxPendingConnections) (hn : n < s.nextTimeoutId) :
    n ∈ s.ends.map Prod.fst ↔ n ∉ s.timeouts.map Prod.fst := by
  have hmem := h.once.mem_iff.mpr (List.mem_range.mpr hn)
  have hnodup := h.once.nodup_iff.mpr List.nodup_range
  constructor
  · exact fun hends htimeouts => (List.disjoint_of_nodup_append hnodup) htimeouts hends
  · exact (List.mem_append.mp hmem).resolve_left

/-- The end of an attempt is its only one. -/
theorem Attempts.end_unique (h : s.Attempts maxPendingConnections) {last last' : AttemptEnd}
    (hmem : (n, last) ∈ s.ends) (hmem' : (n, last') ∈ s.ends) : last = last' :=
  congrArg Prod.snd (List.inj_on_of_nodup_map
    (h.once.nodup_iff.mpr List.nodup_range).of_append_right hmem hmem' rfl)

/-- Whether the attempt is pending. -/
def rank (n : ℕ) (s : Network) : ℕ := if n ∈ s.timeouts.map Prod.fst then 1 else 0

theorem lowers_rank : Machine.Lowers
    (step env wallet maxValidators maxPendingConnections maxPendingRequests schema)
    (Begins maxPendingConnections n) (fun _ e => e = .timeout n) (rank n) where
  invariant := fun s e s' h hs =>
    have hattempting := h.1.attempting hs
    ⟨hattempting.attempts h.1, h.2.trans_le hattempting.next⟩
  le := by
    rintro s e s' ⟨h, hn⟩ hs
    have hattempting := h.attempting hs
    have h' := hattempting.attempts h
    by_cases hmem : n ∈ s.timeouts.map Prod.fst
    · rw [rank, rank, if_pos hmem]
      split <;> omega
    · -- It has ended before.
      obtain ⟨x, hx, rfl⟩ := List.mem_map.mp ((h.mem_ends_iff hn).mpr hmem)
      have hmem' := (h'.mem_ends_iff (hn.trans_le hattempting.next)).mp
        (List.mem_map.mpr ⟨x, hattempting.ends x hx, rfl⟩)
      rw [rank, if_neg hmem']
      exact Nat.zero_le _
  lt := by
    rintro s e s' ⟨h, hn⟩ hs rfl
    obtain ⟨k, entry, hentry, rfl, rfl⟩ := h.timeout_eq hs
    have hmem : entry.timeoutId ∈ s.timeouts.map Prod.fst :=
      List.mem_map.mpr ⟨_, (h.timer_iff _ k).mpr ⟨entry.type, hentry⟩, rfl⟩
    rw [rank, rank, if_pos hmem, if_neg]
    · exact Nat.zero_lt_one
    · simp [endAttempt]
  enabled := by
    rintro s ⟨h, -⟩ hrank
    have hmem : n ∈ s.timeouts.map Prod.fst := by
      by_contra hnot
      exact hrank (if_neg hnot)
    obtain ⟨⟨m, k⟩, htimer, rfl⟩ := List.mem_map.mp hmem
    refine ⟨_, rfl, ?_⟩
    rw [step, timeout]
    cases hlookup : s.timeouts.lookup m with
    | none =>
      have hne := List.lookup_eq_none_iff.mp hlookup (m, k) htimer
      exact absurd rfl (bne_iff_ne.mp hne)
    | some k' =>
      simp only [Option.bind_eq_bind, Option.bind_some]
      split <;> rfl

theorem attempts_run (es : List NetworkEvent)
    (hrun : Machine.run
      (step env wallet maxValidators maxPendingConnections maxPendingRequests schema) .init es =
        some s) : s.Attempts maxPendingConnections :=
  Machine.run_invariant (P := fun _ _ _ => True) (fun _ _ _ h hs _ => (h.attempting hs).attempts h)
    attempts_init Machine.along_true hrun

/-- In a run that starts with nothing, an attempt whose timer fires unless it is cleared ends, and
what it ends with is what it has ended with from then on. -/
theorem attempt_ends (t : Machine.Trace
      (step env wallet maxValidators maxPendingConnections maxPendingRequests schema))
    (hinit : t.state 0 = .init) {i : ℕ} (hbegun : n < (t.state i).nextTimeoutId)
    (hfair : t.Fair fun _ e => e = .timeout n) :
    ∃ m ≥ i, ∃ last, ∀ j ≥ m, ∀ last', (n, last') ∈ (t.state j).ends ↔ last' = last := by
  have hattempts : ∀ j, (t.state j).Attempts maxPendingConnections := fun j =>
    Machine.Trace.invariant (I := fun s : Network => s.Attempts maxPendingConnections)
      (fun _ _ _ h hs => (h.attempting hs).attempts h) (Nat.zero_le j) (hinit ▸ attempts_init)
  obtain ⟨m, hm, hrank⟩ := lowers_rank.exists_eq_zero hfair ⟨hattempts i, hbegun⟩
  have hbegun' : n < (t.state m).nextTimeoutId :=
    (Machine.Trace.invariant lowers_rank.invariant hm ⟨hattempts i, hbegun⟩).2
  have hnot : n ∉ (t.state m).timeouts.map Prod.fst := fun hmem => by
    rw [rank, if_pos hmem] at hrank
    cases hrank
  obtain ⟨⟨n, last⟩, hmem, rfl⟩ := List.mem_map.mp
    (((hattempts m).mem_ends_iff hbegun').mpr hnot)
  have hkept : ∀ j ≥ m, (n, last) ∈ (t.state j).ends := by
    intro j hj
    induction j, hj using Nat.le_induction with
    | base => exact hmem
    | succ j _ ih => exact ((hattempts j).attempting (t.next j)).ends _ ih
  refine ⟨m, hm, last, fun j hj last' => ⟨fun hmem' => ?_, ?_⟩⟩
  · exact (hattempts j).end_unique hmem' (hkept j hj)
  · rintro rfl
    exact hkept j hj

end Network

namespace Sample

/-- An attempt, one that is ignored and one for another peer. The first one times out. -/
def unanswered : List NetworkEvent :=
  [.tryConnect peerKey (some "validator".toList) none, .tryConnect peerKey none none,
    .tryConnect (toHex aliceKey) (some "validator".toList) none, .timeout 0]

theorem unanswered_facts :
    (Machine.run (Network.step messaging aliceNode 8 50 100 fun _ => true) .init unanswered).map
      (fun s => (s.timeouts, s.ends, s.nextTimeoutId)) =
        some ([(1, toHex aliceKey)], [(0, .timeout)], 2) := by
  decide +kernel

theorem begun_facts :
    (Machine.run (Network.step messaging aliceNode 8 50 100 fun _ => true) .init
      (unanswered.take 1)).map Network.nextTimeoutId = some 1 := by
  decide +kernel

theorem attempts_run_unanswered : ∃ s,
    Machine.run (Network.step messaging aliceNode 8 50 100 fun _ => true) .init unanswered =
      some s ∧ s.Attempts 50 ∧ s.ends = [(0, .timeout)] := by
  obtain ⟨s, hrun, hs⟩ := Option.map_eq_some_iff.mp unanswered_facts
  simp only [Prod.mk.injEq] at hs
  exact ⟨s, hrun, Network.attempts_run unanswered hrun, hs.2.1⟩

theorem attempt_ends_unanswered :
    ∃ t : Machine.Trace (Network.step messaging aliceNode 8 50 100 fun _ => true),
      t.state 0 = .init ∧
        ∃ m ≥ 1, ∃ last, ∀ j ≥ m, ∀ last', (0, last') ∈ (t.state j).ends ↔ last' = last := by
  obtain ⟨s, hrun, hs⟩ := Option.map_eq_some_iff.mp unanswered_facts
  simp only [Prod.mk.injEq] at hs
  obtain ⟨htimeouts, -, hnext⟩ := hs
  -- After its end, a connection to Alice is tried again and again.
  have hidle : Network.step messaging aliceNode 8 50 100 (fun _ => true) s
      (.tryConnect (toHex aliceKey) none none) = some s := by
    obtain ⟨type, hpending⟩ := ((Network.attempts_run unanswered hrun).timer_iff 1 _).mp
      (htimeouts ▸ List.mem_cons_self)
    simp [Network.step, Network.tryConnect, hpending]
  obtain ⟨t, ht⟩ := Machine.exists_trace hrun hidle
  have hstate : t.state 4 = s := Option.some.inj ((ht 4).symm.trans hrun)
  have hbegins : Network.Begins 50 0 (t.state 4) :=
    hstate ▸ ⟨Network.attempts_run unanswered hrun, by rw [hnext]; decide⟩
  have hrank : Network.rank 0 (t.state 4) = 0 := by
    rw [hstate, Network.rank, htimeouts]
    rfl
  have hbegun : 0 < (t.state 1).nextTimeoutId := by
    obtain ⟨s₁, hrun₁, hnext₁⟩ := Option.map_eq_some_iff.mp begun_facts
    rw [← Option.some.inj (hrun₁.symm.trans (ht 1)), hnext₁]
    exact Nat.zero_lt_one
  exact ⟨t, (Option.some.inj (ht 0)).symm, Network.attempt_ends t (Option.some.inj (ht 0)).symm
    hbegun (Network.lowers_rank.fair_of_eq_zero hbegins hrank)⟩

end Sample

end SettlementBus
