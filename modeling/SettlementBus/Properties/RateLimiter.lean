import Mathlib.Data.List.Induction
import SettlementBus.Lib.Window
import SettlementBus.Network.RateLimiter
import SettlementBus.Sample

/-! A peer is served at the rate that the limiter is configured for. -/

namespace SettlementBus

open Lib

/-! ### One peer -/

/-- What happens to the entry of a peer. -/
inductive PeerEvent
  | evicted (time : ℤ)
  | request (time : ℤ)
  deriving DecidableEq

/-- The entry of a peer, and the requests of the peer with their outcomes. -/
structure PeerRun where
  data : Option PeerData
  decisions : List (ℤ × Bool)

namespace PeerRun

def step (limit : ℕ) (r : PeerRun) : PeerEvent → PeerRun
  | .evicted _ => { r with data := none }
  | .request time =>
    let peerData := (r.data.getD (.initial time)).resetCounter time
    if limit ≤ peerData.transactionCount then
      { data := some peerData, decisions := r.decisions ++ [(time, false)] }
    else { data := some (peerData.count time), decisions := r.decisions ++ [(time, true)] }

def run (limit : ℕ) (events : List PeerEvent) : PeerRun :=
  events.foldl (step limit) { data := none, decisions := [] }

/-- The times of the requests that were accepted. -/
def accepted (r : PeerRun) : List ℤ := (r.decisions.filter Prod.snd).map Prod.fst

end PeerRun

def sessionStep (start : Option ℤ) : PeerEvent → Option ℤ
  | .evicted _ => none
  | .request time => some (start.getD time)

/-- The session of a peer begins with the first request after its entry was evicted. -/
def sessionStart (events : List PeerEvent) : Option ℤ := events.foldl sessionStep none

/-- An entry is about the requests that were accepted in its session. -/
structure Session (limit : ℕ) (now : ℤ) (accepted : List ℤ) (d : PeerData) : Prop where
  start_le : d.sessionStartTime ≤ d.lastCounterReset
  reset_le : d.lastCounterReset ≤ now
  activity : ∀ t ∈ accepted, t ≤ d.lastActivityTime
  activity_le : d.lastActivityTime ≤ now
  older : ∀ t ∈ accepted, t < d.sessionStartTime → t + 1000 ≤ d.sessionStartTime
  index_le : ∀ t ∈ accepted, Window.index d.sessionStartTime 1000 t ≤
    Window.index d.sessionStartTime 1000 d.lastCounterReset
  count : accepted.countP (fun t => Window.index d.sessionStartTime 1000 t =
    Window.index d.sessionStartTime 1000 d.lastCounterReset) = d.transactionCount
  bounded : ∀ w, 0 ≤ w →
    accepted.countP (fun t => Window.index d.sessionStartTime 1000 t = w) ≤ limit

namespace Session

variable {limit : ℕ} {now t : ℤ} {accepted : List ℤ} {d : PeerData}

theorem initial (h : ∀ u ∈ accepted, u + 1000 ≤ t) : Session limit t accepted (.initial t) := by
  have hbefore : ∀ u ∈ accepted, Window.index t 1000 u < 0 := by
    intro u hu
    have := h u hu
    rw [← not_le, Window.index_nonneg_iff (by omega)]
    omega
  have hzero : Window.index t 1000 t = 0 := by simp [Window.index]
  refine ⟨le_rfl, le_rfl, fun u hu => ?_, le_rfl, fun u hu _ => h u hu, fun u hu => ?_, ?_,
    fun w hw => ?_⟩
  · have := h u hu
    show u ≤ t
    omega
  · show Window.index t 1000 u ≤ Window.index t 1000 t
    rw [hzero]
    exact (hbefore u hu).le
  · show accepted.countP (fun u => Window.index t 1000 u = Window.index t 1000 t) = 0
    rw [List.countP_eq_zero]
    intro u hu
    have := hbefore u hu
    rw [hzero, decide_eq_true_iff]
    omega
  · have hnone : accepted.countP (fun u => Window.index t 1000 u = w) = 0 := by
      rw [List.countP_eq_zero]
      intro u hu
      have := hbefore u hu
      rw [decide_eq_true_iff]
      omega
    show accepted.countP (fun u => Window.index t 1000 u = w) ≤ limit
    rw [hnone]
    exact Nat.zero_le _

theorem mono (h : Session limit now accepted d) (ht : now ≤ t) : Session limit t accepted d :=
  { h with
    reset_le := h.reset_le.trans ht
    activity_le := h.activity_le.trans ht }

/-- After the reset the counter is about the second of the session that it is now. -/
theorem resetCounter (h : Session limit t accepted d) :
    Session limit t accepted (d.resetCounter t) ∧
      (d.resetCounter t).sessionStartTime = d.sessionStartTime ∧
      Window.index d.sessionStartTime 1000 (d.resetCounter t).lastCounterReset =
        Window.index d.sessionStartTime 1000 t := by
  have hmono : Window.index d.sessionStartTime 1000 d.lastCounterReset ≤
      Window.index d.sessionStartTime 1000 t := Window.index_mono (by omega) h.reset_le
  rw [PeerData.resetCounter]
  split
  case isTrue hlt =>
    change Window.index d.sessionStartTime 1000 d.lastCounterReset <
      Window.index d.sessionStartTime 1000 t at hlt
    refine ⟨{ h with
      start_le := h.start_le.trans h.reset_le
      reset_le := le_rfl
      index_le := fun u hu => (h.index_le u hu).trans hmono
      count := ?_ }, rfl, rfl⟩
    show accepted.countP (fun u => Window.index d.sessionStartTime 1000 u =
      Window.index d.sessionStartTime 1000 t) = 0
    rw [List.countP_eq_zero]
    intro u hu
    have := h.index_le u hu
    rw [decide_eq_true_iff]
    omega
  case isFalse hle =>
    change ¬Window.index d.sessionStartTime 1000 d.lastCounterReset <
      Window.index d.sessionStartTime 1000 t at hle
    exact ⟨h, rfl, le_antisymm hmono (not_lt.mp hle)⟩

/-- One more request in the second of the last reset. -/
theorem accept (h : Session limit t accepted d)
    (hindex : Window.index d.sessionStartTime 1000 d.lastCounterReset =
      Window.index d.sessionStartTime 1000 t) (hcount : d.transactionCount < limit) :
    Session limit t (accepted ++ [t]) (d.count t) := by
  have hstart : d.sessionStartTime ≤ t := h.start_le.trans h.reset_le
  have hcountP (w : ℤ) : (accepted ++ [t]).countP
        (fun u => Window.index d.sessionStartTime 1000 u = w) =
      accepted.countP (fun u => Window.index d.sessionStartTime 1000 u = w) +
        if Window.index d.sessionStartTime 1000 t = w then 1 else 0 := by
    rw [List.countP_append, List.countP_singleton]
    simp only [decide_eq_true_iff]
  refine ⟨h.start_le, h.reset_le, fun u hu => ?_, le_rfl, fun u hu hlt => ?_, fun u hu => ?_, ?_,
    fun w hw => ?_⟩
  · rcases List.mem_append.mp hu with hu | hu
    · exact (h.activity u hu).trans h.activity_le
    · exact (List.mem_singleton.mp hu).le
  · rcases List.mem_append.mp hu with hu | hu
    · exact h.older u hu hlt
    · obtain rfl := List.mem_singleton.mp hu
      exact absurd hlt (not_lt.mpr hstart)
  · rcases List.mem_append.mp hu with hu | hu
    · exact h.index_le u hu
    · obtain rfl := List.mem_singleton.mp hu
      exact hindex.ge
  · show (accepted ++ [t]).countP (fun u => Window.index d.sessionStartTime 1000 u =
      Window.index d.sessionStartTime 1000 d.lastCounterReset) = d.transactionCount + 1
    rw [hcountP, h.count, if_pos hindex.symm]
  · show (accepted ++ [t]).countP (fun u => Window.index d.sessionStartTime 1000 u = w) ≤ limit
    rw [hcountP]
    have hbound := h.bounded w hw
    split
    case isTrue hw' =>
      rw [← hw', ← hindex, h.count]
      exact hcount
    case isFalse => exact hbound

/-- An interval that meets a session meets no other. -/
theorem countP_within_le (h : Session limit t accepted d) {a u : ℤ}
    (hstart : d.sessionStartTime ≤ u) (hwithin : Window.within 1000 a u) :
    accepted.countP (Window.within 1000 a) ≤ 2 * limit := by
  have hsession : accepted.countP (Window.within 1000 a) =
      (accepted.filter (d.sessionStartTime ≤ ·)).countP (Window.within 1000 a) := by
    rw [List.countP_filter]
    refine List.countP_congr fun v hv => ?_
    rw [Bool.and_eq_true, iff_self_and, decide_eq_true_iff]
    intro hvwithin
    by_contra hlt
    have hold := h.older v hv (not_le.mp hlt)
    obtain ⟨-, hhigh⟩ := of_decide_eq_true hwithin
    obtain ⟨hlow, -⟩ := of_decide_eq_true hvwithin
    omega
  rw [hsession]
  refine Window.countP_within_le d.sessionStartTime (by omega) (fun w => ?_) a
  rw [List.countP_filter]
  by_cases hw : 0 ≤ w
  · exact (List.countP_mono_left fun v _ hv => (Bool.and_eq_true_iff.mp hv).1).trans
      (h.bounded w hw)
  · have hnone : accepted.countP (fun v =>
        decide (Window.index d.sessionStartTime 1000 v = w) &&
          decide (d.sessionStartTime ≤ v)) = 0 := by
      rw [List.countP_eq_zero]
      intro v _ hv
      rw [Bool.and_eq_true, decide_eq_true_iff, decide_eq_true_iff,
        ← Window.index_nonneg_iff (by omega : (0 : ℤ) < 1000)] at hv
      omega
    rw [hnone]
    exact Nat.zero_le _

end Session

namespace PeerRun

/-- What holds of a peer at a time after its last request. -/
structure Sound (limit : ℕ) (now : ℤ) (r : PeerRun) : Prop where
  gap : r.data = none → ∀ t ∈ r.accepted, t + 1000 ≤ now
  session : ∀ d, r.data = some d → Session limit now r.accepted d
  burst : ∀ a, r.accepted.countP (Window.within 1000 a) ≤ 2 * limit

variable {limit : ℕ} {now t : ℤ} {r : PeerRun}

theorem sound_init : Sound limit now { data := none, decisions := [] } :=
  ⟨fun _ t ht => absurd ht List.not_mem_nil, fun _ h => absurd h (by simp), fun _ => Nat.zero_le _⟩

theorem Sound.mono (h : r.Sound limit now) (ht : now ≤ t) : r.Sound limit t :=
  ⟨fun hnone u hu => (h.gap hnone u hu).trans ht, fun d hd => (h.session d hd).mono ht, h.burst⟩

/-- An entry is evicted a second after the last accepted request, or later. -/
theorem Sound.evict (h : r.Sound limit now) {d : PeerData} (hd : r.data = some d)
    (hexpired : 1000 ≤ t - d.lastActivityTime) : (r.step limit (.evicted t)).Sound limit t := by
  refine ⟨fun _ u hu => ?_, fun _ h => absurd h (by simp [step]), h.burst⟩
  have := (h.session d hd).activity u hu
  omega

theorem accepted_append (data : Option PeerData) (ok : Bool) :
    accepted { data, decisions := r.decisions ++ [(t, ok)] } =
      r.accepted ++ if ok then [t] else [] := by
  cases ok <;> simp [accepted]

/-- The entry that a request finds or makes. -/
theorem Sound.session_getD (h : r.Sound limit t) :
    Session limit t r.accepted (r.data.getD (.initial t)) := by
  cases hd : r.data with
  | none => exact Session.initial (h.gap hd)
  | some d => exact h.session d hd

/-- What a request finds in the entry, once the counter has been reset if it is due. -/
def current (r : PeerRun) (t : ℤ) : PeerData := (r.data.getD (.initial t)).resetCounter t

theorem Sound.session_current (h : r.Sound limit t) : Session limit t r.accepted (r.current t) :=
  h.session_getD.resetCounter.1

theorem Sound.index_current (h : r.Sound limit t) :
    Window.index (r.current t).sessionStartTime 1000 (r.current t).lastCounterReset =
      Window.index (r.current t).sessionStartTime 1000 t := by
  obtain ⟨-, hstart, hindex⟩ := h.session_getD.resetCounter
  rw [current, hstart, hindex]

theorem step_of_full (h : limit ≤ (r.current t).transactionCount) : r.step limit (.request t) =
    { data := some (r.current t), decisions := r.decisions ++ [(t, false)] } := if_pos h

theorem step_of_room (h : (r.current t).transactionCount < limit) : r.step limit (.request t) =
    { data := some ((r.current t).count t), decisions := r.decisions ++ [(t, true)] } :=
  if_neg (not_le.mpr h)

theorem Sound.request (h : r.Sound limit t) : (r.step limit (.request t)).Sound limit t := by
  rcases le_or_gt limit (r.current t).transactionCount with hfull | hroom
  · have haccepted := accepted_append (r := r) (t := t) (some (r.current t)) false
    rw [if_neg Bool.false_ne_true, List.append_nil] at haccepted
    rw [step_of_full hfull]
    refine ⟨fun hnone => absurd hnone (by simp), fun d hd => ?_, ?_⟩
    · cases hd
      rw [haccepted]
      exact h.session_current
    · rw [haccepted]
      exact h.burst
  · have haccepted := accepted_append (r := r) (t := t) (some ((r.current t).count t)) true
    rw [if_pos rfl] at haccepted
    have hsession := h.session_current.accept h.index_current hroom
    rw [step_of_room hroom]
    refine ⟨fun hnone => absurd hnone (by simp), fun d hd => ?_, fun a => ?_⟩
    · cases hd
      rw [haccepted]
      exact hsession
    · rw [haccepted]
      cases hwithin : Window.within 1000 a t with
      | true =>
        exact hsession.countP_within_le (hsession.start_le.trans hsession.reset_le) hwithin
      | false =>
        rw [List.countP_append, List.countP_singleton, hwithin]
        exact h.burst a

theorem sessionStartTime_resetCounter (d : PeerData) :
    (d.resetCounter t).sessionStartTime = d.sessionStartTime := by
  rw [PeerData.resetCounter]
  split <;> rfl

theorem sessionStartTime_current : (r.current t).sessionStartTime =
    (r.data.map PeerData.sessionStartTime).getD t := by
  rw [current, sessionStartTime_resetCounter]
  cases r.data <;> rfl

theorem map_sessionStartTime_step (e : PeerEvent) :
    (r.step limit e).data.map PeerData.sessionStartTime =
      sessionStep (r.data.map PeerData.sessionStartTime) e := by
  cases e with
  | evicted time => rfl
  | request time =>
    rw [sessionStep, ← sessionStartTime_current]
    rcases le_or_gt limit (r.current time).transactionCount with hfull | hroom
    · rw [step_of_full hfull]
      rfl
    · rw [step_of_room hroom]
      rfl

/-- The entry counts the session from its start. -/
theorem map_sessionStartTime_run (events : List PeerEvent) :
    (run limit events).data.map PeerData.sessionStartTime = sessionStart events := by
  suffices h : ∀ r : PeerRun, (events.foldl (step limit) r).data.map PeerData.sessionStartTime =
      events.foldl sessionStep (r.data.map PeerData.sessionStartTime) from h _
  induction events with
  | nil => exact fun r => rfl
  | cons e events ih =>
    intro r
    rw [List.foldl_cons, List.foldl_cons, ih, map_sessionStartTime_step]

/-- The counter is the number of accepted requests in this second of the session. -/
theorem Sound.transactionCount_current (h : r.Sound limit t) : (r.current t).transactionCount =
    r.accepted.countP fun u => Window.index (r.current t).sessionStartTime 1000 u =
      Window.index (r.current t).sessionStartTime 1000 t := by
  rw [← h.index_current, h.session_current.count]

end PeerRun

/-! ### The entries of the service -/

namespace TransactionRateLimiterService

variable {config : RateLimiterConfig} {publicKeyToAddress : Buffer → Str} {now : ℤ} {peer p : Str}
  {s : TransactionRateLimiterService}

theorem get_deleteExpired (m : OrderedMap Str PeerData) :
    (deleteExpired config now m peer).get p =
      if p = peer then (m.get p).filter fun d => !isConnectionExpired config d now else m.get p := by
  rw [deleteExpired]
  by_cases hp : p = peer
  · subst hp
    rw [if_pos rfl]
    cases hd : m.get p with
    | none => simp [hd]
    | some d =>
      dsimp only
      split
      case isTrue h => simp [OrderedMap.get_delete, Option.filter, h]
      case isFalse h => simp [hd, Option.filter, h]
  · rw [if_neg hp]
    split
    case h_1 d hd =>
      split
      case isTrue => rw [OrderedMap.get_delete, if_neg hp]
      case isFalse => rfl
    case h_2 => rfl

theorem get_foldl_deleteExpired (peers : List Str) (m : OrderedMap Str PeerData) :
    (peers.foldl (deleteExpired config now) m).get p =
      if p ∈ peers then (m.get p).filter fun d => !isConnectionExpired config d now
      else m.get p := by
  induction peers generalizing m with
  | nil => rfl
  | cons q peers ih =>
    rw [List.foldl_cons, ih, get_deleteExpired]
    by_cases hq : p = q <;> by_cases hp : p ∈ peers <;> simp [hq, hp]

theorem mem_evicted : p ∈ s.evicted config now ↔ (s.connectionsStatistics.get p).isSome ∧
    (s.cleanUpOldConnections config now).connectionsStatistics.get p = none := by
  rw [evicted, List.mem_filter, OrderedMap.mem_keys_iff_get, Option.isNone_iff_eq_none]

variable (config now p s) in
/-- An entry that is gone after the cleanup has expired. -/
theorem get_cleanUpOldConnections :
    p ∉ s.evicted config now ∧ (s.cleanUpOldConnections config now).connectionsStatistics.get p =
        s.connectionsStatistics.get p ∨
      p ∈ s.evicted config now ∧
        (s.cleanUpOldConnections config now).connectionsStatistics.get p = none ∧
          ∃ d, s.connectionsStatistics.get p = some d ∧
            config.rateLimitConnectionTimeoutMs ≤ now - d.lastActivityTime := by
  have hget : (s.cleanUpOldConnections config now).connectionsStatistics.get p =
      s.connectionsStatistics.get p ∨
        (s.cleanUpOldConnections config now).connectionsStatistics.get p =
          (s.connectionsStatistics.get p).filter fun d => !isConnectionExpired config d now := by
    rw [cleanUpOldConnections]
    split
    case isTrue => exact .inl rfl
    case isFalse =>
      rw [get_foldl_deleteExpired]
      split
      case isTrue => exact .inr rfl
      case isFalse => exact .inl rfl
  rw [mem_evicted]
  cases hd : s.connectionsStatistics.get p with
  | none =>
    refine .inl ⟨fun h => by simp at h, ?_⟩
    rcases hget with h | h <;> simpa [hd] using h
  | some d =>
    rw [hd] at hget
    cases hexpired : isConnectionExpired config d now with
    | false =>
      have hkept : (s.cleanUpOldConnections config now).connectionsStatistics.get p = some d := by
        rcases hget with h | h
        · exact h
        · simpa [Option.filter, hexpired] using h
      exact .inl ⟨fun h => by simp [hkept] at h, hkept⟩
    | true =>
      rcases hget with h | h
      · exact .inl ⟨fun h' => by simp [h] at h', h⟩
      · have hgone : (s.cleanUpOldConnections config now).connectionsStatistics.get p = none := by
          simpa [Option.filter, hexpired] using h
        exact .inr ⟨⟨rfl, hgone⟩, hgone, d, rfl, of_decide_eq_true hexpired⟩

/-- What both entry points do. -/
def serveEntry (config : RateLimiterConfig) (peer : Str) (now : ℤ)
    (s : TransactionRateLimiterService) : Bool × TransactionRateLimiterService :=
  let s := s.initializePeerConnectionInfoEntry peer now
  let (exceeded, s) := s.hasExceededRateLimit config peer now
  if exceeded then (false, s) else (true, s.updatePeerConnectionInfo peer now)

theorem handle_legacy (remotePublicKey : Buffer) :
    s.handle config publicKeyToAddress (.legacy remotePublicKey now) =
      (s.cleanUpOldConnections config now).serveEntry config (toHex remotePublicKey) now := by
  rw [handle, legacyHandleRateLimit, serveEntry]
  dsimp only
  split
  case isTrue => rfl
  case isFalse => rfl

theorem handle_v1 (remotePublicKey : Buffer) :
    s.handle config publicKeyToAddress (.v1 remotePublicKey now) =
      (s.cleanUpOldConnections config now).serveEntry config (toHex remotePublicKey) now := by
  rw [handle, v1HandleRateLimit, serveEntry]
  dsimp only
  split
  case isTrue => rfl
  case isFalse => rfl

theorem handle_eq (request : RateLimitRequest) : s.handle config publicKeyToAddress request =
    (s.cleanUpOldConnections config request.currentTime).serveEntry config request.peer
      request.currentTime := by
  cases request with
  | legacy remotePublicKey currentTime => exact handle_legacy remotePublicKey
  | v1 remotePublicKey currentTime => exact handle_v1 remotePublicKey

/-- The entry that is there when the rate is checked. -/
theorem get_initializeEntry :
    (s.initializePeerConnectionInfoEntry peer now).connectionsStatistics.get p =
    if p = peer then some ((s.connectionsStatistics.get peer).getD (.initial now))
    else s.connectionsStatistics.get p := by
  rw [initializePeerConnectionInfoEntry]
  split
  case h_1 d hd =>
    by_cases hp : p = peer
    · rw [if_pos hp, hp, hd]
      rfl
    · rw [if_neg hp]
  case h_2 hnone => rw [OrderedMap.get_set, hnone]; rfl

theorem hasExceededRateLimit_eq {d : PeerData} (h : s.connectionsStatistics.get peer = some d) :
    s.hasExceededRateLimit config peer now =
      (decide (config.rateLimitMaxTransactionsPerSecond ≤ (d.resetCounter now).transactionCount),
        { s with connectionsStatistics :=
            s.connectionsStatistics.set peer (d.resetCounter now) }) := by
  rw [hasExceededRateLimit, h]

/-- The entry of the peer counts the request if it is accepted, and no other entry changes. -/
theorem serveEntry_eq {d : PeerData}
    (hd : ((s.connectionsStatistics.get peer).getD (.initial now)).resetCounter now = d) :
    (s.serveEntry config peer now).1 =
        decide (d.transactionCount < config.rateLimitMaxTransactionsPerSecond) ∧
      (s.serveEntry config peer now).2.connectionsStatistics.get p =
        if p = peer then
          some (if d.transactionCount < config.rateLimitMaxTransactionsPerSecond then d.count now
            else d)
        else s.connectionsStatistics.get p := by
  have hinit : (s.initializePeerConnectionInfoEntry peer now).connectionsStatistics.get peer =
      some ((s.connectionsStatistics.get peer).getD (.initial now)) := by
    rw [get_initializeEntry, if_pos rfl]
  rw [serveEntry, hasExceededRateLimit_eq hinit, hd]
  dsimp only
  rcases le_or_gt config.rateLimitMaxTransactionsPerSecond d.transactionCount with hfull | hroom
  · rw [if_pos (decide_eq_true hfull), if_neg (not_lt.mpr hfull),
      decide_eq_false (not_lt.mpr hfull)]
    refine ⟨rfl, ?_⟩
    rw [OrderedMap.get_set, get_initializeEntry]
    split <;> rfl
  · have hnot : ¬decide (config.rateLimitMaxTransactionsPerSecond ≤ d.transactionCount) = true := by
      rw [decide_eq_true_iff]
      exact not_le.mpr hroom
    have hget : ((s.initializePeerConnectionInfoEntry peer now).connectionsStatistics.set peer
        d).get peer = some d := by rw [OrderedMap.get_set, if_pos rfl]
    rw [if_neg hnot, if_pos hroom, decide_eq_true hroom]
    refine ⟨rfl, ?_⟩
    rw [updatePeerConnectionInfo]
    dsimp only
    rw [hget]
    dsimp only
    rw [OrderedMap.get_set, OrderedMap.get_set, get_initializeEntry]
    split <;> rfl

end TransactionRateLimiterService

/-! ### All peers -/

namespace ServedRequest

variable (p : Str) (x : ServedRequest)

def evictions : List PeerEvent := if p ∈ x.evicted then [.evicted x.time] else []

/-- What the request, with its cleanup, does to the entry of the peer. -/
def peerEvents : List PeerEvent := x.evictions p ++ if x.peer = p then [.request x.time] else []

end ServedRequest

namespace RateLimiterRun

def trace (p : Str) (served : List ServedRequest) : List PeerEvent :=
  served.flatMap (ServedRequest.peerEvents p)

def outcomes (p : Str) (served : List ServedRequest) : List (ℤ × Bool) :=
  (served.filter fun x => x.peer = p).map fun x => (x.time, x.accepted)

/-- The times at which requests of the peer were accepted. -/
def acceptedTimes (p : Str) (served : List ServedRequest) : List ℤ :=
  ((outcomes p served).filter Prod.snd).map Prod.fst

/-- The start of the session that the request is in. -/
def sessionOf (before : List ServedRequest) (x : ServedRequest) : ℤ :=
  (sessionStart (trace x.peer before ++ x.evictions x.peer)).getD x.time

/-- The peer when the rate is checked for the request. -/
def checked (limit : ℕ) (p : Str) (served : List ServedRequest) (x : ServedRequest) : PeerRun :=
  PeerRun.run limit (trace p served ++ x.evictions p)

/-- The service has the entry that the events of the peer alone lead to. -/
structure Tracks (limit : ℕ) (p : Str) (s : RateLimiterRun) : Prop where
  data : s.service.connectionsStatistics.get p = (PeerRun.run limit (trace p s.served)).data
  decisions : outcomes p s.served = (PeerRun.run limit (trace p s.served)).decisions

variable {config : RateLimiterConfig} {publicKeyToAddress : Buffer → Str} {p : Str}
  {s : RateLimiterRun} {request : RateLimitRequest} {x : ServedRequest} {now : ℤ}
  {served : List ServedRequest}

theorem trace_append : trace p (served ++ [x]) = trace p served ++ x.peerEvents p := by
  rw [trace, List.flatMap_append, List.flatMap_singleton]
  rfl

theorem outcomes_append : outcomes p (served ++ [x]) =
    outcomes p served ++ if x.peer = p then [(x.time, x.accepted)] else [] := by
  rw [outcomes, List.filter_append, List.map_append]
  by_cases h : x.peer = p
  · rw [if_pos h, List.filter_singleton, decide_eq_true h]
    rfl
  · rw [if_neg h, List.filter_singleton, decide_eq_false h]
    rfl

theorem checked_eq (limit : ℕ) : checked limit p served x =
    (x.evictions p).foldl (PeerRun.step limit) (PeerRun.run limit (trace p served)) :=
  List.foldl_append

theorem run_trace_append (limit : ℕ) : PeerRun.run limit (trace p (served ++ [x])) =
    if x.peer = p then (checked limit p served x).step limit (.request x.time)
    else checked limit p served x := by
  rw [trace_append, ServedRequest.peerEvents, ← List.append_assoc, PeerRun.run, List.foldl_append]
  split <;> rfl

theorem evictions_answer :
    (answer config publicKeyToAddress s.service request).evictions p =
      if p ∈ s.service.evicted config request.currentTime then [.evicted request.currentTime]
      else [] := rfl

section

variable (publicKeyToAddress request)

/-- The entry after the cleanup of a request, whoever sends it. -/
theorem Tracks.checked (h : s.Tracks config.rateLimitMaxTransactionsPerSecond p) :
    (checked config.rateLimitMaxTransactionsPerSecond p s.served
          (answer config publicKeyToAddress s.service request)).data =
        (s.service.cleanUpOldConnections config request.currentTime).connectionsStatistics.get p ∧
      (RateLimiterRun.checked config.rateLimitMaxTransactionsPerSecond p s.served
          (answer config publicKeyToAddress s.service request)).decisions =
        outcomes p s.served := by
  rw [checked_eq, evictions_answer]
  rcases TransactionRateLimiterService.get_cleanUpOldConnections config request.currentTime p
    s.service with ⟨hmem, hget⟩ | ⟨hmem, hget, -⟩
  · rw [if_neg hmem, hget]
    exact ⟨h.data.symm, h.decisions.symm⟩
  · rw [if_pos hmem, hget]
    exact ⟨rfl, h.decisions.symm⟩

/-- The outcome of the request, and the entries after it. -/
theorem Tracks.handle (h : s.Tracks config.rateLimitMaxTransactionsPerSecond request.peer)
    {d : PeerData} (hd : (RateLimiterRun.checked config.rateLimitMaxTransactionsPerSecond
      request.peer s.served (answer config publicKeyToAddress s.service request)).current
        request.currentTime = d) :
    (s.service.handle config publicKeyToAddress request).1 =
        decide (d.transactionCount < config.rateLimitMaxTransactionsPerSecond) ∧
      (s.service.handle config publicKeyToAddress request).2.connectionsStatistics.get p =
        if p = request.peer then
          some (if d.transactionCount < config.rateLimitMaxTransactionsPerSecond then
            d.count request.currentTime else d)
        else (s.service.cleanUpOldConnections config
          request.currentTime).connectionsStatistics.get p := by
  rw [TransactionRateLimiterService.handle_eq]
  refine TransactionRateLimiterService.serveEntry_eq ?_
  rw [← (h.checked publicKeyToAddress request).1]
  exact hd

/-- No entry is evicted within a second of a request that was accepted. -/
theorem Tracks.sound_checked (h : s.Tracks config.rateLimitMaxTransactionsPerSecond p)
    (htimeout : 1000 ≤ config.rateLimitConnectionTimeoutMs)
    (hsound : (PeerRun.run config.rateLimitMaxTransactionsPerSecond (trace p s.served)).Sound
      config.rateLimitMaxTransactionsPerSecond request.currentTime) :
    (RateLimiterRun.checked config.rateLimitMaxTransactionsPerSecond p s.served
        (answer config publicKeyToAddress s.service request)).Sound
      config.rateLimitMaxTransactionsPerSecond request.currentTime := by
  rw [checked_eq, evictions_answer]
  rcases TransactionRateLimiterService.get_cleanUpOldConnections config request.currentTime p
    s.service with ⟨hmem, -⟩ | ⟨hmem, -, d, hd, hexpired⟩
  · rw [if_neg hmem]
    exact hsound
  · rw [if_pos hmem]
    exact hsound.evict (h.data.symm.trans hd) (htimeout.trans hexpired)

end

theorem Tracks.serve (h : ∀ p, s.Tracks config.rateLimitMaxTransactionsPerSecond p) (p : Str) :
    (s.serve config publicKeyToAddress request).Tracks config.rateLimitMaxTransactionsPerSecond
      p := by
  obtain ⟨hdata, hdecisions⟩ := (h p).checked publicKeyToAddress request
  obtain ⟨haccepted, hget⟩ := (h request.peer).handle publicKeyToAddress request (p := p) rfl
  have hpeer : (answer config publicKeyToAddress s.service request).peer = request.peer := rfl
  have htime : (answer config publicKeyToAddress s.service request).time = request.currentTime := rfl
  have hanswer : (answer config publicKeyToAddress s.service request).accepted =
    (s.service.handle config publicKeyToAddress request).1 := rfl
  constructor
  · rw [RateLimiterRun.serve, run_trace_append, hget, hpeer, htime]
    by_cases hp : p = request.peer
    · rw [if_pos hp, if_pos hp.symm, ← hp]
      split
      case isTrue hroom => rw [PeerRun.step_of_room hroom]
      case isFalse hfull => rw [PeerRun.step_of_full (not_lt.mp hfull)]
    · rw [if_neg hp, if_neg (Ne.symm hp), hdata]
  · rw [RateLimiterRun.serve, run_trace_append, outcomes_append, hanswer, haccepted, hpeer, htime]
    by_cases hp : request.peer = p
    · rw [if_pos hp, if_pos hp, hp, ← hdecisions]
      rcases le_or_gt config.rateLimitMaxTransactionsPerSecond
        ((RateLimiterRun.checked config.rateLimitMaxTransactionsPerSecond p s.served
          (answer config publicKeyToAddress s.service request)).current
            request.currentTime).transactionCount with hfull | hroom
      · rw [PeerRun.step_of_full hfull, decide_eq_false (not_lt.mpr hfull)]
      · rw [PeerRun.step_of_room hroom, decide_eq_true hroom]
    · rw [if_neg hp, if_neg hp, List.append_nil, hdecisions]

section

variable (config publicKeyToAddress now)

theorem tracks_run (requests : List RateLimitRequest) : ∀ p,
    (run config publicKeyToAddress now requests).Tracks config.rateLimitMaxTransactionsPerSecond
      p := by
  induction requests using List.reverseRecOn with
  | nil => exact fun p => ⟨OrderedMap.get_empty, rfl⟩
  | append_singleton requests request ih =>
    rw [run, List.foldl_append]
    exact Tracks.serve ih

variable {config} in
theorem sound_run {requests : List RateLimitRequest}
    (hclock : (requests.map RateLimitRequest.currentTime).Pairwise (· ≤ ·))
    (htimeout : 1000 ≤ config.rateLimitConnectionTimeoutMs) {t : ℤ}
    (ht : ∀ request ∈ requests, request.currentTime ≤ t) :
    (PeerRun.run config.rateLimitMaxTransactionsPerSecond
      (trace p (run config publicKeyToAddress now requests).served)).Sound
        config.rateLimitMaxTransactionsPerSecond t := by
  induction requests using List.reverseRecOn generalizing t with
  | nil => exact PeerRun.sound_init
  | append_singleton requests request ih =>
    rw [List.map_append, List.pairwise_append] at hclock
    obtain ⟨hbefore, -, hlast⟩ := hclock
    have htracks := tracks_run config publicKeyToAddress now requests p
    have hsound := htracks.sound_checked publicKeyToAddress request htimeout
      (ih hbefore fun u hu => hlast _ (List.mem_map_of_mem hu) _ (List.mem_singleton_self _))
    refine PeerRun.Sound.mono ?_ (ht request (List.mem_append_right _ (List.mem_singleton_self _)))
    rw [run, List.foldl_append, List.foldl_cons, List.foldl_nil, serve, run_trace_append]
    split
    case isTrue => exact hsound.request
    case isFalse => exact hsound

theorem exists_currentTime_le (requests : List RateLimitRequest) :
    ∃ t, ∀ request ∈ requests, request.currentTime ≤ t := by
  induction requests with
  | nil => exact ⟨0, fun request h => absurd h List.not_mem_nil⟩
  | cons request requests ih =>
    obtain ⟨t, ht⟩ := ih
    refine ⟨max request.currentTime t, fun u hu => ?_⟩
    rcases List.mem_cons.mp hu with rfl | hu
    · exact le_max_left ..
    · exact (ht u hu).trans (le_max_right ..)

theorem run_append (requests : List RateLimitRequest) :
    (run config publicKeyToAddress now (requests ++ [request])).served =
      (run config publicKeyToAddress now requests).served ++ [answer config publicKeyToAddress
        (run config publicKeyToAddress now requests).service request] := by
  rw [run, List.foldl_append]
  rfl

theorem map_served_run (requests : List RateLimitRequest) :
    (run config publicKeyToAddress now requests).served.map (fun x => (x.peer, x.time)) =
      requests.map fun request => (request.peer, request.currentTime) := by
  induction requests using List.reverseRecOn with
  | nil => rfl
  | append_singleton requests request ih =>
    rw [run_append, List.map_append, List.map_append, ih]
    rfl

end

theorem acceptedTimes_eq {r : PeerRun} (h : r.decisions = outcomes p served) :
    acceptedTimes p served = r.accepted := by rw [acceptedTimes, PeerRun.accepted, h]

theorem sessionStartTime_checked (limit : ℕ) :
    ((checked limit x.peer served x).current x.time).sessionStartTime = sessionOf served x := by
  rw [PeerRun.sessionStartTime_current, checked, PeerRun.map_sessionStartTime_run, sessionOf]

/-- A request is accepted when fewer than the limit were in its second of the session. -/
theorem accepted_eq {requests : List RateLimitRequest}
    (hclock : (requests.map RateLimitRequest.currentTime).Pairwise (· ≤ ·))
    (htimeout : 1000 ≤ config.rateLimitConnectionTimeoutMs) {before after : List ServedRequest}
    (hserved : (run config publicKeyToAddress now requests).served = before ++ x :: after) :
    x.accepted = decide ((acceptedTimes x.peer before).countP (fun t =>
      Window.index (sessionOf before x) 1000 t = Window.index (sessionOf before x) 1000 x.time) <
        config.rateLimitMaxTransactionsPerSecond) := by
  induction requests using List.reverseRecOn generalizing after with
  | nil => exact absurd hserved (by simp [run])
  | append_singleton requests request ih =>
    rw [List.map_append, List.pairwise_append] at hclock
    obtain ⟨hbefore, -, hlast⟩ := hclock
    rw [run_append] at hserved
    rcases List.eq_nil_or_concat after with rfl | ⟨after, y, rfl⟩
    · obtain ⟨rfl, hx⟩ := List.append_inj' hserved rfl
      have htracks := tracks_run config publicKeyToAddress now requests request.peer
      have hsound := htracks.sound_checked publicKeyToAddress request htimeout
        (sound_run publicKeyToAddress now hbefore htimeout fun u hu =>
          hlast _ (List.mem_map_of_mem hu) _ (List.mem_singleton_self _))
      have hcount := hsound.transactionCount_current
      obtain ⟨haccepted, -⟩ := htracks.handle publicKeyToAddress request (p := request.peer) rfl
      rw [← acceptedTimes_eq (htracks.checked publicKeyToAddress request).2] at hcount
      rw [hcount] at haccepted
      have hx := (List.singleton_inj.mp hx).symm
      have hpeer : x.peer = request.peer := by rw [hx]; rfl
      have htime : x.time = request.currentTime := by rw [hx]; rfl
      rw [← hx, ← hpeer, ← htime, sessionStartTime_checked] at haccepted
      rw [← haccepted, hx]
      rfl
    · rw [List.concat_eq_append, ← List.cons_append, ← List.append_assoc] at hserved
      exact ih hbefore (List.append_inj' hserved rfl).1

/-- The times of the requests of the peer. -/
def requestTimes (p : Str) (requests : List RateLimitRequest) : List ℤ :=
  (requests.filter fun request => request.peer = p).map RateLimitRequest.currentTime

variable (config publicKeyToAddress now) in
theorem map_fst_outcomes_run (requests : List RateLimitRequest) :
    (outcomes p (run config publicKeyToAddress now requests).served).map Prod.fst =
      requestTimes p requests := by
  have h := congrArg (fun l => (l.filter fun x => x.1 = p).map Prod.snd)
    (map_served_run config publicKeyToAddress now requests)
  simp only [List.filter_map, List.map_map] at h
  rw [outcomes, List.map_map, requestTimes]
  exact h

/-- The requests before `x` in its second that were accepted, and `x` itself. -/
theorem countP_acceptedTimes_lt {start : ℤ} {before after : List ServedRequest}
    (hserved : served = before ++ x :: after) :
    (acceptedTimes x.peer before).countP (fun t =>
        Window.index start 1000 t = Window.index start 1000 x.time) <
      ((outcomes x.peer served).map Prod.fst).countP
        (Window.within 1000 (start + Window.index start 1000 x.time * 1000)) := by
  have hle : (acceptedTimes x.peer before).countP (fun t =>
        Window.index start 1000 t = Window.index start 1000 x.time) ≤
      ((outcomes x.peer before).map Prod.fst).countP
        (Window.within 1000 (start + Window.index start 1000 x.time * 1000)) := by
    refine le_trans (List.countP_mono_left fun t _ ht => ?_)
      (List.Sublist.countP_le (List.filter_sublist.map Prod.fst))
    exact (Window.index_eq_iff (by omega)).mp (of_decide_eq_true ht)
  have hself : Window.within 1000 (start + Window.index start 1000 x.time * 1000) x.time = true :=
    (Window.index_eq_iff (by omega)).mp rfl
  rw [hserved, ← List.singleton_append, ← List.append_assoc, outcomes, List.filter_append,
    List.map_append, List.map_append, List.countP_append]
  change _ < ((outcomes x.peer (before ++ [x])).map Prod.fst).countP _ + _
  rw [outcomes_append, if_pos rfl, List.map_append, List.countP_append, List.map_singleton,
    List.countP_singleton, if_pos hself]
  omega

end RateLimiterRun

/-- A peer is served at the rate of the limit, and the other peers have no part in that. -/
theorem rateLimit_bound (config : RateLimiterConfig) (publicKeyToAddress : Buffer → Str) (now : ℤ)
    (requests : List RateLimitRequest)
    (hclock : (requests.map RateLimitRequest.currentTime).Pairwise (· ≤ ·))
    (htimeout : 1000 ≤ config.rateLimitConnectionTimeoutMs) :
    let served := (RateLimiterRun.run config publicKeyToAddress now requests).served
    let limit := config.rateLimitMaxTransactionsPerSecond
    served.map (fun x => (x.peer, x.time)) =
        requests.map (fun request => (request.peer, request.currentTime)) ∧
      (∀ before x after, served = before ++ x :: after →
        let session := RateLimiterRun.sessionOf before x
        x.accepted = decide ((RateLimiterRun.acceptedTimes x.peer before).countP (fun t =>
          Window.index session 1000 t = Window.index session 1000 x.time) < limit)) ∧
      (∀ p a, (RateLimiterRun.acceptedTimes p served).countP (Window.within 1000 a) ≤
        2 * limit) ∧
      (∀ p, (∀ a, (RateLimiterRun.requestTimes p requests).countP (Window.within 1000 a) ≤ limit) →
        ∀ x ∈ served, x.peer = p → x.accepted = true) ∧
      ∀ p now' requests',
        let other := RateLimiterRun.run config publicKeyToAddress now' requests'
        RateLimiterRun.trace p other.served = RateLimiterRun.trace p served →
          RateLimiterRun.outcomes p other.served = RateLimiterRun.outcomes p served := by
  intro served limit
  refine ⟨RateLimiterRun.map_served_run config publicKeyToAddress now requests,
    fun before x after h => RateLimiterRun.accepted_eq hclock htimeout h, fun p a => ?_,
    fun p hfew x hx hpeer => ?_, ?_⟩
  · obtain ⟨t, ht⟩ := RateLimiterRun.exists_currentTime_le requests
    have hsound := RateLimiterRun.sound_run (p := p) publicKeyToAddress now hclock htimeout ht
    have htracks := RateLimiterRun.tracks_run config publicKeyToAddress now requests p
    rw [RateLimiterRun.acceptedTimes_eq htracks.decisions.symm]
    exact hsound.burst a
  · subst hpeer
    obtain ⟨before, after, hsplit⟩ := List.append_of_mem hx
    rw [RateLimiterRun.accepted_eq hclock htimeout hsplit, decide_eq_true_iff]
    refine lt_of_lt_of_le ?_ (hfew (RateLimiterRun.sessionOf before x + Window.index
      (RateLimiterRun.sessionOf before x) 1000 x.time * 1000))
    rw [← RateLimiterRun.map_fst_outcomes_run config publicKeyToAddress now]
    exact RateLimiterRun.countP_acceptedTimes_lt hsplit
  · intro p now' requests' other htrace
    have htracks := RateLimiterRun.tracks_run config publicKeyToAddress now requests p
    have htracks' := RateLimiterRun.tracks_run config publicKeyToAddress now' requests' p
    rw [htracks.decisions, htracks'.decisions]
    exact congrArg (fun events => (PeerRun.run limit events).decisions) htrace

namespace Sample

def rateLimiterConfig : RateLimiterConfig :=
  { rateLimitCleanupIntervalMs := 120000, rateLimitConnectionTimeoutMs := 60000
    rateLimitMaxTransactionsPerSecond := 1 }

/-- Bob's request comes when the entry of Alice has expired. -/
def rateLimitRequests : List RateLimitRequest :=
  [.legacy aliceKey 0, .v1 aliceKey 999, .v1 aliceKey 1000, .v1 bobKey 125000,
    .legacy aliceKey 125500]

theorem rateLimit_bound_twoPeers :
    (rateLimitRequests.map RateLimitRequest.currentTime).Pairwise (· ≤ ·) ∧
      1000 ≤ rateLimiterConfig.rateLimitConnectionTimeoutMs ∧
      (RateLimiterRun.run rateLimiterConfig (fun _ => alice) 0 rateLimitRequests).served.map
        ServedRequest.accepted = [true, false, true, true, true] ∧
      ∀ p a, (RateLimiterRun.acceptedTimes p (RateLimiterRun.run rateLimiterConfig (fun _ => alice)
        0 rateLimitRequests).served).countP (Window.within 1000 a) ≤ 2 :=
  ⟨by decide, by decide, by decide +kernel,
    (rateLimit_bound rateLimiterConfig (fun _ => alice) 0 rateLimitRequests (by decide)
      (by decide)).2.2.1⟩

end Sample

end SettlementBus
