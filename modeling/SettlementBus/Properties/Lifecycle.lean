import SettlementBus.Properties.Connection
import SettlementBus.Properties.Exchange
import SettlementBus.Properties.Probe

/-! The pool of validators in the runs of a node: its health checks, and the connections that have
closed. -/

namespace SettlementBus

open Lib

namespace Network

variable {env : Env} {wallet : Wallet} {maxValidators maxPendingConnections maxPendingRequests : ℕ}
  {schema : NetworkMessage → Bool} {s s' : Network} {e : NetworkEvent} {k : Str} {c : Connection}

/-! ### The pool and its health checks -/

/-- What the pool has to do with. -/
def view (s : Network) :
    ConnectionManager × ValidatorHealthCheckService × Store Connection Protocol :=
  (s.manager, s.healthChecks, s.preferredProtocol)

/-- What it is when a ready validator has been added, or not. -/
def addedView (s : Network) (maxValidators : ℕ) (k : Str) (c : Connection) :
    ConnectionManager × ValidatorHealthCheckService × Store Connection Protocol :=
  ((s.manager.addValidator maxValidators k c).2,
    if s.preferredProtocol.get c = some .v1 then s.healthChecks.start k else s.healthChecks.stop k,
    s.preferredProtocol)

/-- The step makes the handler of a ready validator add the connection under the key. -/
inductive Adds (maxPendingConnections : ℕ) (s : Network) : NetworkEvent → Str → Connection → Prop
  | probed {place : ℕ} {k : Str} {c : Connection} : s.tasks[place]? = some (.probed k c) →
      Adds maxPendingConnections s (.resume place) k c
  | setup {place : ℕ} {c : Connection} {timeoutId : ℕ} : s.tasks[place]? = some (.setup c) →
      s.pendingConnections.get c.remotePublicKey =
        some { type := some "validator".toList, timeoutId } →
      s.isProbed c → Adds maxPendingConnections s (.resume place) c.remotePublicKey c
  | found {k : Str} {c : Connection} : s.pendingConnections.get k = none →
      s.pendingConnections.keys.length < maxPendingConnections → c ∈ s.opened →
      s.requests.service.isProbePending c.remotePublicKey = false → s.isProbed c →
      Adds maxPendingConnections s (.tryConnect k (some "validator".toList) (some c)) k c

/-- What a step does that adds no validator. -/
inductive Effect (s s' : Network) : Prop
  | same (h : s'.view = s.view)
  | chosen (c : Connection) (p : Protocol) (hnone : s.preferredProtocol.get c = none)
      (h : s'.view = (s.manager, s.healthChecks, s.preferredProtocol.put c p))
  | unwatched (k : Str) (hnone : s.manager.getConnection k = none)
      (h : s'.view = (s.manager, s.healthChecks.stop k, s.preferredProtocol))
  | removed (k : Str)
      (h : s'.view = (s.manager.remove k, s.healthChecks.stop k, s.preferredProtocol))
  | listening (c : Connection)
      (h : s'.view =
        (s.manager.onClose c c.remotePublicKey, s.healthChecks, s.preferredProtocol))
  | closed (c : Connection)
      (h : s'.view =
        ({ (s.manager.closeKeys c).foldl ConnectionManager.remove s.manager with
            closed :=
              c :: ((s.manager.closeKeys c).foldl ConnectionManager.remove s.manager).closed },
          s.healthChecks.filter (· ∉ s.manager.closeKeys c), s.preferredProtocol))

theorem stop_stop (service : ValidatorHealthCheckService) :
    (service.stop k).stop k = service.stop k := by
  simp [ValidatorHealthCheckService.stop]

theorem mem_stop {service : ValidatorHealthCheckService} {k' : Str} :
    k' ∈ service.stop k ↔ k' ∈ service ∧ k' ≠ k := by
  simp [ValidatorHealthCheckService.stop]

theorem mem_start {service : ValidatorHealthCheckService} {k' : Str} :
    k' ∈ service.start k ↔ k' = k ∨ k' ∈ service := by
  unfold ValidatorHealthCheckService.start
  split
  case isTrue hmem =>
    exact (or_iff_right_of_imp fun heq => heq ▸ List.contains_iff_mem.mp hmem).symm
  case isFalse => exact List.mem_cons

/-! #### The operations -/

theorem view_addReady : (s.addReady maxValidators k c).view = s.addedView maxValidators k c := by
  have hsupported : ((s.addValidator maxValidators k c).isHealthCheckSupported c).getD false =
      decide (s.preferredProtocol.get c = some .v1) := by
    show ((s.preferredProtocol.get c).map fun protocol => decide (protocol = .v1)).getD false = _
    cases s.preferredProtocol.get c <;> simp
  rw [addReady, watch, hsupported, addedView]
  simp only [decide_eq_true_eq]
  split <;> rfl

theorem view_connectionReady {type : Option Str} :
    (s.connectionReady maxValidators k type c).view =
      if (s.pendingConnections.get k).isSome ∧ type = some "validator".toList ∧ s.isProbed c then
        s.addedView maxValidators k c
      else s.view := by
  unfold connectionReady
  cases hentry : s.pendingConnections.get k with
  | none => rfl
  | some entry =>
    by_cases htype : type = some "validator".toList
    · by_cases hprobed : s.isProbed c
      · have hprobed' : (s.endAttempt k entry.timeoutId (.ready c)).isProbed c := hprobed
        dsimp only
        rw [if_pos htype, validatorReady, if_pos hprobed', if_pos ⟨rfl, htype, hprobed⟩,
          view_addReady]
        rfl
      · have hprobed' : ¬(s.endAttempt k entry.timeoutId (.ready c)).isProbed c := hprobed
        dsimp only
        rw [if_pos htype, validatorReady, if_neg hprobed', if_neg fun h => hprobed h.2.2]
        rfl
    · dsimp only
      rw [if_neg htype, if_neg fun h => htype h.2.1]
      rfl

theorem view_finalizeConnection {type : Option Str} :
    (s.finalizeConnection maxValidators k type c).view =
      if (s.pendingConnections.get k).isSome ∧ type = some "validator".toList ∧ s.isProbed c then
        s.addedView maxValidators k c
      else s.view := by
  unfold finalizeConnection
  split
  case isTrue => exact view_connectionReady
  case isFalse h => rw [if_neg fun h' => h h'.1]

theorem view_beginAttempt_finalizeConnection {type : Option Str} :
    ((s.beginAttempt k type).finalizeConnection maxValidators k type c).view =
      if type = some "validator".toList ∧ s.isProbed c then s.addedView maxValidators k c
      else s.view := by
  rw [view_finalizeConnection, beginAttempt, Store.get_put_self]
  simp only [Option.isSome_some, true_and]
  rfl

@[simp] theorem view_send (message : NetworkMessage) (sent : Bool) :
    (s.send c maxPendingRequests message sent).2.view = s.view := by
  unfold send
  split <;> rfl

@[simp] theorem view_sendHealthCheck : (s.sendHealthCheck c k).view = s.view := by
  unfold sendHealthCheck
  split <;> rfl

theorem effect_setPreferredProtocol {t : Network} (p : Protocol) (h : s.view = t.view) :
    Effect t (s.setPreferredProtocol c p) := by
  simp only [view, Prod.mk.injEq] at h
  obtain ⟨hmanager, hchecks, hpreferred⟩ := h
  unfold setPreferredProtocol
  split
  case isTrue => exact .same (by simp only [view, hmanager, hchecks, hpreferred])
  case isFalse hprobed =>
    rw [isProbed, Option.not_isSome_iff_eq_none, hpreferred] at hprobed
    exact .chosen c p hprobed (by simp only [view, hmanager, hchecks, hpreferred])

theorem Effect.congr {t : Network} (h : Effect s s') (heq : t.view = s'.view) : Effect s t := by
  cases h with
  | same h => exact .same (heq.trans h)
  | chosen c p hnone h => exact .chosen c p hnone (heq.trans h)
  | unwatched k hnone h => exact .unwatched k hnone (heq.trans h)
  | removed k h => exact .removed k (heq.trans h)
  | listening c h => exact .listening c (heq.trans h)
  | closed c h => exact .closed c (heq.trans h)

theorem effect_healthCheckHandler : Effect s (s.healthCheckHandler k) := by
  unfold healthCheckHandler
  cases hconnection : s.manager.getConnection k with
  | none =>
    refine .unwatched k hconnection ?_
    rw [if_pos (.inr (by simp [ConnectionManager.connected, hconnection]))]
    rfl
  | some c =>
    split
    case isTrue hnot =>
      have hexists : s.manager.exists_ k := by
        rw [ConnectionManager.getConnection, Option.bind_eq_some_iff] at hconnection
        obtain ⟨entry, hentry, -⟩ := hconnection
        rw [ConnectionManager.exists_, hentry, Option.isSome_some]
      have hconnected : s.manager.connected k := by
        simp [ConnectionManager.connected, hexists, hconnection]
      exact absurd hnot (by simp [hexists, hconnected])
    case isFalse => exact .same view_sendHealthCheck

theorem effect_finishHealthCheck {t : Network} (resultCode : ℕ) (h : s.view = t.view) :
    Effect t (s.finishHealthCheck k resultCode) := by
  simp only [view, Prod.mk.injEq] at h
  obtain ⟨hmanager, hchecks, hpreferred⟩ := h
  unfold finishHealthCheck
  split
  case isTrue => exact .same (by simp only [view, hmanager, hchecks, hpreferred])
  case isFalse =>
    refine .removed k ?_
    simp only [view, stopHealthCheck, remove, stop_stop, hmanager, hchecks, hpreferred]

theorem view_foldl_remove (keys : List Str) :
    (keys.foldl remove s).view =
      (keys.foldl ConnectionManager.remove s.manager, s.healthChecks.filter (· ∉ keys),
        s.preferredProtocol) := by
  induction keys generalizing s with
  | nil => simp [view]
  | cons k keys ih =>
    rw [List.foldl_cons, ih, List.foldl_cons]
    simp only [remove, stopHealthCheck, ValidatorHealthCheckService.stop, List.filter_filter,
      Prod.mk.injEq, true_and, and_true]
    exact List.filter_congr fun k' _ => by
      by_cases heq : k' = k <;> simp [heq]

theorem effect_close : Effect s (s.close c) := by
  refine .closed c ?_
  have hrequests : (if c ∈ s.listening then
      s.rejectPendingRequestsForPeer c.remotePublicKey .connectionClosed else s).view = s.view := by
    split <;> rfl
  generalize hreject : (if c ∈ s.listening then
    s.rejectPendingRequestsForPeer c.remotePublicKey .connectionClosed else s) = t at hrequests
  have hview := view_foldl_remove (s := t) (s.manager.closeKeys c)
  simp only [view, Prod.mk.injEq] at hrequests hview
  obtain ⟨hmanager, hchecks, hpreferred⟩ := hrequests
  rw [close, hreject]
  simp only [view, hmanager, hchecks, hpreferred] at hview ⊢
  obtain ⟨hmanager', hchecks', hpreferred'⟩ := hview
  rw [hmanager', hchecks', hpreferred']


/-! #### Steps -/

/-- A step with a validator that is ready. -/
theorem step_added (hs : step env wallet maxValidators maxPendingConnections maxPendingRequests
      schema s e = some s') (h : s.Adds maxPendingConnections e k c) :
    s'.view = s.addedView maxValidators k c := by
  cases h with
  | probed hplace =>
    simp only [step, hplace, Option.bind_eq_bind, Option.bind_some, goOn] at hs
    cases hs
    exact view_addReady
  | setup hplace hpending hprobed =>
    simp only [step, hplace, Option.bind_eq_bind, Option.bind_some, goOn,
      handleConnection, drop, hpending] at hs
    cases hs
    refine view_finalizeConnection.trans ?_
    rw [if_pos]
    · rfl
    · exact ⟨by rw [hpending, Option.isSome_some], rfl, hprobed⟩
  | found hnone hlt hopened hpending hprobed =>
    simp only [step, Option.bind_eq_bind, Option.bind_eq_some_iff] at hs
    obtain ⟨-, -, hs⟩ := hs
    cases hs
    rw [tryConnect, if_neg (by simp [hnone, hlt])]
    dsimp only
    rw [if_pos ⟨hopened, Bool.eq_false_iff.mp hpending⟩]
    exact view_beginAttempt_finalizeConnection.trans (if_pos ⟨rfl, hprobed⟩)

theorem effect_tryConnect {type : Option Str} {found : Option Connection}
    (h : ∀ k' c', ¬s.Adds maxPendingConnections (.tryConnect k type found) k' c') :
    Effect s (s.tryConnect maxValidators maxPendingConnections k type found).2 := by
  unfold tryConnect
  split
  case isTrue => exact .same rfl
  case isFalse hfree =>
    rw [not_or, Option.not_isSome_iff_eq_none, Nat.not_le] at hfree
    cases found with
    | none => exact .same rfl
    | some c =>
      dsimp only
      split
      case isFalse => exact .same rfl
      case isTrue hfound =>
        refine .same (view_beginAttempt_finalizeConnection.trans (if_neg ?_))
        rintro ⟨rfl, hprobed⟩
        exact h k c (.found hfree.1 hfree.2 hfound.1 (Bool.eq_false_iff.mpr hfound.2) hprobed)

theorem effect_goOnBuilt {place now : ℕ} {nonce : Buffer} {id : Str} {sent : Bool} {task : Task}
    (hs : (s.drop place).goOnBuilt env wallet maxPendingRequests now nonce id sent task = some s') :
    Effect s s' := by
  unfold goOnBuilt at hs
  split at hs
  case h_1 =>
    split at hs
    case h_1 =>
      cases hs
      exact (effect_setPreferredProtocol (s := s.drop place) (t := s) .legacy rfl).congr rfl
    case h_2 =>
      cases hs
      exact .same (view_send _ _)
  case h_2 =>
    split at hs
    case h_1 =>
      cases hs
      exact .same rfl
    case h_2 =>
      cases hs
      exact .same (view_send _ _)
  case h_3 => cases hs

theorem effect_goOn {place : ℕ} {task : Task} (hplace : s.tasks[place]? = some task)
    (h : ∀ k' c', ¬s.Adds maxPendingConnections (.resume place) k' c')
    (hs : (s.drop place).goOn maxValidators task = some s') : Effect s s' := by
  cases task with
  | setup c =>
    cases hs
    unfold handleConnection
    split
    case h_1 type timeoutId hpending =>
      refine .same (view_finalizeConnection.trans (if_neg ?_))
      rintro ⟨-, rfl, hprobed⟩
      exact h _ _ (.setup hplace hpending hprobed)
    case h_2 => exact .listening c rfl
  | finalized c =>
    cases hs
    exact .listening c rfl
  | probe k c => cases hs
  | probeSent k c reply =>
    simp only [goOn, Option.bind_eq_bind, Option.bind_eq_some_iff] at hs
    obtain ⟨outcome, -, hs⟩ := hs
    cases hs
    split
    case isTrue =>
      exact (effect_setPreferredProtocol (s := s.drop place) (t := s) .v1 rfl).congr rfl
    case isFalse =>
      exact (effect_setPreferredProtocol (s := s.drop place) (t := s) .legacy rfl).congr rfl
  | probed k c => exact absurd (.probed hplace) (h k c)
  | check k c => cases hs
  | checkSent k reply =>
    simp only [goOn, Option.bind_eq_bind, Option.bind_eq_some_iff] at hs
    obtain ⟨outcome, -, hs⟩ := hs
    cases hs
    exact .same rfl
  | checked k resultCode =>
    cases hs
    exact effect_finishHealthCheck (s := s.drop place) resultCode rfl

/-- A step without a validator that is ready. -/
theorem step_effect (hs : step env wallet maxValidators maxPendingConnections maxPendingRequests
      schema s e = some s') (h : ∀ k c, ¬s.Adds maxPendingConnections e k c) : Effect s s' := by
  have hfollows := follows_of_step hs
  cases e with
  | tryConnect k type found =>
    cases hfollows
    exact effect_tryConnect h
  | timeout n =>
    simp only [Follows, timeout, Option.bind_eq_bind, Option.bind_eq_some_iff] at hfollows
    obtain ⟨k, -, hs⟩ := hfollows
    split at hs
    case h_1 =>
      cases hs
      exact .same rfl
    case h_2 =>
      cases hs
      exact .same rfl
  | connection c =>
    cases hfollows
    exact .same rfl
  | received c p =>
    cases hfollows
    exact effect_setPreferredProtocol p rfl
  | built place now nonce id sent =>
    obtain ⟨task, hs⟩ := hfollows
    exact effect_goOnBuilt hs
  | resume place =>
    obtain ⟨task, hplace, hs⟩ := hfollows
    exact effect_goOn hplace h hs
  | healthCheck k =>
    cases hfollows
    exact effect_healthCheckHandler
  | remove k =>
    cases hfollows
    exact .removed k rfl
  | requests event =>
    obtain ⟨requests, -, rfl⟩ := hfollows
    exact .same rfl
  | close c =>
    cases hfollows
    exact effect_close
  | error c =>
    cases hfollows
    exact .same rfl

/-! #### What every run keeps -/

/-- The pool is sound, and its sessions are probed, as are those of the handlers that go on. -/
structure Kept (maxValidators : ℕ) (s : Network) : Prop where
  sound : s.manager.Sound maxValidators
  probed : ∀ k c, s.manager.getConnection k = some c → s.isProbed c
  task : ∀ k c, .probed k c ∈ s.tasks → s.isProbed c

theorem kept_init : init.Kept maxValidators where
  sound := ConnectionManager.sound_init
  probed := fun _ _ h => absurd h (by simp [init, ConnectionManager.init,
    ConnectionManager.getConnection])
  task := fun _ _ h => absurd h List.not_mem_nil

/-- A choice stays. -/
theorem preferredProtocol_step (hs : step env wallet maxValidators maxPendingConnections
      maxPendingRequests schema s e = some s') {p : Protocol}
    (hp : s.preferredProtocol.get c = some p) : s'.preferredProtocol.get c = some p := by
  by_cases hadds : ∃ k c, s.Adds maxPendingConnections e k c
  · obtain ⟨k, c', hadds⟩ := hadds
    have hview := step_added hs hadds
    simp only [view, addedView, Prod.mk.injEq] at hview
    rw [hview.2.2, hp]
  · have heffect := step_effect hs fun k c h => hadds ⟨k, c, h⟩
    cases heffect with
    | chosen c' p' hnone h =>
      simp only [view, Prod.mk.injEq] at h
      rw [h.2.2, Store.get_put, if_neg, hp]
      rintro rfl
      rw [hnone] at hp
      cases hp
    | same h | unwatched _ _ h | removed _ h | listening _ h | closed _ h =>
      simp only [view, Prod.mk.injEq] at h
      rw [h.2.2, hp]

/-! #### Every run -/

/-- A validator is added where there is none and the pool is not full. -/
theorem addValidator_eq {m : ConnectionManager} (h : m.Sound maxValidators) :
    m.addValidator maxValidators k c =
      if m.getConnection k = none ∧ m.validators.keys.length < maxValidators then
        (true, { m with
          validators := m.validators.put k { connection := some c, sent := 0 }
          handlers := m.handlers ++ [(c, k)] })
      else (false, m) := by
  have hmax : m.maxConnectionsReached maxValidators ↔
      ¬m.validators.keys.length < maxValidators := by
    rw [ConnectionManager.maxConnectionsReached, h.connectionCount_eq, decide_eq_true_eq,
      Nat.not_lt]
  rw [ConnectionManager.addValidator]
  by_cases hlt : m.validators.keys.length < maxValidators
  · rw [if_neg fun hreached => hmax.mp hreached hlt]
    cases hk : m.validators.get k with
    | none =>
      have hexists : ¬m.exists_ k := by simp [ConnectionManager.exists_, hk]
      have hget : m.getConnection k = none := by simp [ConnectionManager.getConnection, hk]
      rw [if_pos hexists, ConnectionManager.append, if_neg hexists, if_pos ⟨hget, hlt⟩]
      rfl
    | some entry =>
      have hexists : m.exists_ k := by simp [ConnectionManager.exists_, hk]
      have hget : m.getConnection k ≠ none := by
        rw [ConnectionManager.getConnection, hk, Option.bind_some]
        exact Option.isSome_iff_ne_none.mp (h.connected k entry hk)
      rw [if_neg (not_not_intro hexists), if_neg (not_not_intro (h.connected_iff.mpr hexists)),
        if_neg fun h => hget h.1]
  · rw [if_pos (hmax.mpr hlt), if_neg fun h => hlt h.2]

theorem sound_addValidator {m : ConnectionManager} (h : m.Sound maxValidators) :
    (m.addValidator maxValidators k c).2.Sound maxValidators := by
  obtain heq | ⟨hnone, hsize, heq⟩ := h.addValidator_cases k c
  · rw [heq]
    exact h
  · have hs : m.step maxValidators (.addValidator k c) =
        some ((m.addValidator maxValidators k c).2.record (.added k c)) := by
      rw [ConnectionManager.step, heq]
      rfl
    have hsound := h.step hs
    exact ⟨hsound.connected, hsound.size, hsound.handler⟩

theorem getConnection_addValidator {m : ConnectionManager} (h : m.Sound maxValidators)
    {k' : Str} :
    (m.addValidator maxValidators k c).2.getConnection k' =
      if k' = k ∧ m.getConnection k = none ∧ m.validators.keys.length < maxValidators then some c
      else m.getConnection k' := by
  rw [addValidator_eq h]
  by_cases hfree : m.getConnection k = none ∧ m.validators.keys.length < maxValidators
  · rw [if_pos hfree, ConnectionManager.getConnection, Store.get_put]
    by_cases heq : k' = k
    · rw [if_pos heq, if_pos ⟨heq, hfree⟩]
      rfl
    · rw [if_neg heq, if_neg fun h => heq h.1]
      rfl
  · rw [if_neg hfree, if_neg fun h => hfree h.2]

theorem isProbed_step (hs : step env wallet maxValidators maxPendingConnections
      maxPendingRequests schema s e = some s') (h : s.isProbed c) : s'.isProbed c := by
  obtain ⟨p, hp⟩ := Option.isSome_iff_exists.mp h
  rw [isProbed, preferredProtocol_step hs hp, Option.isSome_some]

/-- A connection that is added is probed. -/
theorem Kept.isProbed_of_adds (h : s.Kept maxValidators)
    (hadds : s.Adds maxPendingConnections e k c) : s.isProbed c := by
  cases hadds with
  | probed hplace => exact h.task k c (List.mem_of_getElem? hplace)
  | setup _ _ hprobed => exact hprobed
  | found _ _ _ _ hprobed => exact hprobed

theorem Kept.step (h : s.Kept maxValidators) (hs : Network.step env wallet maxValidators
      maxPendingConnections maxPendingRequests schema s e = some s') : s'.Kept maxValidators := by
  have htask : ∀ k c, .probed k c ∈ s'.tasks → s'.isProbed c := fun k c hmem =>
    (waiting_step hs _ hmem).elim (fun hmem => isProbed_step hs (h.task k c hmem)) id
  by_cases hadds : ∃ k c, s.Adds maxPendingConnections e k c
  · obtain ⟨k, c, hadds⟩ := hadds
    have hview := step_added hs hadds
    simp only [view, addedView, Prod.mk.injEq] at hview
    obtain ⟨hmanager, -, -⟩ := hview
    refine ⟨hmanager ▸ sound_addValidator h.sound, fun k' c' hk' => ?_, htask⟩
    rw [hmanager, getConnection_addValidator h.sound] at hk'
    split at hk'
    case isTrue =>
      cases hk'
      exact isProbed_step hs (h.isProbed_of_adds hadds)
    case isFalse => exact isProbed_step hs (h.probed k' c' hk')
  · have hsound : s'.manager.Sound maxValidators ∧
        ∀ k c, s'.manager.getConnection k = some c → s.manager.getConnection k = some c := by
      cases step_effect hs fun k c h => hadds ⟨k, c, h⟩ with
      | same heq | chosen _ _ _ heq | unwatched _ _ heq =>
        simp only [view, Prod.mk.injEq] at heq
        rw [heq.1]
        exact ⟨h.sound, fun _ _ => id⟩
      | removed k heq =>
        simp only [view, Prod.mk.injEq] at heq
        rw [heq.1]
        refine ⟨h.sound.remove k, fun k' c hk' => ?_⟩
        rw [ConnectionManager.getConnection_remove] at hk'
        split at hk'
        case isTrue => cases hk'
        case isFalse => exact hk'
      | listening c heq =>
        simp only [view, Prod.mk.injEq] at heq
        rw [heq.1]
        exact ⟨h.sound.onClose, fun _ _ => id⟩
      | closed c heq =>
        simp only [view, Prod.mk.injEq] at heq
        rw [heq.1]
        have hsound := h.sound.foldl_remove (s.manager.closeKeys c)
        refine ⟨⟨hsound.connected, hsound.size, hsound.handler⟩, fun k' c' hk' => ?_⟩
        replace hk' : ((s.manager.closeKeys c).foldl ConnectionManager.remove
          s.manager).getConnection k' = some c' := hk'
        rw [ConnectionManager.getConnection_foldl_remove] at hk'
        split at hk'
        case isTrue => cases hk'
        case isFalse => exact hk'
    exact ⟨hsound.1, fun k c hk => isProbed_step hs (h.probed k c (hsound.2 k c hk)), htask⟩


/-! ### Health checks -/

/-- The validators in the pool whose sessions speak V1 are watched, and no others. -/
def Monitored (s : Network) : Prop :=
  ∀ k, k ∈ s.healthChecks ↔
    ∃ c, s.manager.getConnection k = some c ∧ s.preferredProtocol.get c = some .v1

/-- A ready validator has a session like the one that the pool has for it, or it finds a place if it
speaks V1. -/
def Suited (maxValidators maxPendingConnections : ℕ) (s : Network) (e : NetworkEvent) : Prop :=
  ∀ k c, s.Adds maxPendingConnections e k c →
    match s.manager.getConnection k with
    | some c' => s.preferredProtocol.get c = some .v1 ↔ s.preferredProtocol.get c' = some .v1
    | none => s.preferredProtocol.get c = some .v1 →
        s.manager.validators.keys.length < maxValidators

theorem Kept.monitored_iff_of_adds (h : s.Kept maxValidators) (hm : s.Monitored)
    (hs : Network.step env wallet maxValidators maxPendingConnections maxPendingRequests schema s
      e = some s') (hadds : s.Adds maxPendingConnections e k c) :
    s'.Monitored ↔
      match s.manager.getConnection k with
      | some c' => s.preferredProtocol.get c = some .v1 ↔ s.preferredProtocol.get c' = some .v1
      | none => s.preferredProtocol.get c = some .v1 →
          s.manager.validators.keys.length < maxValidators := by
  have hview := step_added hs hadds
  simp only [view, addedView, Prod.mk.injEq] at hview
  obtain ⟨hmanager, hchecks, hpreferred⟩ := hview
  have hself : k ∈ s'.healthChecks ↔ s.preferredProtocol.get c = some .v1 := by
    rw [hchecks]
    split
    case isTrue hv1 => exact iff_of_true (mem_start.mpr (.inl rfl)) hv1
    case isFalse hv1 => exact iff_of_false (fun hmem => (mem_stop.mp hmem).2 rfl) hv1
  have hother : ∀ k' ≠ k, (k' ∈ s'.healthChecks ↔ k' ∈ s.healthChecks) := by
    intro k' hne
    rw [hchecks]
    split
    case isTrue => exact mem_start.trans (or_iff_right hne)
    case isFalse => exact mem_stop.trans (and_iff_left hne)
  -- Only the key of the validator can be wrong.
  have hkey : s'.Monitored ↔ (s.preferredProtocol.get c = some .v1 ↔
      ∃ c', s'.manager.getConnection k = some c' ∧ s.preferredProtocol.get c' = some .v1) := by
    constructor
    · intro hmonitored
      rw [← hself, ← hpreferred]
      exact hmonitored k
    · intro hiff k'
      by_cases heq : k' = k
      · subst heq
        rw [hself, hpreferred]
        exact hiff
      · rw [hother k' heq, hm k', hmanager, hpreferred]
        rw [getConnection_addValidator h.sound, if_neg fun h => heq h.1]
  rw [hkey, hmanager, getConnection_addValidator h.sound]
  cases hk : s.manager.getConnection k with
  | some c' =>
    rw [if_neg fun h => Option.some_ne_none _ h.2.1]
    simp
  | none =>
    by_cases hlt : s.manager.validators.keys.length < maxValidators
    · rw [if_pos ⟨rfl, rfl, hlt⟩]
      simp [hlt]
    · rw [if_neg fun h => hlt h.2.2]
      simp [hlt]

theorem Kept.monitored_of_effect (h : s.Kept maxValidators) (hm : s.Monitored)
    (heffect : Effect s s') : s'.Monitored := by
  intro k'
  cases heffect with
  | same heq =>
    simp only [view, Prod.mk.injEq] at heq
    rw [heq.1, heq.2.1, heq.2.2]
    exact hm k'
  | chosen c p hnone heq =>
    simp only [view, Prod.mk.injEq] at heq
    rw [heq.1, heq.2.1, heq.2.2, hm k']
    refine exists_congr fun c' => and_congr_right fun hk' => ?_
    rw [Store.get_put, if_neg]
    rintro rfl
    -- The sessions of the pool are probed.
    have hprobed := h.probed k' c' hk'
    rw [isProbed, hnone] at hprobed
    cases hprobed
  | unwatched k hnone heq =>
    simp only [view, Prod.mk.injEq] at heq
    rw [heq.1, heq.2.1, heq.2.2, mem_stop, hm k', and_iff_left_iff_imp]
    rintro ⟨c, hk', -⟩ rfl
    rw [hnone] at hk'
    cases hk'
  | removed k heq =>
    simp only [view, Prod.mk.injEq] at heq
    rw [heq.1, heq.2.1, heq.2.2, mem_stop, hm k', ConnectionManager.getConnection_remove]
    by_cases hk : k' = k
    · simp [hk]
    · simp [hk]
  | listening c heq =>
    simp only [view, Prod.mk.injEq] at heq
    rw [heq.1, heq.2.1, heq.2.2]
    exact hm k'
  | closed c heq =>
    simp only [view, Prod.mk.injEq] at heq
    have hget : s'.manager.getConnection k' =
        if k' ∈ s.manager.closeKeys c then none else s.manager.getConnection k' := by
      rw [heq.1]
      exact ConnectionManager.getConnection_foldl_remove
    rw [hget, heq.2.1, heq.2.2, List.mem_filter, hm k']
    by_cases hk : k' ∈ s.manager.closeKeys c
    · simp [hk]
    · simp [hk]

theorem Kept.monitored_iff (h : s.Kept maxValidators) (hm : s.Monitored)
    (hs : Network.step env wallet maxValidators maxPendingConnections maxPendingRequests schema s
      e = some s') : s'.Monitored ↔ s.Suited maxValidators maxPendingConnections e := by
  by_cases hadds : ∃ k c, s.Adds maxPendingConnections e k c
  · constructor
    · exact fun hm' k c hadds => (h.monitored_iff_of_adds hm hs hadds).mp hm'
    · intro hsuited
      obtain ⟨k, c, hadds⟩ := hadds
      exact (h.monitored_iff_of_adds hm hs hadds).mpr (hsuited k c hadds)
  · have hnone : ∀ k c, ¬s.Adds maxPendingConnections e k c := fun k c h => hadds ⟨k, c, h⟩
    exact iff_of_true (h.monitored_of_effect hm (step_effect hs hnone))
      fun k c hadds => absurd hadds (hnone k c)

theorem monitored_init : init.Monitored :=
  fun _ => iff_of_false List.not_mem_nil fun ⟨_, h, _⟩ => absurd h (by
    simp [init, ConnectionManager.init, ConnectionManager.getConnection])

/-- The validators with a health check are in every state of a run those of the pool whose sessions
speak V1, exactly if every validator that becomes ready is suited. -/
theorem monitored_along_iff (env : Env) (wallet : Wallet)
    (maxValidators maxPendingConnections maxPendingRequests : ℕ) (schema : NetworkMessage → Bool)
    (es : List NetworkEvent) :
    Machine.Along
        (step env wallet maxValidators maxPendingConnections maxPendingRequests schema)
        (fun _ _ s' => s'.Monitored) .init es ↔
      Machine.Along
        (step env wallet maxValidators maxPendingConnections maxPendingRequests schema)
        (fun s e _ => s.Suited maxValidators maxPendingConnections e) .init es := by
  refine Machine.along_iff (I := fun s : Network => s.Kept maxValidators ∧ s.Monitored) ?_ ?_
    ⟨kept_init, monitored_init⟩
  · rintro s e s' ⟨h, hm⟩ hs hsuited
    exact ⟨h.step hs, (h.monitored_iff hm hs).mpr hsuited⟩
  · rintro s e s' ⟨h, hm⟩ hs
    exact h.monitored_iff hm hs

/-! ### Closed connections -/

/-- The pool holds no connection that has closed. -/
def Live (s : Network) : Prop :=
  ∀ k c, s.manager.getConnection k = some c → c ∉ s.manager.closed

/-- A ready validator whose connection has closed finds no place. -/
def Open (maxValidators maxPendingConnections : ℕ) (s : Network) (e : NetworkEvent) : Prop :=
  ∀ k c, s.Adds maxPendingConnections e k c → c ∈ s.manager.closed →
    s.manager.getConnection k = none → maxValidators ≤ s.manager.validators.keys.length

theorem closed_remove {m : ConnectionManager} : (m.remove k).closed = m.closed := by
  unfold ConnectionManager.remove
  split <;> rfl

theorem closed_foldl_remove {m : ConnectionManager} (keys : List Str) :
    (keys.foldl ConnectionManager.remove m).closed = m.closed := by
  induction keys generalizing m with
  | nil => rfl
  | cons k keys ih => exact ih.trans closed_remove

theorem closed_addValidator {m : ConnectionManager} (h : m.Sound maxValidators) :
    (m.addValidator maxValidators k c).2.closed = m.closed := by
  rw [addValidator_eq h]
  split <;> rfl

theorem Kept.live_iff_of_adds (h : s.Kept maxValidators) (hl : s.Live)
    (hs : Network.step env wallet maxValidators maxPendingConnections maxPendingRequests schema s
      e = some s') (hadds : s.Adds maxPendingConnections e k c) :
    s'.Live ↔ (c ∈ s.manager.closed → s.manager.getConnection k = none →
      maxValidators ≤ s.manager.validators.keys.length) := by
  have hview := step_added hs hadds
  simp only [view, addedView, Prod.mk.injEq] at hview
  obtain ⟨hmanager, -, -⟩ := hview
  rw [Live, hmanager, closed_addValidator h.sound]
  constructor
  · intro hlive hclosed hnone
    by_contra hlt
    refine hlive k c ?_ hclosed
    rw [getConnection_addValidator h.sound, if_pos ⟨rfl, hnone, Nat.not_le.mp hlt⟩]
  · intro hopen k' c' hk'
    rw [getConnection_addValidator h.sound] at hk'
    split at hk'
    case isTrue hadded =>
      cases hk'
      exact fun hclosed => absurd (hopen hclosed hadded.2.1) (Nat.not_le.mpr hadded.2.2)
    case isFalse => exact hl k' c' hk'

/-- A close event takes its connection out of the pool. -/
theorem Kept.live_of_effect (h : s.Kept maxValidators) (hl : s.Live) (heffect : Effect s s') :
    s'.Live := by
  intro k' c' hk'
  cases heffect with
  | same heq | chosen _ _ _ heq | unwatched _ _ heq =>
    simp only [view, Prod.mk.injEq] at heq
    rw [heq.1] at hk' ⊢
    exact hl k' c' hk'
  | removed k heq =>
    simp only [view, Prod.mk.injEq] at heq
    rw [heq.1, ConnectionManager.getConnection_remove] at hk'
    rw [heq.1, closed_remove]
    split at hk'
    case isTrue => cases hk'
    case isFalse => exact hl k' c' hk'
  | listening c heq =>
    simp only [view, Prod.mk.injEq] at heq
    rw [heq.1] at hk' ⊢
    exact hl k' c' hk'
  | closed c heq =>
    simp only [view, Prod.mk.injEq] at heq
    rw [heq.1] at hk'
    replace hk' : ((s.manager.closeKeys c).foldl ConnectionManager.remove
      s.manager).getConnection k' = some c' := hk'
    rw [ConnectionManager.getConnection_foldl_remove] at hk'
    split at hk'
    case isTrue => cases hk'
    case isFalse hkeys =>
      rw [heq.1]
      refine fun hclosed => (List.mem_cons.mp hclosed).elim ?_ ?_
      · rintro rfl
        exact hkeys (ConnectionManager.mem_closeKeys.mpr (h.sound.handler k' c' hk'))
      · rw [closed_foldl_remove]
        exact hl k' c' hk'

theorem Kept.live_iff (h : s.Kept maxValidators) (hl : s.Live)
    (hs : Network.step env wallet maxValidators maxPendingConnections maxPendingRequests schema s
      e = some s') : s'.Live ↔ s.Open maxValidators maxPendingConnections e := by
  by_cases hadds : ∃ k c, s.Adds maxPendingConnections e k c
  · constructor
    · exact fun hl' k c hadds => (h.live_iff_of_adds hl hs hadds).mp hl'
    · intro hopen
      obtain ⟨k, c, hadds⟩ := hadds
      exact (h.live_iff_of_adds hl hs hadds).mpr (hopen k c hadds)
  · have hnone : ∀ k c, ¬s.Adds maxPendingConnections e k c := fun k c h => hadds ⟨k, c, h⟩
    exact iff_of_true (h.live_of_effect hl (step_effect hs hnone))
      fun k c hadds => absurd hadds (hnone k c)

theorem live_init : init.Live :=
  fun _ _ _ => List.not_mem_nil

/-- The pool holds in every state of a run only connections that have not closed, exactly if every
validator that becomes ready has such a connection, or finds no place. -/
theorem live_along_iff (env : Env) (wallet : Wallet)
    (maxValidators maxPendingConnections maxPendingRequests : ℕ) (schema : NetworkMessage → Bool)
    (es : List NetworkEvent) :
    Machine.Along
        (step env wallet maxValidators maxPendingConnections maxPendingRequests schema)
        (fun _ _ s' => s'.Live) .init es ↔
      Machine.Along
        (step env wallet maxValidators maxPendingConnections maxPendingRequests schema)
        (fun s e _ => s.Open maxValidators maxPendingConnections e) .init es := by
  refine Machine.along_iff (I := fun s : Network => s.Kept maxValidators ∧ s.Live) ?_ ?_
    ⟨kept_init, live_init⟩
  · rintro s e s' ⟨h, hl⟩ hs hopen
    exact ⟨h.step hs, (h.live_iff hl hs).mpr hopen⟩
  · rintro s e s' ⟨h, hl⟩ hs
    exact h.live_iff hl hs

end Network

namespace Sample

/-- The connection closes while its probe waits for a response. -/
def closedProbe : List NetworkEvent :=
  [.tryConnect peerKey (some "validator".toList) none, .connection firstConnection, .resume 0,
    .resume 1, .built 0 probe.timestamp probeNonce messageId true, .close firstConnection,
    .resume 0, .resume 0]

/-- The pool holds a closed connection, which no health check will find. -/
theorem not_live_closedProbe :
    (Machine.run (Network.step messaging aliceNode 8 50 100 fun _ => true) .init closedProbe).map
        (fun s => (s.manager.getConnection peerKey, s.manager.closed, s.healthChecks, s.tasks)) =
      some (some firstConnection, [firstConnection], [], []) := by
  decide +kernel

end Sample

end SettlementBus
