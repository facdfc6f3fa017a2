import SettlementBus.Network.Lifecycle
import SettlementBus.Properties.Connection
import SettlementBus.Properties.Exchange
import SettlementBus.Properties.Settlement

/-! The functions of a node that wait, and the probes among them. -/

namespace SettlementBus

open Lib

namespace Network

variable {env : Env} {wallet : Wallet} {maxValidators maxPendingConnections maxPendingRequests : ℕ}
  {schema : NetworkMessage → Bool} {s s' : Network} {e : NetworkEvent} {k : Str} {c : Connection}
  {promise : ℕ}

/-- A liveness request to the peer of the connection is pending under the promise, or it is
settled. -/
def Asks (s : Network) (c : Connection) (promise : ℕ) : Prop :=
  (s.requests.service.settlement promise).isSome ∨
    ∃ x ∈ s.requests.service.entries, x.promise = promise ∧
      x.data.requestType = .livenessRequest ∧ x.data.requestedTo = c.remotePublicKey

/-- What holds when a function begins to wait. -/
def Begun (s : Network) : Task → Prop
  | .probed _ c => s.isProbed c
  | .probeSent _ c (.promise promise) => s.Asks c promise
  | _ => True

/-- The functions wait that have waited before, and those that have begun to. -/
def Waiting (s s' : Network) : Prop := ∀ task ∈ s'.tasks, task ∈ s.tasks ∨ s'.Begun task

theorem waiting_of_tasks (h : s'.tasks = s.tasks) : s.Waiting s' :=
  fun _ hmem => .inl (h ▸ hmem)

theorem waiting_await {task : Task} (h : s'.tasks = s.tasks) (hbegun : (s'.await task).Begun task) :
    s.Waiting (s'.await task) := by
  intro task' hmem
  obtain hmem | hmem := List.mem_append.mp hmem
  · exact .inl (h ▸ hmem)
  · rw [List.mem_singleton] at hmem
    exact .inr (hmem ▸ hbegun)

theorem Waiting.of_drop {place : ℕ} (h : (s.drop place).Waiting s') : s.Waiting s' :=
  fun task hmem => (h task hmem).imp_left List.mem_of_mem_eraseIdx

@[simp] theorem tasks_setPreferredProtocol (p : Protocol) :
    (s.setPreferredProtocol c p).tasks = s.tasks := by
  unfold setPreferredProtocol
  split <;> rfl

@[simp] theorem tasks_send (message : NetworkMessage) (sent : Bool) :
    (s.send c maxPendingRequests message sent).2.tasks = s.tasks := by
  unfold send
  split <;> rfl

@[simp] theorem tasks_addReady : (s.addReady maxValidators k c).tasks = s.tasks := by
  unfold addReady watch
  split <;> rfl

theorem tasks_foldl_remove (keys : List Str) : (keys.foldl remove s).tasks = s.tasks := by
  induction keys generalizing s with
  | nil => rfl
  | cons k keys ih => exact ih.trans rfl

theorem tasks_close : (s.close c).tasks = s.tasks := by
  refine (tasks_foldl_remove _).trans ?_
  split <;> rfl

theorem isProbed_setPreferredProtocol (p : Protocol) :
    (s.setPreferredProtocol c p).isProbed c := by
  unfold setPreferredProtocol
  split
  case isTrue h => exact h
  case isFalse => simp [isProbed]

theorem waiting_sendHealthCheck : s.Waiting (s.sendHealthCheck c k) := by
  unfold sendHealthCheck
  split
  · exact waiting_await rfl trivial
  · exact waiting_await rfl trivial
  · exact waiting_await rfl trivial

theorem waiting_healthCheckHandler : s.Waiting (s.healthCheckHandler k) := by
  unfold healthCheckHandler
  split
  case isTrue => exact waiting_of_tasks rfl
  case isFalse =>
    split
    case h_1 => exact waiting_of_tasks rfl
    case h_2 => exact waiting_sendHealthCheck

theorem waiting_validatorReady : s.Waiting (s.validatorReady maxValidators k c) := by
  unfold validatorReady
  split
  case isTrue => exact waiting_of_tasks tasks_addReady
  case isFalse => exact waiting_await rfl trivial

theorem waiting_connectionReady {type : Option Str} :
    s.Waiting (s.connectionReady maxValidators k type c) := by
  unfold connectionReady
  split
  case h_1 => exact waiting_of_tasks rfl
  case h_2 entry _ =>
    dsimp only
    split
    case isTrue => exact waiting_validatorReady (s := s.endAttempt k entry.timeoutId (.ready c))
    case isFalse => exact waiting_of_tasks rfl

theorem waiting_finalizeConnection {type : Option Str} :
    s.Waiting (s.finalizeConnection maxValidators k type c) := by
  unfold finalizeConnection
  split
  case isTrue => exact waiting_connectionReady
  case isFalse => exact waiting_of_tasks rfl

theorem waiting_tryConnect {type : Option Str} {found : Option Connection} :
    s.Waiting (s.tryConnect maxValidators maxPendingConnections k type found).2 := by
  unfold tryConnect
  split
  case isTrue => exact waiting_of_tasks rfl
  case isFalse =>
    cases found with
    | none => exact waiting_of_tasks rfl
    | some c =>
      dsimp only
      split
      case isTrue => exact waiting_finalizeConnection (s := s.beginAttempt k type)
      case isFalse => exact waiting_of_tasks rfl

theorem begun_await {task task' : Task} (h : s.Begun task) : (s.await task').Begun task := h

theorem waiting_handleConnection : s.Waiting (s.handleConnection maxValidators c) := by
  unfold handleConnection
  split
  case h_1 type timeoutId _ =>
    intro task hmem
    obtain hmem | hmem := List.mem_append.mp hmem
    · refine (waiting_finalizeConnection _ hmem).imp_right begun_await
    · rw [List.mem_singleton] at hmem
      subst hmem
      exact .inr trivial
  case h_2 => exact waiting_of_tasks rfl

/-- A probe that is sent asks. -/
theorem asks_send {message : NetworkMessage} {sent : Bool} {promise : ℕ}
    (hmessage : message.payload.type = .livenessRequest)
    (h : (s.send c maxPendingRequests message sent).1 = .promise promise) :
    (s.send c maxPendingRequests message sent).2.Asks c promise := by
  unfold send at h ⊢
  split at h
  case h_1 => cases h
  case h_2 service hregister =>
    cases h
    simp only [PendingRequestService.registerPendingRequest, Option.bind_eq_bind,
      Option.bind_eq_some_iff, Option.guard_eq_some', exists_const, Option.pure_def,
      Option.some.injEq] at hregister
    obtain ⟨-, -, hnone, rfl⟩ := hregister
    cases sent with
    | true =>
      exact .inr ⟨_, Pending.mem_register.mpr (.inr rfl), rfl, hmessage, rfl⟩
    | false =>
      exact .inl (Pending.settlement_settleId (Pending.find?_register hnone))

theorem begun_send {message : NetworkMessage} {sent : Bool}
    (hmessage : message.payload.type = .livenessRequest) :
    (s.send c maxPendingRequests message sent).2.Begun
      (.probeSent k c (s.send c maxPendingRequests message sent).1) := by
  cases h : (s.send c maxPendingRequests message sent).1 with
  | resolved resultCode => trivial
  | rejected => trivial
  | promise promise => exact asks_send hmessage h

theorem type_buildLivenessRequest {now : ℕ} {nonce : Buffer} {id : Str} {capabilities : List Str}
    {message : NetworkMessage} {signature : Buffer}
    (h : NetworkMessageDirector.buildLivenessRequest env wallet now nonce id capabilities =
      some (message, signature)) : message.payload.type = .livenessRequest := by
  obtain ⟨-, -, rfl, -⟩ := NetworkMessageDirector.buildPayload_eq_some.mp h
  rfl

theorem waiting_goOnBuilt {now : ℕ} {nonce : Buffer} {id : Str} {sent : Bool} {task : Task}
    (hs : s.goOnBuilt env wallet maxPendingRequests now nonce id sent task = some s') :
    s.Waiting s' := by
  unfold goOnBuilt at hs
  split at hs
  case h_1 =>
    split at hs
    case h_1 =>
      cases hs
      exact waiting_await (tasks_setPreferredProtocol _) (isProbed_setPreferredProtocol _)
    case h_2 hbuilt =>
      cases hs
      exact waiting_await (tasks_send _ _) (begun_send (type_buildLivenessRequest hbuilt))
  case h_2 =>
    split at hs
    case h_1 =>
      cases hs
      exact waiting_await rfl trivial
    case h_2 =>
      cases hs
      exact waiting_await (tasks_send _ _) trivial
  case h_3 => cases hs

theorem waiting_goOn {task : Task} (hs : s.goOn maxValidators task = some s') : s.Waiting s' := by
  cases task with
  | setup c =>
    cases hs
    exact waiting_handleConnection
  | finalized c =>
    cases hs
    exact waiting_of_tasks rfl
  | probe k c => cases hs
  | probeSent k c reply =>
    simp only [goOn, Option.bind_eq_bind, Option.bind_eq_some_iff] at hs
    obtain ⟨outcome, -, hs⟩ := hs
    cases hs
    split
    case isTrue =>
      exact waiting_await (tasks_setPreferredProtocol _) (isProbed_setPreferredProtocol _)
    case isFalse =>
      exact waiting_await (tasks_setPreferredProtocol _) (isProbed_setPreferredProtocol _)
  | probed k c =>
    cases hs
    exact waiting_of_tasks tasks_addReady
  | check k c => cases hs
  | checkSent k reply =>
    simp only [goOn, Option.bind_eq_bind, Option.bind_eq_some_iff] at hs
    obtain ⟨outcome, -, hs⟩ := hs
    cases hs
    exact waiting_await rfl trivial
  | checked k resultCode =>
    cases hs
    unfold finishHealthCheck
    split
    case isTrue => exact waiting_of_tasks rfl
    case isFalse => exact waiting_of_tasks rfl

theorem waiting_step (hs : step env wallet maxValidators maxPendingConnections maxPendingRequests
      schema s e = some s') : s.Waiting s' := by
  have hfollows := follows_of_step hs
  cases e with
  | tryConnect k type found =>
    cases hfollows
    exact waiting_tryConnect
  | timeout n =>
    simp only [Follows, timeout, Option.bind_eq_bind, Option.bind_eq_some_iff] at hfollows
    obtain ⟨k, -, hs⟩ := hfollows
    split at hs
    case h_1 =>
      cases hs
      exact waiting_of_tasks rfl
    case h_2 =>
      cases hs
      exact waiting_of_tasks rfl
  | connection c =>
    cases hfollows
    exact waiting_await rfl trivial
  | received c p =>
    cases hfollows
    exact waiting_of_tasks (tasks_setPreferredProtocol _)
  | built place now nonce id sent =>
    obtain ⟨task, hs⟩ := hfollows
    exact (waiting_goOnBuilt hs).of_drop
  | resume place =>
    obtain ⟨task, -, hs⟩ := hfollows
    exact (waiting_goOn hs).of_drop
  | healthCheck k =>
    cases hfollows
    exact waiting_healthCheckHandler
  | remove k =>
    cases hfollows
    exact waiting_of_tasks rfl
  | requests event =>
    obtain ⟨requests, -, rfl⟩ := hfollows
    exact waiting_of_tasks rfl
  | close c =>
    cases hfollows
    exact waiting_of_tasks tasks_close
  | error c =>
    cases hfollows
    exact waiting_of_tasks rfl

/-! ### The requests -/

theorem moves_send {message : NetworkMessage} {sent : Bool} :
    Pending.Moves maxPendingRequests (fun _ => True) s.requests.service
      (s.send c maxPendingRequests message sent).2.requests.service := by
  unfold send
  split
  case h_1 => exact .refl
  case h_2 service hregister =>
    simp only [PendingRequestService.registerPendingRequest, Option.bind_eq_bind,
      Option.bind_eq_some_iff, Option.guard_eq_some', exists_const, Option.pure_def,
      Option.some.injEq] at hregister
    obtain ⟨-, hlt, hnone, rfl⟩ := hregister
    cases sent with
    | true => exact .register _ _ .refl hlt hnone
    | false => exact .settleId _ _ (.register _ _ .refl hlt hnone)

theorem moves_sendHealthCheck :
    Pending.Moves maxPendingRequests (fun _ => True) s.requests.service
      (s.sendHealthCheck c k).requests.service := by
  unfold sendHealthCheck
  split
  · exact .refl
  · exact .refl
  · exact .refl

theorem requests_setPreferredProtocol (p : Protocol) :
    (s.setPreferredProtocol c p).requests = s.requests := by
  unfold setPreferredProtocol
  split <;> rfl

theorem requests_addReady : (s.addReady maxValidators k c).requests = s.requests := by
  unfold addReady watch
  split <;> rfl

theorem requests_finalizeConnection {type : Option Str} :
    (s.finalizeConnection maxValidators k type c).requests = s.requests := by
  unfold finalizeConnection connectionReady
  split
  case isFalse => rfl
  case isTrue =>
    split
    case h_1 => rfl
    case h_2 entry _ =>
      dsimp only
      split
      case isFalse => rfl
      case isTrue =>
        unfold validatorReady
        split
        case isTrue => exact requests_addReady
        case isFalse => rfl

theorem requests_tryConnect {type : Option Str} {found : Option Connection} :
    (s.tryConnect maxValidators maxPendingConnections k type found).2.requests = s.requests := by
  unfold tryConnect
  split
  case isTrue => rfl
  case isFalse =>
    cases found with
    | none => rfl
    | some c =>
      dsimp only
      split
      case isTrue => exact requests_finalizeConnection
      case isFalse => rfl

theorem requests_foldl_remove (keys : List Str) :
    (keys.foldl remove s).requests = s.requests := by
  induction keys generalizing s with
  | nil => rfl
  | cons k keys ih => exact ih.trans rfl

theorem moves_of_eq (h : s'.requests = s.requests) :
    Pending.Moves maxPendingRequests (fun _ => True) s.requests.service s'.requests.service :=
  h ▸ .refl

theorem moves_rejectPendingRequestsForPeer (error : RequestError) :
    Pending.Moves maxPendingRequests (fun _ => True) s.requests.service
      (s.rejectPendingRequestsForPeer k error).requests.service :=
  .settleEach .refl _

theorem moves_close :
    Pending.Moves maxPendingRequests (fun _ => True) s.requests.service
      (s.close c).requests.service := by
  have hreject : Pending.Moves maxPendingRequests (fun _ => True) s.requests.service
      (if c ∈ s.listening then
        s.rejectPendingRequestsForPeer c.remotePublicKey .connectionClosed
      else s).requests.service := by
    split
    case isTrue => exact moves_rejectPendingRequestsForPeer _
    case isFalse => exact .refl
  exact hreject.trans (moves_of_eq (requests_foldl_remove _))

theorem moves_goOnBuilt {now : ℕ} {nonce : Buffer} {id : Str} {sent : Bool} {task : Task}
    (hs : s.goOnBuilt env wallet maxPendingRequests now nonce id sent task = some s') :
    Pending.Moves maxPendingRequests (fun _ => True) s.requests.service s'.requests.service := by
  unfold goOnBuilt at hs
  split at hs
  case h_1 =>
    split at hs
    case h_1 =>
      cases hs
      exact moves_of_eq (requests_setPreferredProtocol _)
    case h_2 =>
      cases hs
      exact moves_send
  case h_2 =>
    split at hs
    case h_1 =>
      cases hs
      exact .refl
    case h_2 =>
      cases hs
      exact moves_send
  case h_3 => cases hs

theorem requests_goOn {task : Task} (hs : s.goOn maxValidators task = some s') :
    s'.requests = s.requests := by
  cases task with
  | setup c =>
    cases hs
    unfold handleConnection
    split
    case h_1 => exact requests_finalizeConnection
    case h_2 => rfl
  | finalized c =>
    cases hs
    rfl
  | probe k c => cases hs
  | probeSent k c reply =>
    simp only [goOn, Option.bind_eq_bind, Option.bind_eq_some_iff] at hs
    obtain ⟨outcome, -, hs⟩ := hs
    cases hs
    split
    case isTrue => exact requests_setPreferredProtocol _
    case isFalse => exact requests_setPreferredProtocol _
  | probed k c =>
    cases hs
    exact requests_addReady
  | check k c => cases hs
  | checkSent k reply =>
    simp only [goOn, Option.bind_eq_bind, Option.bind_eq_some_iff] at hs
    obtain ⟨outcome, -, hs⟩ := hs
    cases hs
    rfl
  | checked k resultCode =>
    cases hs
    unfold finishHealthCheck
    split
    case isTrue => rfl
    case isFalse => rfl

theorem moves_step (h : s.requests.service.Sound)
    (hs : step env wallet maxValidators maxPendingConnections maxPendingRequests schema s e =
      some s') :
    Pending.Moves maxPendingRequests (fun _ => True) s.requests.service s'.requests.service := by
  have hfollows := follows_of_step hs
  cases e with
  | tryConnect k type found =>
    cases hfollows
    exact moves_of_eq requests_tryConnect
  | timeout n =>
    simp only [Follows, timeout, Option.bind_eq_bind, Option.bind_eq_some_iff] at hfollows
    obtain ⟨k, -, hs⟩ := hfollows
    split at hs
    case h_1 =>
      cases hs
      exact .refl
    case h_2 =>
      cases hs
      exact .refl
  | connection c =>
    cases hfollows
    exact .refl
  | received c p =>
    cases hfollows
    exact moves_of_eq (requests_setPreferredProtocol _)
  | built place now nonce id sent =>
    obtain ⟨task, hs⟩ := hfollows
    exact moves_goOnBuilt (s := s.drop place) hs
  | resume place =>
    obtain ⟨task, -, hs⟩ := hfollows
    exact moves_of_eq (requests_goOn (s := s.drop place) hs)
  | healthCheck k =>
    cases hfollows
    unfold healthCheckHandler
    split
    case isTrue => exact .refl
    case isFalse =>
      split
      case h_1 => exact .refl
      case h_2 => exact moves_sendHealthCheck
  | remove k =>
    cases hfollows
    exact .refl
  | requests event =>
    obtain ⟨requests, hrequests, rfl⟩ := hfollows
    exact (Requests.step_moves h hrequests).mono fun _ _ => trivial
  | close c =>
    cases hfollows
    exact moves_close
  | error c =>
    cases hfollows
    exact moves_rejectPendingRequestsForPeer _

theorem Asks.moves (h : s.Asks c promise) (hsound : s.requests.service.Sound)
    (hmoves : Pending.Moves maxPendingRequests (fun _ => True) s.requests.service
      s'.requests.service) : s'.Asks c promise := by
  cases hsettled : s'.requests.service.settlement promise with
  | some o => exact .inl (by rw [hsettled]; rfl)
  | none =>
    obtain hsettled' | ⟨x, hx, rfl, htype, hpeer⟩ := h
    · rw [(hmoves.lasts hsound).unsettled hsettled] at hsettled'
      cases hsettled'
    · obtain ⟨y, hy, hpromise, hdata⟩ := hmoves.kept hsound hx hsettled
      exact .inr ⟨y, hy, hpromise, hdata ▸ htype, hdata ▸ hpeer⟩

/-- Every probe that has been sent asks the peer of its connection. -/
structure Probing (s : Network) : Prop where
  sound : s.requests.service.Sound
  asks : ∀ k c promise, .probeSent k c (.promise promise) ∈ s.tasks → s.Asks c promise

theorem probing_init : init.Probing where
  sound := Pending.sound_init
  asks := fun _ _ _ h => absurd h List.not_mem_nil

theorem Probing.step (h : s.Probing)
    (hs : step env wallet maxValidators maxPendingConnections maxPendingRequests schema s e =
      some s') : s'.Probing where
  sound := (moves_step h.sound hs).sound h.sound
  asks := fun k c promise hmem => (waiting_step hs _ hmem).elim
    (fun hmem => (h.asks k c promise hmem).moves h.sound (moves_step h.sound hs)) id

theorem tasks_finalizeConnection {type : Option Str} :
    (s.finalizeConnection maxValidators k type c).tasks = s.tasks ∨
      (s.finalizeConnection maxValidators k type c).tasks = s.tasks ++ [.probe k c] := by
  unfold finalizeConnection connectionReady
  split
  case isFalse => exact .inl rfl
  case isTrue =>
    split
    case h_1 => exact .inl rfl
    case h_2 entry _ =>
      dsimp only
      split
      case isFalse => exact .inl rfl
      case isTrue =>
        unfold validatorReady
        split
        case isTrue => exact .inl tasks_addReady
        case isFalse => exact .inr rfl

theorem isProbePending_of_tryConnect {type : Option Str} {found : Option Connection} {k' : Str}
    (hprobe : (s.tryConnect maxValidators maxPendingConnections k type found).2.tasks =
      s.tasks ++ [.probe k' c]) :
    s.requests.service.isProbePending c.remotePublicKey = false := by
  unfold tryConnect at hprobe
  split at hprobe
  case isTrue => exact absurd hprobe (by simp)
  case isFalse =>
    cases found with
    | none => exact absurd hprobe (by simp [beginAttempt])
    | some c' =>
      dsimp only at hprobe
      split at hprobe
      case isFalse => exact absurd hprobe (by simp [beginAttempt])
      case isTrue hfound =>
        have htasks : ((s.beginAttempt k type).finalizeConnection maxValidators k type c').tasks =
              s.tasks ∨
            ((s.beginAttempt k type).finalizeConnection maxValidators k type c').tasks =
              s.tasks ++ [.probe k c'] := tasks_finalizeConnection
        obtain heq | heq := htasks
        · exact absurd (heq.symm.trans hprobe) (by simp)
        · have hlast := heq.symm.trans hprobe
          rw [List.append_cancel_left_eq] at hlast
          cases hlast
          exact Bool.eq_false_iff.mpr hfound.2

/-- An attempt begins no probe of a connection while a request of an earlier one is pending. -/
theorem probe_after_answer (es : List NetworkEvent)
    (hrun : Machine.run
      (step env wallet maxValidators maxPendingConnections maxPendingRequests schema) .init es =
        some s) {type : Option Str} {found : Option Connection}
    (hs : step env wallet maxValidators maxPendingConnections maxPendingRequests schema s
      (.tryConnect k type found) = some s')
    (hprobe : s'.tasks = s.tasks ++ [.probe k c]) {k' : Str} {reply : Reply}
    (hmem : .probeSent k' c reply ∈ s.tasks) : (s.outcome reply).isSome := by
  have h : s.Probing := Machine.run_invariant (P := fun _ _ _ => True)
    (fun _ _ _ h hs _ => h.step hs) probing_init Machine.along_true hrun
  simp only [Network.step, Option.bind_eq_bind, Option.bind_eq_some_iff] at hs
  obtain ⟨-, -, hs⟩ := hs
  cases hs
  have hfree := isProbePending_of_tryConnect hprobe
  cases reply with
  | resolved resultCode => rfl
  | rejected => rfl
  | promise promise =>
    obtain hsettled | ⟨x, hx, rfl, htype, hpeer⟩ := h.asks k' c promise hmem
    · rw [outcome, Option.isSome_map]
      exact hsettled
    · have hpending : s.requests.service.isProbePending c.remotePublicKey = true :=
        List.any_eq_true.mpr ⟨x, hx, decide_eq_true ⟨hpeer, htype⟩⟩
      rw [hfree] at hpending
      cases hpending

end Network

namespace Sample

/-- A probe is not answered in time, and the next attempt begins another one before the first has
gone on. -/
def probedTwice : List NetworkEvent :=
  [.connection firstConnection, .resume 0,
    .tryConnect peerKey (some "validator".toList) (some firstConnection),
    .built 0 probe.timestamp probeNonce messageId true, .requests (.timeout 0)]

theorem probedTwice_facts :
    (Machine.run (Network.step messaging aliceNode 8 50 100 fun _ => true) .init probedTwice).map
        (fun s => (s.tasks, (Network.step messaging aliceNode 8 50 100 (fun _ => true) s
          (.tryConnect peerKey (some "validator".toList) (some firstConnection))).map
            Network.tasks)) =
      some ([.probeSent peerKey firstConnection (.promise 0)],
        some [.probeSent peerKey firstConnection (.promise 0),
          .probe peerKey firstConnection]) := by
  decide +kernel

theorem probe_after_answer_probedTwice : ∃ s,
    Machine.run (Network.step messaging aliceNode 8 50 100 fun _ => true) .init probedTwice =
      some s ∧ (s.outcome (.promise 0)).isSome := by
  obtain ⟨s, hrun, hs⟩ := Option.map_eq_some_iff.mp probedTwice_facts
  simp only [Prod.mk.injEq] at hs
  obtain ⟨htasks, hstep⟩ := hs
  obtain ⟨s', hstep, htasks'⟩ := Option.map_eq_some_iff.mp hstep
  have hprobe : s'.tasks = s.tasks ++ [.probe peerKey firstConnection] := by
    rw [htasks', htasks]
    rfl
  exact ⟨s, hrun,
    Network.probe_after_answer probedTwice hrun hstep hprobe (htasks ▸ List.mem_cons_self)⟩

end Sample

end SettlementBus
