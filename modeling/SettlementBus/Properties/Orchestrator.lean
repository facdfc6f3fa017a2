import SettlementBus.Lib.Retry
import SettlementBus.Network.Orchestrator
import SettlementBus.Properties.Connection
import SettlementBus.Sample

/-! How often a message is handed over to validators. -/

namespace SettlementBus

open Lib

namespace MessageOrchestrator

variable (o : MessageOrchestrator) (turns : ℕ → Turn)

/-- What a call of `send` does before it calls itself. -/
def level (s : Sending) : Retry.Next Sending SendError :=
  let turn := turns s.turn
  match o.pickValidatorForMessage turn.random s.connectionManager with
  | none => .stop (.ok false) s
  | some publicKey =>
    let next := { s with turn := s.turn + 1 }
    match o.protocolOf s.connectionManager publicKey with
    | some .legacy =>
      match (o.attemptSendMessageForLegacy publicKey turn).exec next with
      | (.ok true, t) => .stop (.ok true) t
      | (.ok false, t) => .retry (t.remove publicKey)
      | (.error _, t) => .twice t (Sending.remove publicKey)
    | some .v1 =>
      if turn.built then
        match (o.sendV1Message publicKey turn).exec (next.lose turn.lostBefore) with
        | (.ok success, t) => .stop (.ok success) t
        | (.error .connectionManager, t) => .retry t
        | (.error .other, t) => .retry (t.remove publicKey)
      else .stop (.error .other) next
    | none => .stop (.ok false) next

/-- The calls of `send` are those of a bounded retry. -/
theorem exec_sendWithin (left : ℕ) (s : Sending) :
    (o.sendWithin turns left).exec s = Retry.run (o.level turns) left s := by
  induction left generalizing s with
  | zero => rfl
  | succ left ih =>
    rw [sendWithin, Retry.run, level]
    simp only [Exec.exec_bind, Exec.exec_get]
    cases o.pickValidatorForMessage (turns s.turn).random s.connectionManager with
    | none => rfl
    | some publicKey =>
      simp only [Exec.exec_bind, Exec.exec_set]
      cases o.protocolOf s.connectionManager publicKey with
      | none => rfl
      | some protocol =>
        cases protocol with
        | legacy =>
          simp only [Exec.exec_bind, Exec.exec_tryCatch]
          rcases (o.attemptSendMessageForLegacy publicKey (turns s.turn)).exec
            { s with turn := s.turn + 1 } with ⟨_ | success, t⟩
          · simp only [ih]
            rcases Retry.run (o.level turns) left t with ⟨_ | success, u⟩
            · rfl
            · cases success with
              | true => rfl
              | false => simp [Exec.exec_bind, ih]
          · cases success with
            | true => rfl
            | false => simp [Exec.exec_bind, ih]
        | v1 =>
          cases (turns s.turn).built with
          | false => rfl
          | true =>
            simp only [Bool.not_true, Bool.false_eq_true, if_false, if_true, Exec.exec_bind,
              Exec.exec_modify, Exec.exec_tryCatch]
            rcases (o.sendV1Message publicKey (turns s.turn)).exec
              (Sending.lose (turns s.turn).lostBefore { s with turn := s.turn + 1 }) with
              ⟨error | success, t⟩
            · cases error with
              | connectionManager => exact ih t
              | other => exact ih (t.remove publicKey)
            · rfl

/-! ### One level -/

/-- No validator joins the pool. -/
def Shrinks (s t : ConnectionManager) : Prop :=
  ∀ v c, t.getConnection v = some c → s.getConnection v = some c

theorem Shrinks.refl (s : ConnectionManager) : Shrinks s s := fun _ _ h => h

theorem Shrinks.trans {s t u : ConnectionManager} (h : Shrinks s t) (h' : Shrinks t u) :
    Shrinks s u := fun v c hv => h v c (h' v c hv)

theorem shrinks_remove (s : ConnectionManager) (k : Str) : Shrinks s (s.remove k) := by
  intro v c h
  rw [ConnectionManager.getConnection_remove] at h
  split at h
  case isTrue => cases h
  case isFalse => exact h

theorem shrinks_lose (s : Sending) (keys : List Str) :
    Shrinks s.connectionManager (s.lose keys).connectionManager := by
  show Shrinks s.connectionManager (keys.foldl ConnectionManager.remove s.connectionManager)
  generalize s.connectionManager = manager
  induction keys generalizing manager with
  | nil => exact Shrinks.refl manager
  | cons k keys ih => exact (shrinks_remove manager k).trans (ih _)

theorem getConnection_incrementSentCount (s : ConnectionManager) (k v : Str) :
    (s.incrementSentCount k).getConnection v = s.getConnection v := by
  unfold ConnectionManager.incrementSentCount ConnectionManager.getConnection
  cases h : s.validators.get k with
  | none => rfl
  | some entry =>
    dsimp only
    rw [Store.get_put]
    by_cases hv : v = k
    · rw [if_pos hv, hv, h]
      rfl
    · rw [if_neg hv]

theorem exec_countSent (publicKey : Str) (s : Sending) :
    ∃ t, (o.countSent publicKey).exec s = (.ok (), t) ∧ t.attempts = s.attempts ∧
      Shrinks s.connectionManager t.connectionManager := by
  have hsent : Shrinks s.connectionManager (s.connectionManager.incrementSentCount publicKey) := by
    intro v c h
    rwa [getConnection_incrementSentCount] at h
  simp only [countSent, Exec.exec_bind, Exec.exec_modify, Exec.exec_get]
  split
  · exact ⟨_, rfl, rfl, hsent.trans (shrinks_remove _ _)⟩
  · exact ⟨_, rfl, rfl, hsent⟩

theorem exec_conclude {α : Type} (publicKey : Str) (protocol : Protocol) (turn : Turn)
    (outcome : α → AttemptOutcome) (result : Except SendError α) (s : Sending) :
    (conclude publicKey protocol turn outcome result).exec s =
      (result, (s.lose turn.lostAfter).record
        { validator := publicKey, protocol, outcome := .of outcome result }) := by
  simp [conclude, Exec.exec_bind]

theorem sendSingleMessage_of_connected {manager : ConnectionManager} {publicKey : Str}
    (h : manager.connected publicKey) (reply : Option ℕ) :
    sendSingleMessage manager publicKey reply = orExit .other reply := by
  rw [sendSingleMessage, if_pos h]

theorem orExit_other_ne {α : Type} (x : Option α) :
    (orExit .other x : Except SendError α) ≠ .error .connectionManager := by
  cases x <;> simp [orExit, throw, throwThe, MonadExceptOf.throw, pure, Except.pure]

/-- An attempt over a session of the protocol, with the result of what awaits it. -/
structure Attempted (publicKey : Str) (protocol : Protocol) (s : Sending)
    (result : Except SendError Bool) (t : Sending) (outcome : AttemptOutcome) : Prop where
  attempts : t.attempts = s.attempts ++ [{ validator := publicKey, protocol, outcome }]
  shrinks : Shrinks s.connectionManager t.connectionManager
  succeeded : Attempt.succeeded { validator := publicKey, protocol, outcome } ↔ result = .ok true
  other : result = .error .other → outcome = .exception
  connectionManager : s.connectionManager.connected publicKey →
    result ≠ .error .connectionManager ∧ outcome ≠ .connectionError

theorem exists_attempted_legacy (publicKey : Str) (turn : Turn) (s : Sending) :
    ∃ result t outcome, (o.attemptSendMessageForLegacy publicKey turn).exec s = (result, t) ∧
      Attempted publicKey .legacy s result t outcome := by
  have hcm (h : s.connectionManager.connected publicKey) :
      (do let _ ← sendSingleMessage s.connectionManager publicKey turn.reply
          orExit .other turn.appeared : Except SendError Bool) ≠ .error .connectionManager := by
    rw [sendSingleMessage_of_connected h]
    cases turn.reply with
    | none => exact orExit_other_ne (none : Option Bool)
    | some code => exact orExit_other_ne turn.appeared
  rw [attemptSendMessageForLegacy]
  simp only [Exec.exec_bind, Exec.exec_get, exec_conclude]
  generalize (do let _ ← sendSingleMessage s.connectionManager publicKey turn.reply
                 orExit .other turn.appeared : Except SendError Bool) = result at hcm ⊢
  have hlose := shrinks_lose s turn.lostAfter
  cases result with
  | error error =>
    refine ⟨_, _, _, rfl, rfl, hlose, ?_, ?_, fun h => ⟨hcm h, ?_⟩⟩
    · cases error <;> simp [Attempt.succeeded, AttemptOutcome.of]
    · rintro ⟨⟩
      rfl
    · cases error with
      | connectionManager => exact absurd rfl (hcm h)
      | other => simp [AttemptOutcome.of]
  | ok appeared =>
    cases appeared with
    | false =>
      exact ⟨_, _, _, rfl, rfl, hlose, by simp [Attempt.succeeded, AttemptOutcome.of], by simp,
        fun h => ⟨hcm h, by simp [AttemptOutcome.of]⟩⟩
    | true =>
      obtain ⟨t, ht, hattempts, hshrinks⟩ := o.exec_countSent publicKey
        ((s.lose turn.lostAfter).record
          { validator := publicKey, protocol := .legacy, outcome := .appeared true })
      refine ⟨.ok true, t, .appeared true, ?_, hattempts, hlose.trans hshrinks, by
        simp [Attempt.succeeded], by simp, by simp⟩
      simp [AttemptOutcome.of, ht]

theorem resultToValidatorAction_eq_success {resultCode : ℕ} :
    resultToValidatorAction resultCode = .success ↔ resultCode = resultCodeOk := by
  unfold resultToValidatorAction successCodes
  split
  case isTrue h => simpa using h
  case isFalse h =>
    refine iff_of_false ?_ (by simpa using h)
    split <;> first | simp | (split <;> simp)

theorem exists_attempted_v1 (publicKey : Str) (turn : Turn) (s : Sending) :
    ∃ result t outcome, (o.sendV1Message publicKey turn).exec s = (result, t) ∧
      Attempted publicKey .v1 s result t outcome := by
  have hcm (h : s.connectionManager.connected publicKey) :
      sendSingleMessage s.connectionManager publicKey turn.reply ≠ .error .connectionManager := by
    rw [sendSingleMessage_of_connected h]
    exact orExit_other_ne turn.reply
  rw [sendV1Message]
  simp only [Exec.exec_bind, Exec.exec_get, exec_conclude]
  generalize sendSingleMessage s.connectionManager publicKey turn.reply = result at hcm ⊢
  have hlose := shrinks_lose s turn.lostAfter
  cases result with
  | error error =>
    refine ⟨.error error, _, _, rfl, rfl, hlose, ?_, ?_, fun h => ⟨?_, ?_⟩⟩
    · cases error <;> simp [Attempt.succeeded, AttemptOutcome.of]
    · rintro ⟨⟩
      rfl
    · rintro ⟨⟩
      exact hcm h rfl
    · cases error with
      | connectionManager => exact absurd rfl (hcm h)
      | other => simp [AttemptOutcome.of]
  | ok resultCode =>
    by_cases hok : resultCode = resultCodeOk
    · obtain ⟨t, ht, hattempts, hshrinks⟩ := o.exec_countSent publicKey
        ((s.lose turn.lostAfter).record
          { validator := publicKey, protocol := .v1, outcome := .resultCode resultCode })
      refine ⟨.ok true, t, .resultCode resultCode, ?_, hattempts, hlose.trans hshrinks, by
        simp [Attempt.succeeded, hok], by simp, by simp⟩
      simp [AttemptOutcome.of, resultToValidatorAction_eq_success.mpr hok, ht]
    · have hremove := hlose.trans (shrinks_remove _ publicKey)
      have hfail : Attempt.succeeded
          { validator := publicKey, protocol := .v1, outcome := .resultCode resultCode } = true ↔
          (.ok false : Except SendError Bool) = .ok true := by
        simp [Attempt.succeeded, hok]
      cases haction : resultToValidatorAction resultCode with
      | success => exact absurd (resultToValidatorAction_eq_success.mp haction) hok
      | noRotate =>
        simp only [haction]
        exact ⟨.ok false, _, .resultCode resultCode, rfl, rfl, hlose, hfail, by simp, by simp⟩
      | rotate =>
        simp only [haction]
        exact ⟨.ok false, _, .resultCode resultCode, rfl, rfl, hremove, hfail, by simp, by simp⟩
      | undefined =>
        simp only [haction]
        exact ⟨.ok false, _, .resultCode resultCode, rfl, rfl, hremove, hfail, by simp, by simp⟩

/-- What a level comes to. -/
inductive Level (s : Sending) : Retry.Next Sending SendError → Prop
  /-- No attempt was made. -/
  | unsent (result : Except SendError Bool) (t : Sending) (hresult : result ≠ .ok true)
    (hattempts : t.attempts = s.attempts)
    (hshrinks : Shrinks s.connectionManager t.connectionManager) :
    Level s (.stop result t)
  | stop (success : Bool) (t : Sending) (a : Attempt) (hattempts : t.attempts = s.attempts ++ [a])
    (hprotocol : o.protocolOf s.connectionManager a.validator = some a.protocol)
    (hsucceeded : a.succeeded = success)
    (hshrinks : Shrinks s.connectionManager t.connectionManager) :
    Level s (.stop (.ok success) t)
  | retry (t : Sending) (a : Attempt) (hattempts : t.attempts = s.attempts ++ [a])
    (hprotocol : o.protocolOf s.connectionManager a.validator = some a.protocol)
    (hsucceeded : a.succeeded = false)
    (hshrinks : Shrinks s.connectionManager t.connectionManager) :
    Level s (.retry t)
  /-- An attempt over a session of the legacy protocol has thrown. -/
  | twice (t : Sending) (publicKey : Str)
    (hmem : publicKey ∈ o.candidates s.connectionManager)
    (hprotocol : o.protocolOf s.connectionManager publicKey = some .legacy)
    (hattempts : t.attempts = s.attempts ++
      [{ validator := publicKey, protocol := .legacy, outcome := .exception }])
    (hshrinks : Shrinks s.connectionManager t.connectionManager) :
    Level s (.twice t (Sending.remove publicKey))

theorem mem_of_pickRandomValidator {random : ℕ} {keys : List Str} {publicKey : Str}
    (h : ConnectionManager.pickRandomValidator random keys = some publicKey) : publicKey ∈ keys :=
  List.mem_of_getElem? h

theorem connected_of_protocolOf {manager : ConnectionManager} {publicKey : Str} {protocol : Protocol}
    (h : o.protocolOf manager publicKey = some protocol) : manager.connected publicKey := by
  obtain ⟨connection, hconnection, -⟩ := Option.bind_eq_some_iff.mp h
  rw [ConnectionManager.connected_iff, hconnection]
  rfl

theorem level_cases (s : Sending) : o.Level s (o.level turns s) := by
  rw [level]
  cases hpick : o.pickValidatorForMessage (turns s.turn).random s.connectionManager with
  | none => exact .unsent _ _ (by simp) rfl (Shrinks.refl _)
  | some publicKey =>
    dsimp only
    cases hprotocol : o.protocolOf s.connectionManager publicKey with
    | none => exact .unsent _ _ (by simp) rfl (Shrinks.refl _)
    | some protocol =>
      cases protocol with
      | legacy =>
        obtain ⟨result, t, outcome, hexec, h⟩ := o.exists_attempted_legacy publicKey (turns s.turn)
          { s with turn := s.turn + 1 }
        obtain ⟨hresult, houtcome⟩ := h.connectionManager (o.connected_of_protocolOf hprotocol)
        simp only [hexec]
        cases result with
        | error error =>
          cases error with
          | connectionManager => exact absurd rfl hresult
          | other =>
            cases h.other rfl
            exact .twice t publicKey (mem_of_pickRandomValidator hpick) hprotocol h.attempts h.shrinks
        | ok success =>
          cases success with
          | true => exact .stop true t _ h.attempts hprotocol (h.succeeded.mpr rfl) h.shrinks
          | false =>
            refine .retry _ _ h.attempts hprotocol ?_ (h.shrinks.trans (shrinks_remove _ publicKey))
            exact Bool.eq_false_iff.mpr fun hs => absurd (h.succeeded.mp hs) (by simp)
      | v1 =>
        dsimp only
        split
        case isFalse => exact .unsent _ _ (by simp) rfl (Shrinks.refl _)
        case isTrue =>
          have hlose := shrinks_lose { s with turn := s.turn + 1 } (turns s.turn).lostBefore
          obtain ⟨result, t, outcome, hexec, h⟩ := o.exists_attempted_v1 publicKey (turns s.turn)
            (Sending.lose (turns s.turn).lostBefore { s with turn := s.turn + 1 })
          have hshrinks := hlose.trans h.shrinks
          simp only [hexec]
          cases result with
          | error error =>
            have hfail : Attempt.succeeded { validator := publicKey, protocol := .v1, outcome } =
                false := Bool.eq_false_iff.mpr fun hs => absurd (h.succeeded.mp hs) (by simp)
            cases error with
            | connectionManager => exact .retry _ _ h.attempts hprotocol hfail hshrinks
            | other =>
              exact .retry _ _ h.attempts hprotocol hfail
                (hshrinks.trans (shrinks_remove _ publicKey))
          | ok success =>
            refine .stop success t _ h.attempts hprotocol ?_ hshrinks
            cases success with
            | true => exact h.succeeded.mpr rfl
            | false => exact Bool.eq_false_iff.mpr fun hs => absurd (h.succeeded.mp hs) (by simp)

/-! ### Whole calls -/

/-- No validator joins the pool and no attempt is forgotten. -/
structure Later (s t : Sending) : Prop where
  shrinks : Shrinks s.connectionManager t.connectionManager
  attempts : s.attempts <+: t.attempts

theorem Later.refl (s : Sending) : Later s s := ⟨Shrinks.refl _, List.prefix_refl _⟩

theorem Later.trans {s t u : Sending} (h : Later s t) (h' : Later t u) : Later s u :=
  ⟨h.shrinks.trans h'.shrinks, h.attempts.trans h'.attempts⟩

theorem later_remove (publicKey : Str) (s : Sending) : Later s (s.remove publicKey) :=
  ⟨shrinks_remove _ publicKey, List.prefix_refl _⟩

theorem later_level (s : Sending) : Later s (o.level turns s).state := by
  have hlevel := o.level_cases turns s
  generalize o.level turns s = next at hlevel ⊢
  cases hlevel with
  | unsent _ t _ hattempts hshrinks => exact ⟨hshrinks, by simp [Retry.Next.state, hattempts]⟩
  | stop _ t a hattempts _ _ hshrinks => exact ⟨hshrinks, by simp [Retry.Next.state, hattempts]⟩
  | retry t a hattempts _ _ hshrinks => exact ⟨hshrinks, by simp [Retry.Next.state, hattempts]⟩
  | twice t _ _ _ hattempts hshrinks => exact ⟨hshrinks, by simp [Retry.Next.state, hattempts]⟩

theorem twice_eq_remove {s t : Sending} {again : Sending → Sending}
    (h : o.level turns s = .twice t again) : ∃ publicKey, again = Sending.remove publicKey := by
  have hlevel := o.level_cases turns s
  rw [h] at hlevel
  cases hlevel with
  | twice t publicKey => exact ⟨publicKey, rfl⟩

theorem later_run (n : ℕ) (s : Sending) : Later s (Retry.run (o.level turns) n s).2 := by
  refine Retry.run_rel Later.refl (fun _ _ _ => Later.trans) (o.later_level turns) ?_
  intro s t again h u
  obtain ⟨publicKey, rfl⟩ := o.twice_eq_remove turns h
  exact later_remove publicKey u

/-- The message is not sent again after an attempt that succeeded. -/
def EndsWithSuccess (attempts : List Attempt) : Prop :=
  ∃ before a, attempts = before ++ [a] ∧ a.succeeded ∧ ∀ b ∈ before, b.succeeded = false

/-- A call returns true after an attempt that succeeded, and otherwise none has. -/
theorem run_result {s : Sending} (n : ℕ) (hs : ∀ a ∈ s.attempts, a.succeeded = false) :
    (Retry.run (o.level turns) n s).1 = .ok true ∧
        EndsWithSuccess (Retry.run (o.level turns) n s).2.attempts ∨
      (Retry.run (o.level turns) n s).1 ≠ .ok true ∧
        ∀ a ∈ (Retry.run (o.level turns) n s).2.attempts, a.succeeded = false := by
  refine Retry.run_rule (I := fun _ s => ∀ a ∈ s.attempts, a.succeeded = false)
    (P := fun result t => result = .ok true ∧ EndsWithSuccess t.attempts ∨
      result ≠ .ok true ∧ ∀ a ∈ t.attempts, a.succeeded = false)
    (o.later_run turns) (fun s hs => .inr ⟨by simp, hs⟩) ?_ ?_ ?_ hs
  · intro n s hs result t hnext
    have hlevel := o.level_cases turns s
    rw [hnext] at hlevel
    cases hlevel with
    | unsent _ _ hresult hattempts => exact .inr ⟨hresult, hattempts ▸ hs⟩
    | stop success _ a hattempts _ hsucceeded =>
      cases success with
      | true => exact .inl ⟨rfl, s.attempts, a, hattempts, hsucceeded, hs⟩
      | false =>
        refine .inr ⟨by simp, ?_⟩
        rw [hattempts]
        simpa [or_imp, forall_and, hsucceeded] using hs
  · intro n s hs t hnext
    have hlevel := o.level_cases turns s
    rw [hnext] at hlevel
    cases hlevel with
    | retry _ a hattempts _ hsucceeded =>
      rw [hattempts]
      simpa [or_imp, forall_and, hsucceeded] using hs
  · intro n s hs t again hnext
    have hlevel := o.level_cases turns s
    rw [hnext] at hlevel
    cases hlevel with
    | twice _ publicKey _ _ hattempts =>
      refine ⟨?_, fun u _ hu => ?_⟩
      · rw [hattempts]
        simpa [or_imp, forall_and, Attempt.succeeded] using hs
      · rcases hu with ⟨h, -⟩ | ⟨-, hu⟩
        · cases h
        · exact hu

/-! ### How many attempts -/

theorem length_level (s : Sending) :
    (o.level turns s).state.attempts.length ≤ s.attempts.length + 1 := by
  have hlevel := o.level_cases turns s
  generalize o.level turns s = next at hlevel ⊢
  cases hlevel with
  | unsent _ t _ hattempts => simp [Retry.Next.state, hattempts]
  | stop _ t a hattempts => simp [Retry.Next.state, hattempts]
  | retry t a hattempts => simp [Retry.Next.state, hattempts]
  | twice t _ _ _ hattempts => simp [Retry.Next.state, hattempts]

/-- What a level adds, however the call goes on. -/
theorem level_adds {s : Sending} {next : Retry.Next Sending SendError} (h : o.level turns s = next) :
    Later s next.state ∧ next.state.attempts.length ≤ s.attempts.length + 1 :=
  h ▸ ⟨o.later_level turns s, o.length_level turns s⟩

/-- An attempt over a session of the legacy protocol that threw. -/
def Threw (a : Attempt) : Prop := a.protocol = .legacy ∧ a.outcome = .exception

theorem length_le_of_not_threw {s : Sending} {n : ℕ}
    (h : ∀ a ∈ (Retry.run (o.level turns) n s).2.attempts, ¬Threw a) :
    (Retry.run (o.level turns) n s).2.attempts.length ≤ s.attempts.length + n := by
  have hrule := Retry.run_rule (s := s)
    (I := fun k t => (∃ a ∈ t.attempts, Threw a) ∨ t.attempts.length + k ≤ s.attempts.length + n)
    (P := fun _ t => (∃ a ∈ t.attempts, Threw a) ∨ t.attempts.length ≤ s.attempts.length + n)
    (o.later_run turns) (fun t => id) ?_ ?_ ?_ (.inr le_rfl)
  · rcases hrule with ⟨a, ha, hthrew⟩ | hle
    · exact absurd hthrew (h a ha)
    · exact hle
  · intro k t ht result u hnext
    obtain ⟨hlater, hadds⟩ := o.level_adds turns hnext
    rcases ht with ⟨a, ha, hthrew⟩ | hle
    · exact .inl ⟨a, hlater.attempts.subset ha, hthrew⟩
    · exact .inr (by simp only [Retry.Next.state] at hadds; omega)
  · intro k t ht u hnext
    obtain ⟨hlater, hadds⟩ := o.level_adds turns hnext
    rcases ht with ⟨a, ha, hthrew⟩ | hle
    · exact .inl ⟨a, hlater.attempts.subset ha, hthrew⟩
    · exact .inr (by simp only [Retry.Next.state] at hadds; omega)
  · intro k t ht u again hnext
    have hlevel := o.level_cases turns t
    rw [hnext] at hlevel
    cases hlevel with
    | twice _ publicKey _ _ hattempts =>
      have hthrew : ∃ a ∈ u.attempts, Threw a := by
        rw [hattempts]
        exact ⟨_, List.mem_append_right _ (List.mem_singleton_self _), rfl, rfl⟩
      refine ⟨.inl hthrew, fun v hv _ => .inl ?_⟩
      obtain ⟨a, ha, hthrew⟩ := hthrew
      exact ⟨a, hv.attempts.subset ha, hthrew⟩

/-! ### One loop of retries -/

theorem mem_connectedValidators {manager : ConnectionManager} {v : Str} :
    v ∈ manager.connectedValidators ↔ manager.connected v := by
  rw [ConnectionManager.connectedValidators, List.mem_filter, and_iff_right_iff_imp]
  intro h
  have hexists := (of_decide_eq_true h).1
  rw [ConnectionManager.exists_, Option.isSome_iff_ne_none] at hexists
  by_contra hkey
  exact hexists (AList.lookup_eq_none.mpr hkey)

/-- Such a validator may be picked for the message whatever the others are. -/
def Eligible (v : Str) : Prop :=
  ∀ requesterAddress, o.requesterAddress = some requesterAddress → requesterAddress ≠ [] →
    o.publicKeyToAddress v ≠ requesterAddress

theorem candidates_of_requester {manager : ConnectionManager} {requesterAddress : Str}
    (h : o.requesterAddress = some requesterAddress) (hne : requesterAddress ≠ []) :
    o.candidates manager =
      if 0 < (manager.connectedValidators.filter fun v =>
          o.publicKeyToAddress v ≠ requesterAddress).length then
        manager.connectedValidators.filter fun v => o.publicKeyToAddress v ≠ requesterAddress
      else manager.connectedValidators := by
  cases requesterAddress with
  | nil => exact absurd rfl hne
  | cons c cs => simp only [candidates, h]

theorem candidates_of_none {manager : ConnectionManager}
    (h : ∀ requesterAddress, o.requesterAddress = some requesterAddress → requesterAddress = []) :
    o.candidates manager = manager.connectedValidators := by
  rw [candidates]
  cases hr : o.requesterAddress with
  | none => rfl
  | some requesterAddress => cases h _ hr; rfl

theorem eligible_iff {requesterAddress v : Str} (h : o.requesterAddress = some requesterAddress)
    (hne : requesterAddress ≠ []) :
    o.Eligible v ↔ o.publicKeyToAddress v ≠ requesterAddress := by
  constructor
  · intro he
    exact he requesterAddress h hne
  · intro hv r hr _
    cases Option.some.inj (h.symm.trans hr)
    exact hv

theorem eligible_of_none {v : Str}
    (h : ∀ requesterAddress, o.requesterAddress = some requesterAddress → requesterAddress = []) :
    o.Eligible v := fun r hr hne => absurd (h r hr) hne

theorem requester_cases : (∃ r, o.requesterAddress = some r ∧ r ≠ []) ∨
    ∀ r, o.requesterAddress = some r → r = [] := by
  by_cases hr : ∃ r, o.requesterAddress = some r ∧ r ≠ []
  · exact .inl hr
  · refine .inr fun r h => ?_
    by_contra hne
    exact hr ⟨r, h, hne⟩

theorem mem_candidates {manager : ConnectionManager} {v : Str} (h : v ∈ o.candidates manager) :
    manager.connected v ∧ (o.Eligible v ∨ ∀ w, manager.connected w → ¬o.Eligible w) := by
  rcases o.requester_cases with ⟨r, hr, hne⟩ | hnone
  · rw [o.candidates_of_requester hr hne] at h
    split at h
    case isTrue =>
      obtain ⟨hv, haddress⟩ := List.mem_filter.mp h
      exact ⟨mem_connectedValidators.mp hv,
        .inl ((o.eligible_iff hr hne).mpr (of_decide_eq_true haddress))⟩
    case isFalse hempty =>
      refine ⟨mem_connectedValidators.mp h, .inr fun w hw he => hempty ?_⟩
      refine List.length_pos_of_mem (List.mem_filter.mpr ⟨mem_connectedValidators.mpr hw, ?_⟩)
      exact decide_eq_true ((o.eligible_iff hr hne).mp he)
  · rw [o.candidates_of_none hnone] at h
    exact ⟨mem_connectedValidators.mp h, .inl (o.eligible_of_none hnone)⟩

theorem mem_candidates_of_eligible {manager : ConnectionManager} {v : Str}
    (hv : manager.connected v) (h : o.Eligible v) : v ∈ o.candidates manager := by
  rcases o.requester_cases with ⟨r, hr, hne⟩ | hnone
  · have hmem : v ∈ manager.connectedValidators.filter fun v => o.publicKeyToAddress v ≠ r :=
      List.mem_filter.mpr ⟨mem_connectedValidators.mpr hv,
        decide_eq_true ((o.eligible_iff hr hne).mp h)⟩
    rwa [o.candidates_of_requester hr hne, if_pos (List.length_pos_of_mem hmem)]
  · rw [o.candidates_of_none hnone]
    exact mem_connectedValidators.mpr hv

/-- No validator has a session of either protocol. -/
def Dead (manager : ConnectionManager) : Prop := ∀ v, o.protocolOf manager v = none

/-- A validator with a legacy session that may be picked is the only one with a session. -/
def Calm (manager : ConnectionManager) : Prop :=
  ∀ v, o.Eligible v → o.protocolOf manager v = some .legacy →
    ∀ w, w ≠ v → o.protocolOf manager w = none

/-- The connected validators have different addresses. -/
def AddressesDiffer (manager : ConnectionManager) : Prop :=
  ∀ v w, manager.connected v → manager.connected w →
    o.publicKeyToAddress v = o.publicKeyToAddress w → v = w

variable {manager manager' : ConnectionManager}

theorem Shrinks.protocolOf {v : Str} {protocol : Protocol} (h : Shrinks manager manager')
    (hv : o.protocolOf manager' v = some protocol) : o.protocolOf manager v = some protocol := by
  obtain ⟨connection, hconnection, hprotocol⟩ := Option.bind_eq_some_iff.mp hv
  exact Option.bind_eq_some_iff.mpr ⟨connection, h v connection hconnection, hprotocol⟩

theorem Shrinks.protocolOf_none {v : Str} (h : Shrinks manager manager')
    (hv : o.protocolOf manager v = none) : o.protocolOf manager' v = none := by
  rw [Option.eq_none_iff_forall_ne_some] at hv ⊢
  exact fun protocol hprotocol => hv protocol (Shrinks.protocolOf o h hprotocol)

theorem Shrinks.connected {v : Str} (h : Shrinks manager manager') (hv : manager'.connected v) :
    manager.connected v := by
  rw [ConnectionManager.connected_iff] at hv ⊢
  obtain ⟨connection, hconnection⟩ := Option.isSome_iff_exists.mp hv
  exact Option.isSome_iff_exists.mpr ⟨connection, h v connection hconnection⟩

theorem Calm.shrinks (h : o.Calm manager) (hs : Shrinks manager manager') : o.Calm manager' :=
  fun v he hv w hw => Shrinks.protocolOf_none o hs (h v he (Shrinks.protocolOf o hs hv) w hw)

theorem AddressesDiffer.shrinks (h : o.AddressesDiffer manager) (hs : Shrinks manager manager') :
    o.AddressesDiffer manager' :=
  fun v w hv hw => h v w (hs.connected hv) (hs.connected hw)

/-- Without the validator that has thrown nobody is left to be sent the message. -/
theorem dead_remove {publicKey : Str} (hcalm : o.Calm manager) (hdiffer : o.AddressesDiffer manager)
    (hmem : publicKey ∈ o.candidates manager)
    (hprotocol : o.protocolOf manager publicKey = some .legacy) (hs : Shrinks manager manager') :
    o.Dead (manager'.remove publicKey) := by
  intro v
  by_cases hv : v = publicKey
  · rw [protocolOf, ConnectionManager.getConnection_remove, if_pos hv]
    rfl
  have hothers : ∀ w, w ≠ publicKey → o.protocolOf manager w = none := by
    rcases (o.mem_candidates hmem).2 with he | hnone
    · exact hcalm publicKey he hprotocol
    · intro w hw
      rw [Option.eq_none_iff_forall_ne_some]
      intro protocol hw'
      have hcw := o.connected_of_protocolOf hw'
      have hcp := o.connected_of_protocolOf hprotocol
      have haddress : o.publicKeyToAddress w = o.publicKeyToAddress publicKey := by
        have hnw := hnone w hcw
        have hnp := hnone publicKey hcp
        simp only [Eligible, not_forall, not_not] at hnw hnp
        obtain ⟨r, hr, -, hr'⟩ := hnw
        obtain ⟨q, hq, -, hq'⟩ := hnp
        rw [hr', hq', Option.some.inj (hr.symm.trans hq)]
      exact hw (hdiffer w publicKey hcw hcp haddress)
  rw [protocolOf, ConnectionManager.getConnection_remove, if_neg hv]
  exact Shrinks.protocolOf_none o hs (hothers v hv)

theorem level_of_dead {s : Sending} (h : o.Dead s.connectionManager) :
    ∃ result t, o.level turns s = .stop result t ∧ t.attempts = s.attempts := by
  have hlevel := o.level_cases turns s
  generalize o.level turns s = next at hlevel ⊢
  cases hlevel with
  | unsent result t _ hattempts => exact ⟨result, t, rfl, hattempts⟩
  | stop _ t a _ hprotocol => exact absurd (h a.validator) (by simp [hprotocol])
  | retry t a _ hprotocol => exact absurd (h a.validator) (by simp [hprotocol])
  | twice t v _ hprotocol => exact absurd (h v) (by simp [hprotocol])

theorem length_le_of_calm {s : Sending} {n : ℕ}
    (h : n ≤ 1 ∨ o.Calm s.connectionManager ∧ o.AddressesDiffer s.connectionManager) :
    (Retry.run (o.level turns) n s).2.attempts.length ≤ s.attempts.length + n := by
  refine Retry.run_rule
    (I := fun k t => t.attempts.length ≤ s.attempts.length + n ∧
      (k = 0 ∨ o.Dead t.connectionManager ∨ t.attempts.length + k ≤ s.attempts.length + n ∧
        (k ≤ 1 ∨ o.Calm t.connectionManager ∧ o.AddressesDiffer t.connectionManager)))
    (P := fun _ t => t.attempts.length ≤ s.attempts.length + n)
    (o.later_run turns) (fun t ht => ht.1) ?_ ?_ ?_ ⟨Nat.le_add_right _ _, .inr (.inr ⟨le_rfl, h⟩)⟩
  · rintro k t ⟨hle, ht⟩ result u hnext
    rcases ht with h0 | hdead | ⟨hbound, -⟩
    · cases h0
    · obtain ⟨result', u', hstop, hattempts⟩ := o.level_of_dead turns hdead
      cases hstop.symm.trans hnext
      rwa [hattempts]
    · obtain ⟨-, hadds⟩ := o.level_adds turns hnext
      simp only [Retry.Next.state] at hadds
      omega
  · rintro k t ⟨hle, ht⟩ u hnext
    rcases ht with h0 | hdead | ⟨hbound, hcalm⟩
    · cases h0
    · obtain ⟨result', u', hstop, -⟩ := o.level_of_dead turns hdead
      cases hstop.symm.trans hnext
    · obtain ⟨hlater, hadds⟩ := o.level_adds turns hnext
      simp only [Retry.Next.state] at hadds
      refine ⟨by omega, .inr (.inr ⟨by omega, ?_⟩)⟩
      rcases hcalm with h1 | ⟨hcalm, hdiffer⟩
      · exact .inl (by omega)
      · exact .inr ⟨hcalm.shrinks o hlater.shrinks, hdiffer.shrinks o hlater.shrinks⟩
  · rintro k t ⟨hle, ht⟩ u again hnext
    rcases ht with h0 | hdead | ⟨hbound, hcalm⟩
    · cases h0
    · obtain ⟨result', u', hstop, -⟩ := o.level_of_dead turns hdead
      cases hstop.symm.trans hnext
    · obtain ⟨hlater, hadds⟩ := o.level_adds turns hnext
      have hlevel := o.level_cases turns t
      rw [hnext] at hlevel
      simp only [Retry.Next.state] at hadds hlater
      cases hlevel with
      | twice _ publicKey hmem hprotocol _ _ =>
        rcases hcalm with h1 | ⟨hcalm, hdiffer⟩
        · have hk : k = 0 := by omega
          exact ⟨⟨by omega, .inl hk⟩, fun v _ hv => ⟨hv, .inl hk⟩⟩
        · refine ⟨⟨by omega, .inr (.inr ⟨by omega, .inr ⟨hcalm.shrinks o hlater.shrinks,
            hdiffer.shrinks o hlater.shrinks⟩⟩)⟩, fun v hv hlen => ⟨hlen, .inr (.inl ?_)⟩⟩
          exact o.dead_remove hcalm hdiffer hmem hprotocol (hlater.shrinks.trans hv.shrinks)

/-! ### Two loops of retries -/

theorem later_run_twice {s t : Sending} {publicKey : Str} (n : ℕ)
    (h : o.level turns s = .twice t (Sending.remove publicKey)) :
    Later (Retry.run (o.level turns) n t).2 (Retry.run (o.level turns) (n + 1) s).2 := by
  rw [Retry.run, h]
  dsimp only
  split
  case h_1 u hu =>
    rw [hu]
    exact (later_remove publicKey u).trans (o.later_run turns n _)
  case h_2 => exact Later.refl _

theorem later_run_succ (n : ℕ) (s : Sending) :
    Later (o.level turns s).state (Retry.run (o.level turns) (n + 1) s).2 := by
  cases h : o.level turns s with
  | stop result t =>
    rw [Retry.run, h]
    exact Later.refl t
  | retry t =>
    rw [Retry.run, h]
    exact o.later_run turns n t
  | twice t again =>
    obtain ⟨publicKey, rfl⟩ := o.twice_eq_remove turns h
    exact (o.later_run turns n t).trans (o.later_run_twice turns n h)

theorem connectionManager_lose_nil (s : Sending) : s.lose [] = s := rfl

/-- The promise of the session is rejected. -/
theorem level_of_legacy {s : Sending} {publicKey : Str}
    (hpick : o.pickValidatorForMessage (turns s.turn).random s.connectionManager = some publicKey)
    (hprotocol : o.protocolOf s.connectionManager publicKey = some .legacy)
    (hreply : (turns s.turn).reply = none) :
    o.level turns s = .twice ((Sending.lose (turns s.turn).lostAfter
      { s with turn := s.turn + 1 }).record
        { validator := publicKey, protocol := .legacy, outcome := .exception })
      (Sending.remove publicKey) := by
  have hconnected := o.connected_of_protocolOf hprotocol
  have hexec : (o.attemptSendMessageForLegacy publicKey (turns s.turn)).exec
      { s with turn := s.turn + 1 } =
        (.error .other, (Sending.lose (turns s.turn).lostAfter { s with turn := s.turn + 1 }).record
          { validator := publicKey, protocol := .legacy, outcome := .exception }) := by
    simp only [attemptSendMessageForLegacy, Exec.exec_bind, Exec.exec_get, exec_conclude,
      sendSingleMessage_of_connected hconnected, hreply]
    rfl
  rw [level, hpick]
  dsimp only
  rw [hprotocol]
  dsimp only
  rw [hexec]

theorem attempts_level {s : Sending} {publicKey : Str} {protocol : Protocol}
    (hpick : o.pickValidatorForMessage (turns s.turn).random s.connectionManager = some publicKey)
    (hprotocol : o.protocolOf s.connectionManager publicKey = some protocol)
    (hreply : (turns s.turn).reply = none) (hbuilt : (turns s.turn).built)
    (hlost : (turns s.turn).lostBefore = []) :
    (o.level turns s).state.attempts =
      s.attempts ++ [{ validator := publicKey, protocol, outcome := .exception }] := by
  cases protocol with
  | legacy =>
    rw [o.level_of_legacy turns hpick hprotocol hreply]
    rfl
  | v1 =>
    have hconnected := o.connected_of_protocolOf hprotocol
    have hexec : (o.sendV1Message publicKey (turns s.turn)).exec { s with turn := s.turn + 1 } =
        (.error .other, (Sending.lose (turns s.turn).lostAfter { s with turn := s.turn + 1 }).record
          { validator := publicKey, protocol := .v1, outcome := .exception }) := by
      simp only [sendV1Message, Exec.exec_bind, Exec.exec_get, exec_conclude,
        sendSingleMessage_of_connected hconnected, hreply]
      rfl
    rw [level, hpick]
    dsimp only
    rw [hprotocol]
    dsimp only
    rw [if_pos hbuilt, hlost, connectionManager_lose_nil, hexec]
    rfl

theorem getConnection_lose (s : Sending) (keys : List Str) (v : Str) :
    (s.lose keys).connectionManager.getConnection v =
      if v ∈ keys then none else s.connectionManager.getConnection v := by
  show (keys.foldl ConnectionManager.remove s.connectionManager).getConnection v = _
  generalize s.connectionManager = manager
  induction keys generalizing manager with
  | nil => rfl
  | cons k keys ih =>
    rw [List.foldl_cons, ih, ConnectionManager.getConnection_remove]
    by_cases hv : v ∈ keys
    · rw [if_pos hv, if_pos (List.mem_cons_of_mem k hv)]
    · simp only [hv, if_false, List.mem_cons, or_false]

theorem exists_pickRandomValidator (random : ℕ) {keys : List Str} (h : keys ≠ []) :
    ∃ v ∈ keys, ConnectionManager.pickRandomValidator random keys = some v := by
  have hlt := Nat.mod_lt random (List.length_pos_iff.mpr h)
  exact ⟨_, List.getElem_mem hlt, List.getElem?_eq_getElem hlt⟩

theorem candidates_ne_nil {v : Str} (h : manager.connected v) : o.candidates manager ≠ [] := by
  have hv := List.ne_nil_of_mem (mem_connectedValidators.mpr h)
  rcases o.requester_cases with ⟨r, hr, hne⟩ | hnone
  · rw [o.candidates_of_requester hr hne]
    split
    case isTrue hpos => exact List.length_pos_iff.mp hpos
    case isFalse => exact hv
  · rwa [o.candidates_of_none hnone]

/-- The only validator with a session is picked. -/
theorem pick_of_only {v : Str} (random : ℕ) (hv : manager.connected v)
    (honly : ∀ w, manager.connected w → w = v) :
    o.pickValidatorForMessage random manager = some v := by
  obtain ⟨w, hw, hpick⟩ := exists_pickRandomValidator random (o.candidates_ne_nil hv)
  rw [pickValidatorForMessage, hpick, honly w (o.mem_candidates hw).1]

section Duplicates

variable {a b : Str} {i last : ℕ}

/-- Every attempt fails. The first validator is picked until the retries are used up, and by then
only the second one is left beside it. -/
def failing (manager : ConnectionManager) (a b : Str) (i last : ℕ) (n : ℕ) : Turn :=
  { random := i
    built := true
    lostBefore := []
    reply := none
    appeared := none
    lostAfter :=
      if n = last then manager.connectedValidators.filter (fun v => v ≠ a ∧ v ≠ b) else [] }

def handedCount (s : Sending) : ℕ := s.attempts.countP Attempt.handed

theorem Later.handedCount_le {s t : Sending} (h : Later s t) : handedCount s ≤ handedCount t := by
  obtain ⟨new, hnew⟩ := h.attempts
  rw [handedCount, handedCount, ← hnew, List.countP_append]
  exact Nat.le_add_right _ _

theorem pick_failing {s : Sending} (hs : s.connectionManager = manager)
    (hi : (o.candidates manager)[i]? = some a) :
    o.pickValidatorForMessage (failing manager a b i last s.turn).random s.connectionManager =
      some a := by
  obtain ⟨hlt, -⟩ := List.getElem?_eq_some_iff.mp hi
  show (o.candidates s.connectionManager)[i % (o.candidates s.connectionManager).length]? = some a
  rw [hs, Nat.mod_eq_of_lt hlt, hi]

theorem mem_lostAfter_failing {v : Str} : v ∈ (failing manager a b i last last).lostAfter ↔
    manager.connected v ∧ v ≠ a ∧ v ≠ b := by
  simp [failing, mem_connectedValidators]

theorem handedCount_record {s : Sending} {v : Str} {protocol : Protocol} :
    handedCount (s.record { validator := v, protocol, outcome := .exception }) =
      handedCount s + 1 := by
  show List.countP _ (s.attempts ++ [_]) = _
  rw [List.countP_append]
  rfl

/-- The last retry of the first loop leaves the other validator. -/
theorem run_failing_last {s : Sending} (hs : s.connectionManager = manager) (hturn : s.turn = last)
    (hi : (o.candidates manager)[i]? = some a) (ha : o.protocolOf manager a = some .legacy) :
    ∃ u, Retry.run (o.level (failing manager a b i last)) 1 s = (.ok false, u) ∧
      handedCount u = handedCount s + 1 ∧
      ∀ v, u.connectionManager.getConnection v =
        if v = b ∧ v ≠ a then manager.getConnection v else none := by
  subst hs hturn
  have hlevel := o.level_of_legacy (failing s.connectionManager a b i s.turn) (o.pick_failing rfl hi)
    ha rfl
  refine ⟨Sending.remove a ((Sending.lose (failing s.connectionManager a b i s.turn s.turn).lostAfter
    { s with turn := s.turn + 1 }).record
      { validator := a, protocol := .legacy, outcome := .exception }),
    by rw [Retry.run, hlevel]; rfl, handedCount_record, fun v => ?_⟩
  show ((Sending.lose _ { s with turn := s.turn + 1 }).connectionManager.remove a).getConnection v = _
  rw [ConnectionManager.getConnection_remove, getConnection_lose]
  by_cases hva : v = a
  · rw [if_pos hva, if_neg fun h => h.2 hva]
  rw [if_neg hva]
  by_cases hvb : v = b
  · have hkept : v ∉ (failing s.connectionManager a b i s.turn s.turn).lostAfter :=
      fun h => (mem_lostAfter_failing.mp h).2.2 hvb
    rw [if_neg hkept, if_pos ⟨hvb, hva⟩]
  · have hgone : ¬(v = b ∧ v ≠ a) := fun h => hvb h.1
    by_cases hv : s.connectionManager.connected v
    · have hlost : v ∈ (failing s.connectionManager a b i s.turn s.turn).lostAfter :=
        mem_lostAfter_failing.mpr ⟨hv, hva, hvb⟩
      rw [if_pos hlost, if_neg hgone]
    · rw [ConnectionManager.connected_iff, Option.not_isSome_iff_eq_none] at hv
      rw [hv, if_neg hgone]
      split <;> rfl

/-- Before that the pool stays as it is. -/
theorem level_failing {s : Sending} (hs : s.connectionManager = manager) (hturn : s.turn ≠ last)
    (hi : (o.candidates manager)[i]? = some a) (ha : o.protocolOf manager a = some .legacy) :
    ∃ t, o.level (failing manager a b i last) s = .twice t (Sending.remove a) ∧
      t.connectionManager = manager ∧ t.turn = s.turn + 1 ∧ handedCount t = handedCount s + 1 := by
  have hlevel := o.level_of_legacy (failing manager a b i last) (o.pick_failing hs hi) (hs ▸ ha) rfl
  have hkeep : (failing manager a b i last s.turn).lostAfter = [] := if_neg hturn
  rw [hkeep, connectionManager_lose_nil] at hlevel
  exact ⟨_, hlevel, hs, rfl, handedCount_record⟩

/-- The retries after the first loop make one more attempt than there are levels. -/
theorem handedCount_failing (k : ℕ) {s : Sending} (hs : s.connectionManager = manager)
    (hturn : s.turn + (k + 1) = last) (hi : (o.candidates manager)[i]? = some a)
    (ha : o.protocolOf manager a = some .legacy) (hne : b ≠ a) {protocol : Protocol}
    (hb : o.protocolOf manager b = some protocol) :
    handedCount s + k + 3 ≤
      handedCount (Retry.run (o.level (failing manager a b i last)) (k + 2) s).2 := by
  induction k generalizing s with
  | zero =>
    obtain ⟨t, hlevel, ht, htturn, htcount⟩ := o.level_failing (b := b) hs
      (by omega : s.turn ≠ last) hi ha
    obtain ⟨u, hrun, hucount, hconnection⟩ := o.run_failing_last (b := b) ht
      (by omega : t.turn = last) hi ha
    -- The second retry after the first attempt finds the other validator.
    have hsecond : (u.remove a).connectionManager.getConnection b = manager.getConnection b := by
      show (u.connectionManager.remove a).getConnection b = _
      rw [ConnectionManager.getConnection_remove, if_neg hne, hconnection, if_pos ⟨rfl, hne⟩]
    have honly : ∀ w, (u.remove a).connectionManager.connected w → w = b := by
      intro w hw
      have hw := (shrinks_remove u.connectionManager a).connected hw
      rw [ConnectionManager.connected_iff, hconnection] at hw
      by_contra hwb
      rw [if_neg fun h => hwb h.1] at hw
      cases hw
    have hb' : o.protocolOf (u.remove a).connectionManager b = some protocol := by
      rw [protocolOf, hsecond]
      exact hb
    have hattempts := o.attempts_level (failing manager a b i last)
      (o.pick_of_only i (o.connected_of_protocolOf hb') honly) hb' rfl rfl rfl
    have hlater : _ ≤ handedCount (Retry.run _ 1 _).2 :=
      (o.later_run_succ (failing manager a b i last) 0 (u.remove a)).handedCount_le
    have hstate : handedCount (o.level (failing manager a b i last) (u.remove a)).state =
        handedCount u + 1 := by
      rw [handedCount, hattempts, List.countP_append]
      rfl
    rw [Retry.run, hlevel]
    dsimp only
    rw [hrun]
    dsimp only
    omega
  | succ k ih =>
    obtain ⟨t, hlevel, ht, htturn, htcount⟩ := o.level_failing (b := b) hs
      (by omega : s.turn ≠ last) hi ha
    have hfirst := ih ht (by omega)
    have hlater : _ ≤ handedCount (Retry.run _ (k + 1 + 2) s).2 :=
      (o.later_run_twice _ (k + 2) hlevel).handedCount_le
    omega

end Duplicates

/-! ### The bound -/

/-- What is promised of a call of `send`. -/
structure BoundedRetries (maxRetries : ℕ) (out : Except SendError Bool × Sending) : Prop where
  handed : out.2.attempts.countP Attempt.handed ≤ maxRetries + 1
  last : ∀ before a after, out.2.attempts = before ++ a :: after → a.succeeded → after = []
  result : out.1 = .ok true ↔ ∃ a ∈ out.2.attempts, a.succeeded

theorem last_of_endsWithSuccess {attempts before after : List Attempt} {a : Attempt}
    (h : EndsWithSuccess attempts) (heq : attempts = before ++ a :: after) (ha : a.succeeded) :
    after = [] := by
  obtain ⟨front, last, rfl, -, hfront⟩ := h
  rcases List.eq_nil_or_concat after with rfl | ⟨after, z, rfl⟩
  · rfl
  · have hinit : front = before ++ a :: after :=
      (List.append_inj' (heq.trans (by simp : _ = (before ++ a :: after) ++ [z])) rfl).1
    have hfail := hfront a (by simp [hinit])
    simp [hfail] at ha

theorem boundedRetries_of_length_le {maxRetries n : ℕ} {s : Sending} (hs : s.attempts = [])
    (h : (Retry.run (o.level turns) n s).2.attempts.length ≤ maxRetries + 1) :
    BoundedRetries maxRetries (Retry.run (o.level turns) n s) := by
  have hhanded : (Retry.run (o.level turns) n s).2.attempts.countP Attempt.handed ≤ maxRetries + 1 :=
    List.countP_le_length.trans h
  rcases o.run_result turns (s := s) n (by simp [hs]) with ⟨hresult, hends⟩ | ⟨hresult, hnone⟩
  · refine ⟨hhanded, fun _ _ _ => last_of_endsWithSuccess hends, iff_of_true hresult ?_⟩
    obtain ⟨before, a, heq, ha, -⟩ := hends
    exact ⟨a, by simp [heq], ha⟩
  · refine ⟨hhanded, fun before a after heq ha => ?_, iff_of_false hresult ?_⟩
    · simp [hnone a (by simp [heq])] at ha
    · rintro ⟨a, hmem, ha⟩
      simp [hnone a hmem] at ha

end MessageOrchestrator

open MessageOrchestrator

/-- A call of `send` for a message hands it over at most once more than there are retries, whatever
happens, exactly when there are no retries or every validator with a legacy session that may be picked
first is the only one with a session. In any case it does so when no attempt over a legacy session
throws. -/
theorem send_bounded_iff (o : MessageOrchestrator) {manager : ConnectionManager}
    (hdiffer : o.AddressesDiffer manager) (maxRetries : ℕ) :
    ((∀ turns, BoundedRetries maxRetries ((o.send turns maxRetries 0).exec (.init manager))) ↔
      maxRetries = 0 ∨ ∀ v ∈ o.candidates manager, o.protocolOf manager v = some .legacy →
        ∀ w, w ≠ v → o.protocolOf manager w = none) ∧
    ∀ turns, (∀ a ∈ ((o.send turns maxRetries 0).exec (.init manager)).2.attempts, ¬Threw a) →
      BoundedRetries maxRetries ((o.send turns maxRetries 0).exec (.init manager)) := by
  simp only [send, Nat.sub_zero, exec_sendWithin]
  refine ⟨⟨fun h => ?_, fun h turns => ?_⟩, fun turns h => ?_⟩
  · by_contra hbad
    rw [not_or] at hbad
    obtain ⟨hretries, hbad⟩ := hbad
    simp only [not_forall] at hbad
    obtain ⟨a, hmem, ha, b, hne, hb⟩ := hbad
    obtain ⟨protocol, hb⟩ := Option.ne_none_iff_exists'.mp hb
    obtain ⟨k, rfl⟩ := Nat.exists_eq_succ_of_ne_zero hretries
    obtain ⟨i, hi⟩ := List.getElem?_of_mem hmem
    have hcount : 0 + k + 3 ≤ handedCount (Retry.run (o.level (failing manager a b i (k + 1)))
        (k + 2) (.init manager)).2 :=
      o.handedCount_failing (s := .init manager) k rfl (Nat.zero_add _) hi ha hne hb
    have hbound : handedCount (Retry.run (o.level (failing manager a b i (k + 1)))
        (k + 2) (.init manager)).2 ≤ k + 1 + 1 := (h (failing manager a b i (k + 1))).handed
    omega
  · refine o.boundedRetries_of_length_le turns rfl ?_
    have hcalm : maxRetries + 1 ≤ 1 ∨ o.Calm manager ∧ o.AddressesDiffer manager := by
      rcases h with rfl | h
      · exact .inl le_rfl
      · refine .inr ⟨fun v he hv => ?_, hdiffer⟩
        exact h v (o.mem_candidates_of_eligible (o.connected_of_protocolOf hv) he) hv
    have hlen := o.length_le_of_calm turns (s := .init manager) hcalm
    rwa [show (Sending.init manager).attempts.length = 0 from rfl, Nat.zero_add] at hlen
  · refine o.boundedRetries_of_length_le turns rfl ?_
    have hlen := o.length_le_of_not_threw turns (s := .init manager) h
    rwa [show (Sending.init manager).attempts.length = 0 from rfl, Nat.zero_add] at hlen

namespace Sample

/-- A message of the admin, while all sessions have settled on the legacy protocol. -/
def orchestrator : MessageOrchestrator where
  messageThreshold := 3
  publicKeyToAddress publicKey := if publicKey = toHex aliceKey then alice else bob
  preferredProtocol _ := some .legacy
  requesterAddress := some admin

/-- Alice and Bob are connected. -/
def twoValidators : ConnectionManager :=
  (ConnectionManager.init.append (toHex aliceKey)
    { id := 1, remotePublicKey := toHex aliceKey }).append (toHex bobKey)
      { id := 2, remotePublicKey := toHex bobKey }

/-- The message is handed over, and what should show that it has appeared throws. -/
def unseen (_ : ℕ) : Turn :=
  { random := 0, built := true, lostBefore := [], reply := some resultCodeOk, appeared := none
    lostAfter := [] }

/-- One retry, three attempts. -/
theorem not_boundedRetries_unseen :
    (((orchestrator.send unseen 1 0).exec (.init twoValidators)).2.attempts.map Attempt.outcome =
        [.exception, .exception, .exception]) ∧
      ¬BoundedRetries 1 ((orchestrator.send unseen 1 0).exec (.init twoValidators)) := by
  exact ⟨by decide +kernel, fun h => absurd h.handed (by decide +kernel)⟩

theorem addressesDiffer_twoValidators : orchestrator.AddressesDiffer twoValidators := by
  have h : ∀ v ∈ twoValidators.connectedValidators, ∀ w ∈ twoValidators.connectedValidators,
      orchestrator.publicKeyToAddress v = orchestrator.publicKeyToAddress w → v = w := by
    decide +kernel
  intro v w hv hw
  exact h v (mem_connectedValidators.mpr hv) w (mem_connectedValidators.mpr hw)

theorem boundedRetries_twoValidators :
    (∀ turns, BoundedRetries 0 ((orchestrator.send turns 0 0).exec (.init twoValidators))) ∧
      ¬∀ turns, BoundedRetries 1 ((orchestrator.send turns 1 0).exec (.init twoValidators)) := by
  constructor
  · exact (send_bounded_iff orchestrator addressesDiffer_twoValidators 0).1.mpr (.inl rfl)
  · intro h
    rcases (send_bounded_iff orchestrator addressesDiffer_twoValidators 1).1.mp h with h | h
    · cases h
    · have hbob := h (toHex aliceKey) (by decide +kernel) (by decide +kernel) (toHex bobKey)
        (by decide +kernel)
      exact absurd hbob (by decide +kernel)

end Sample

end SettlementBus
