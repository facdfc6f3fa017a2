import SettlementBus.Network.Response

/-! Whose messages settle a request. -/

namespace SettlementBus

open Lib Pending

section

variable {maxPendingRequests : ℕ} {schema : NetworkMessage → Bool} {s s' : Requests}
  {e : RequestEvent} {x : PendingRequestEntry}

/-- The event is a message of the peer that was asked, the validation of one, its disconnect or
error, the request's own timeout or the shutdown. -/
def RequestEvent.OfPeer (s : Requests) (x : PendingRequestEntry) : RequestEvent → Prop
  | .send .. => False
  | .response remotePublicKey _ _ => toHex remotePublicKey = x.data.requestedTo
  | .validated call _ =>
    ∃ v, s.validations[call]? = some v ∧ toHex v.remotePublicKey = x.data.requestedTo
  | .timeout t => x.timeoutId = some t
  | .connectionClosed remotePublicKey | .connectionError remotePublicKey =>
    toHex remotePublicKey = x.data.requestedTo
  | .close => True

/-- Only the peer that was asked settles a pending request or stops its timer. -/
def SettledByPeer (s : Requests) (e : RequestEvent) (s' : Requests) : Prop :=
  ∀ x ∈ s.service.entries, ¬x.Unchanged s.service s'.service → e.OfPeer s x

/-- The id of a processed response, if it is pending, is that of a request to its sender, or of one
whose timer is stopped when the response is awaiting its validation. -/
def AnsweredByPeer (s : Requests) (e : RequestEvent) (_ : Requests) : Prop :=
  match e with
  | .response remotePublicKey message limited =>
    ∀ x ∈ s.service.entries, x.id = message.id →
      toHex remotePublicKey = x.data.requestedTo ∨ limited = false ∧ x.timeoutId = none
  | .validated call _ =>
    ∀ v, s.validations[call]? = some v → ∀ x ∈ s.service.entries, x.id = v.message.id →
      toHex v.remotePublicKey = x.data.requestedTo
  | _ => True

/-- What an event removes or stops. -/
def RequestEvent.Touches (s : Requests) (x : PendingRequestEntry) : RequestEvent → Prop
  | .send .. => False
  | .response _ message limited => x.id = message.id ∧ (limited = false → x.timeoutId ≠ none)
  | .validated call _ => ∃ v, s.validations[call]? = some v ∧ x.id = v.message.id
  | .timeout t => x.timeoutId = some t
  | .connectionClosed remotePublicKey | .connectionError remotePublicKey =>
    toHex remotePublicKey = x.data.requestedTo
  | .close => True

theorem finish_eq (v : Validation) (verdict : Option ℕ) :
    ∃ o, s.finish schema v verdict = s.service.settleId v.message.id o := by
  unfold Requests.finish
  split
  · exact ⟨_, rfl⟩
  · exact ⟨_, rfl⟩

theorem mem_rejectPendingRequestsForPeer {service : PendingRequestService} (h : service.Sound)
    (hx : x ∈ service.entries) {peer : Str} {error : RequestError} :
    x ∈ (service.rejectPendingRequestsForPeer peer error).entries ↔
      ¬peer = x.data.requestedTo := by
  refine mem_settleEach.trans ((and_iff_right hx).trans (not_congr ?_))
  simp only [List.map_map, Function.comp_def, List.mem_map, List.mem_filter,
    decide_eq_true_eq]
  constructor
  · rintro ⟨y, ⟨hy, hpeer⟩, hid⟩
    exact h.eq_of_id hx hy hid.symm ▸ hpeer.symm
  · exact fun hpeer => ⟨x, ⟨hx, hpeer.symm⟩, rfl⟩

/-- A step keeps the timers and promises sound, and the entries that it does not touch. -/
theorem Requests.step_sound (h : s.service.Sound)
    (hstep : s.step maxPendingRequests schema e = some s') :
    s'.service.Sound ∧ ∀ x ∈ s.service.entries,
      (x ∈ s'.service.entries ↔ ¬e.Touches s x) := by
  cases e with
  | send remotePublicKey message sent =>
    cases hstep
    unfold Requests.send
    split
    case h_1 => exact ⟨h, fun x hx => ⟨fun _ => id, fun _ => hx⟩⟩
    case h_2 service hregister =>
      simp only [PendingRequestService.registerPendingRequest, Option.bind_eq_bind,
        Option.bind_eq_some_iff, Option.guard_eq_some', exists_const, Option.pure_def,
        Option.some.injEq] at hregister
      obtain ⟨-, -, hnone, rfl⟩ := hregister
      have hsound := h.register hnone
      rw [find?_eq_none] at hnone
      cases sent with
      | true =>
        exact ⟨hsound _, fun x hx => ⟨fun _ => id, fun _ => mem_register.mpr (.inl hx)⟩⟩
      | false =>
        refine ⟨(hsound _).settleId, fun x hx => ⟨fun _ => id, fun _ => ?_⟩⟩
        exact mem_settleId.mpr ⟨mem_register.mpr (.inl hx), hnone x hx⟩
  | response remotePublicKey message limited =>
    simp only [Requests.step, Option.bind_eq_bind, Option.bind_eq_some_iff, Option.guard_eq_some',
      exists_const, Option.pure_def, Option.some.injEq] at hstep
    obtain ⟨-, rfl⟩ := hstep
    cases limited with
    | true =>
      refine ⟨h.settleId, fun x hx => mem_settleId.trans ?_⟩
      simp [hx, RequestEvent.Touches]
    | false =>
      simp only [Requests.handleResponse, Bool.false_eq_true, if_false]
      split
      case h_1 hnone =>
        have hnone := find?_eq_none.mp hnone
        exact ⟨h, fun x hx => ⟨fun _ ht => hnone x hx ht.1, fun _ => hx⟩⟩
      case h_2 =>
        refine ⟨h.stopTimeout, fun x hx => (mem_stopTimeout hx).trans ?_⟩
        simp [RequestEvent.Touches]
  | validated call verdict =>
    simp only [Requests.step, Option.bind_eq_bind, Option.bind_eq_some_iff, Option.pure_def,
      Option.some.injEq] at hstep
    obtain ⟨v, hv, rfl⟩ := hstep
    obtain ⟨o, ho⟩ := @finish_eq schema s v verdict
    simp only [ho]
    refine ⟨h.settleId, fun x hx => mem_settleId.trans ?_⟩
    simp [hx, RequestEvent.Touches, hv]
  | timeout t =>
    simp only [Requests.step, Option.bind_eq_bind, Option.bind_eq_some_iff, Option.pure_def,
      Option.some.injEq] at hstep
    obtain ⟨service, hfire, rfl⟩ := hstep
    obtain ⟨entry, hentry, ht, rfl⟩ := h.fire_eq hfire
    refine ⟨h.settleId, fun x hx => mem_settleId.trans ?_⟩
    have hid : x.id = entry.id ↔ x.timeoutId = some t := by
      constructor
      · exact fun heq => h.eq_of_id hx hentry heq ▸ ht
      · intro hxt
        by_contra hne
        exact h.timeoutId_ne hx hentry (fun heq => hne (congrArg _ heq)) hxt ht.symm
    simp [hx, RequestEvent.Touches, hid]
  | connectionClosed remotePublicKey =>
    cases hstep
    exact ⟨h.settleEach, fun x hx => mem_rejectPendingRequestsForPeer h hx⟩
  | connectionError remotePublicKey =>
    cases hstep
    exact ⟨h.settleEach, fun x hx => mem_rejectPendingRequestsForPeer h hx⟩
  | close =>
    cases hstep
    exact ⟨h.settleAll, fun x _ => ⟨fun hx => absurd hx List.not_mem_nil, fun hn => absurd trivial hn⟩⟩

theorem Requests.step_unchanged (h : s.service.Sound)
    (hstep : s.step maxPendingRequests schema e = some s') (hx : x ∈ s.service.entries) :
    x.Unchanged s.service s'.service ↔ ¬e.Touches s x := by
  obtain ⟨h', hmem⟩ := Requests.step_sound h hstep
  exact (h.unchanged_iff h' hx).trans (hmem x hx)

theorem settledByPeer_iff (h : s.service.Sound)
    (hstep : s.step maxPendingRequests schema e = some s') :
    SettledByPeer s e s' ↔ AnsweredByPeer s e s' := by
  have htouches : SettledByPeer s e s' ↔
      ∀ x ∈ s.service.entries, e.Touches s x → e.OfPeer s x :=
    forall₂_congr fun x hx => by rw [Requests.step_unchanged h hstep hx, not_not]
  rw [htouches]
  cases e with
  | response remotePublicKey message limited =>
    refine forall₂_congr fun x _ => ?_
    simp only [RequestEvent.Touches, RequestEvent.OfPeer]
    by_cases htimer : limited = false ∧ x.timeoutId = none
    · simp [htimer]
    · have hrunning : limited = false → x.timeoutId ≠ none := fun hl hn => htimer ⟨hl, hn⟩
      rw [and_iff_left hrunning, or_iff_left htimer]
  | validated call verdict =>
    simp only [RequestEvent.Touches, RequestEvent.OfPeer, AnsweredByPeer]
    constructor
    · intro h v hv x hx hid
      obtain ⟨v', hv', hpeer⟩ := h x hx ⟨v, hv, hid⟩
      cases hv.symm.trans hv'
      exact hpeer
    · rintro h x hx ⟨v, hv, hid⟩
      exact ⟨v, hv, h v hv x hx hid⟩
  | send => simp [RequestEvent.Touches, AnsweredByPeer]
  | timeout => simp [RequestEvent.Touches, RequestEvent.OfPeer, AnsweredByPeer]
  | connectionClosed => simp [RequestEvent.Touches, RequestEvent.OfPeer, AnsweredByPeer]
  | connectionError => simp [RequestEvent.Touches, RequestEvent.OfPeer, AnsweredByPeer]
  | close => simp [RequestEvent.OfPeer, AnsweredByPeer]

/-- In every run, only the peers that were asked settle requests and stop their timers, exactly if
the responses that are processed are answers of these peers. -/
theorem settled_by_peer (es : List RequestEvent) :
    Machine.Along (Requests.step maxPendingRequests schema) SettledByPeer .init es ↔
      Machine.Along (Requests.step maxPendingRequests schema) AnsweredByPeer .init es :=
  Machine.along_iff (fun _ _ _ h hstep _ => (Requests.step_sound h hstep).1)
    (fun _ _ _ h hstep => settledByPeer_iff h hstep) sound_init

end

namespace Sample

/-- A node asks one peer whether it is alive, and another peer answers. -/
def askedPeer : Buffer := List.replicate 32 1

def otherPeer : Buffer := List.replicate 32 2

def livenessRequest : NetworkMessage where
  id := "0198c1a4".toList
  timestamp := 0
  capabilities := []
  payload := .livenessRequest (List.replicate 32 3)

def livenessResponse : NetworkMessage where
  id := livenessRequest.id
  timestamp := 0
  capabilities := []
  payload := .livenessResponse (List.replicate 32 4) resultCodeOk

def foreignAnswer : List RequestEvent :=
  [.send askedPeer livenessRequest true, .response otherPeer livenessResponse false,
    .validated 0 none]

/-- The answer of the other peer stops the timer, and the check of the sender, which fails, rejects
the request. -/
theorem not_settledByPeer_foreignAnswer :
    (∃ s, Machine.run (Requests.step 50000 fun _ => true) .init foreignAnswer = some s ∧
        s.service.entries = [] ∧
        s.service.settlement 0 = some (.rejected (.protocol resultCodeInvalidPayload))) ∧
      ¬Machine.Along (Requests.step 50000 fun _ => true) SettledByPeer .init foreignAnswer := by
  refine ⟨⟨_, rfl, by decide, by decide⟩, fun h => ?_⟩
  obtain ⟨-, h⟩ := h _ rfl
  obtain ⟨h, -⟩ := h _ rfl
  have hpeer := h
    { id := livenessRequest.id
      data :=
        { requestType := .livenessRequest
          requestTxData := none
          requestedTo := toHex askedPeer }
      timeoutId := some 0
      promise := 0 } List.mem_cons_self
    (fun hunchanged => absurd (hunchanged.timer 0 rfl) (by decide))
  exact absurd hpeer (show toHex otherPeer ≠ toHex askedPeer by decide)

end Sample

end SettlementBus
