import SettlementBus.Network.Broadcast
import SettlementBus.Properties.BroadcastRequest

/-! What a node knows of a validator that has answered `OK`. -/

namespace SettlementBus

open Lib Pending

/-! ### The requests of the node -/

namespace Requests

variable {maxPendingRequests : ℕ} {schema : NetworkMessage → Bool} {s s' : Requests}
  {e : RequestEvent} {x : PendingRequestEntry} {v : Validation}

/-- An entry stays but for its timer, or is that of a request that is sent. -/
theorem mem_entries_step (h : s.service.Sound)
    (hstep : s.step maxPendingRequests schema e = some s') (hx : x ∈ s'.service.entries) :
    (∃ y ∈ s.service.entries, y.id = x.id ∧ y.promise = x.promise ∧ y.data = x.data) ∨
      ∃ remotePublicKey message, e = .send remotePublicKey message true ∧
        (s.service.registerPendingRequest maxPendingRequests (toHex remotePublicKey)
          message).isSome ∧ x.id = message.id ∧ x.promise = s.service.nextId ∧
        x.data = message.pendingRequest remotePublicKey := by
  have hsame : ∀ {y : PendingRequestEntry}, y ∈ s.service.entries →
      ∃ z ∈ s.service.entries, z.id = y.id ∧ z.promise = y.promise ∧ z.data = y.data :=
    fun hy => ⟨_, hy, rfl, rfl, rfl⟩
  cases e with
  | send remotePublicKey message sent =>
    cases hstep
    unfold send at hx
    split at hx
    case h_1 => exact .inl (hsame hx)
    case h_2 service hregister =>
      have hsome := Option.isSome_iff_exists.mpr ⟨_, hregister⟩
      simp only [PendingRequestService.registerPendingRequest, Option.bind_eq_bind,
        Option.bind_eq_some_iff, Option.guard_eq_some', exists_const, Option.pure_def,
        Option.some.injEq] at hregister
      obtain ⟨-, -, -, rfl⟩ := hregister
      cases sent with
      | true =>
        obtain hx | rfl := mem_register.mp hx
        · exact .inl (hsame hx)
        · exact .inr ⟨remotePublicKey, message, rfl, hsome, rfl, rfl, rfl⟩
      | false =>
        obtain ⟨hx, hne⟩ := mem_settleId.mp hx
        obtain hx | rfl := mem_register.mp hx
        · exact .inl (hsame hx)
        · exact absurd rfl hne
  | response remotePublicKey message limited =>
    simp only [step, Option.bind_eq_bind, Option.bind_eq_some_iff, Option.guard_eq_some',
      exists_const, Option.pure_def, Option.some.injEq] at hstep
    obtain ⟨-, rfl⟩ := hstep
    unfold handleResponse at hx
    split at hx
    case isTrue => exact .inl (hsame (mem_settleId.mp hx).1)
    case isFalse =>
      split at hx
      case h_1 => exact .inl (hsame hx)
      case h_2 =>
        obtain ⟨y, hy, heq⟩ := mem_entries_stopTimeout hx
        exact .inl ⟨y, hy, heq⟩
  | validated call verdict =>
    simp only [step, Option.bind_eq_bind, Option.bind_eq_some_iff, Option.pure_def,
      Option.some.injEq] at hstep
    obtain ⟨v, -, rfl⟩ := hstep
    obtain ⟨o, ho⟩ := @finish_eq schema s v verdict
    simp only [ho] at hx
    exact .inl (hsame (mem_settleId.mp hx).1)
  | timeout t =>
    simp only [step, Option.bind_eq_bind, Option.bind_eq_some_iff, Option.pure_def,
      Option.some.injEq] at hstep
    obtain ⟨service, hfire, rfl⟩ := hstep
    obtain ⟨entry, -, -, rfl⟩ := h.fire_eq hfire
    exact .inl (hsame (mem_settleId.mp hx).1)
  | connectionClosed remotePublicKey =>
    cases hstep
    exact .inl (hsame (mem_settleEach.mp hx).1)
  | connectionError remotePublicKey =>
    cases hstep
    exact .inl (hsame (mem_settleEach.mp hx).1)
  | close =>
    cases hstep
    exact absurd hx List.not_mem_nil

theorem mem_resolved_rejectPendingRequestsForPeer {service : PendingRequestService} {peer : Str}
    {error : RequestError} {promise resultCode : ℕ}
    (h : (promise, .resolved resultCode) ∈
      (service.rejectPendingRequestsForPeer peer error).settlements) :
    (promise, .resolved resultCode) ∈ service.settlements := by
  obtain h | ⟨x, -, o, ho, heq⟩ := mem_settlements_settleEach h
  · exact h
  · obtain ⟨id, -, hid⟩ := List.mem_map.mp ho
    cases heq
    cases (Prod.mk.inj hid).2

/-- A promise is resolved by a validation that ends well. -/
theorem mem_resolved_step (h : s.service.Sound)
    (hstep : s.step maxPendingRequests schema e = some s') {promise resultCode : ℕ}
    (hmem : (promise, .resolved resultCode) ∈ s'.service.settlements) :
    (promise, .resolved resultCode) ∈ s.service.settlements ∨
      ∃ call v verdict, e = .validated call verdict ∧ s.validations[call]? = some v ∧
        validateResponse schema v.message v.remotePublicKey v.entry verdict = .ok () ∧
        resultCode = v.message.result ∧
        ∃ x ∈ s.service.entries, x.id = v.message.id ∧ x.promise = promise := by
  cases e with
  | send remotePublicKey message sent =>
    cases hstep
    unfold send at hmem
    split at hmem
    case h_1 => exact .inl hmem
    case h_2 service hregister =>
      simp only [PendingRequestService.registerPendingRequest, Option.bind_eq_bind,
        Option.bind_eq_some_iff, Option.guard_eq_some', exists_const, Option.pure_def,
        Option.some.injEq] at hregister
      obtain ⟨-, -, -, rfl⟩ := hregister
      cases sent with
      | true => exact .inl hmem
      | false =>
        obtain hmem | ⟨y, -, -, heq⟩ := mem_settlements_settleId hmem
        · exact .inl hmem
        · cases heq
  | response remotePublicKey message limited =>
    simp only [step, Option.bind_eq_bind, Option.bind_eq_some_iff, Option.guard_eq_some',
      exists_const, Option.pure_def, Option.some.injEq] at hstep
    obtain ⟨-, rfl⟩ := hstep
    unfold handleResponse at hmem
    split at hmem
    case isTrue =>
      obtain hmem | ⟨y, -, -, heq⟩ := mem_settlements_settleId hmem
      · exact .inl hmem
      · cases heq
    case isFalse =>
      split at hmem
      case h_1 => exact .inl hmem
      case h_2 =>
        have hmem : (promise, Settlement.resolved resultCode) ∈
          (s.service.stopTimeout message.id).settlements := hmem
        rw [settlements_stopTimeout] at hmem
        exact .inl hmem
  | validated call verdict =>
    simp only [step, Option.bind_eq_bind, Option.bind_eq_some_iff, Option.pure_def,
      Option.some.injEq] at hstep
    obtain ⟨v, hv, rfl⟩ := hstep
    unfold finish at hmem
    split at hmem
    case h_1 hvalid =>
      obtain hmem | ⟨y, hy, hid, heq⟩ := mem_settlements_settleId hmem
      · exact .inl hmem
      · cases heq
        exact .inr ⟨call, v, verdict, rfl, hv, hvalid, rfl, y, hy, hid, rfl⟩
    case h_2 =>
      obtain hmem | ⟨y, -, -, heq⟩ := mem_settlements_settleId hmem
      · exact .inl hmem
      · cases heq
  | timeout t =>
    simp only [step, Option.bind_eq_bind, Option.bind_eq_some_iff, Option.pure_def,
      Option.some.injEq] at hstep
    obtain ⟨service, hfire, rfl⟩ := hstep
    obtain ⟨entry, -, -, rfl⟩ := h.fire_eq hfire
    obtain hmem | ⟨y, -, -, heq⟩ := mem_settlements_settleId hmem
    · exact .inl hmem
    · cases heq
  | connectionClosed remotePublicKey =>
    cases hstep
    exact .inl (mem_resolved_rejectPendingRequestsForPeer hmem)
  | connectionError remotePublicKey =>
    cases hstep
    exact .inl (mem_resolved_rejectPendingRequestsForPeer hmem)
  | close =>
    cases hstep
    obtain hmem | heq := mem_settlements_settleAll hmem
    · exact .inl hmem
    · cases heq

/-- A validation stays, or is that of a response to a pending request. -/
theorem mem_validations_of_step (hstep : s.step maxPendingRequests schema e = some s')
    (hv : v ∈ s'.validations) :
    v ∈ s.validations ∨
      e = .response v.remotePublicKey v.message false ∧ v.entry ∈ s.service.entries ∧
        v.entry.id = v.message.id := by
  cases e with
  | send remotePublicKey message sent =>
    cases hstep
    unfold send at hv
    split at hv
    · exact .inl hv
    · split at hv <;> exact .inl hv
  | response remotePublicKey message limited =>
    simp only [step, Option.bind_eq_bind, Option.bind_eq_some_iff, Option.guard_eq_some',
      exists_const, Option.pure_def, Option.some.injEq] at hstep
    obtain ⟨-, rfl⟩ := hstep
    unfold handleResponse at hv
    split at hv
    case isTrue => exact .inl hv
    case isFalse hlimited =>
      split at hv
      case h_1 => exact .inl hv
      case h_2 entry hentry =>
        obtain hv | hv := List.mem_append.mp hv
        · exact .inl hv
        · cases List.mem_singleton.mp hv
          exact .inr ⟨by rw [Bool.eq_false_of_not_eq_true hlimited], mem_of_find? hentry⟩
  | validated call verdict =>
    simp only [step, Option.bind_eq_bind, Option.bind_eq_some_iff, Option.pure_def,
      Option.some.injEq] at hstep
    obtain ⟨w, -, rfl⟩ := hstep
    exact .inl (List.mem_of_mem_eraseIdx hv)
  | timeout t =>
    simp only [step, Option.bind_eq_bind, Option.bind_eq_some_iff, Option.pure_def,
      Option.some.injEq] at hstep
    obtain ⟨service, -, rfl⟩ := hstep
    exact .inl hv
  | connectionClosed remotePublicKey =>
    cases hstep
    exact .inl hv
  | connectionError remotePublicKey =>
    cases hstep
    exact .inl hv
  | close =>
    cases hstep
    exact .inl hv

end Requests

/-! ### The requests at the validator -/

/-- The request of the peer that arrives. -/
def ServerEvent.requestOf (remotePublicKey : Buffer) : ServerEvent → List (NetworkMessage × Buffer)
  | .request _ key message signature _ =>
    if key = remotePublicKey then [(message, signature)] else []
  | _ => []

namespace BroadcastServer

variable {env : Env} {wallet : Wallet} {txPoolSize : ℕ} {s s' : BroadcastServer} {e : ServerEvent}

/-- The requests of the peer, with their signatures, in the order in which they arrived. -/
def requestsOf (s : BroadcastServer) (remotePublicKey : Buffer) : List (NetworkMessage × Buffer) :=
  s.handlers.filterMap fun h =>
    if h.remotePublicKey = remotePublicKey then some (h.message, h.signature) else none

/-- A response to a request of the peer, with the message. -/
def Answered (s : BroadcastServer) (remotePublicKey : Buffer) (message : NetworkMessage) : Prop :=
  ∃ a ∈ s.sent, a.message = message ∧
    ∃ h, s.handlers[a.handler]? = some h ∧ h.remotePublicKey = remotePublicKey

theorem requestsOf_step (hstep : s.step env wallet txPoolSize e = some s')
    (remotePublicKey : Buffer) :
    s'.requestsOf remotePublicKey =
      s.requestsOf remotePublicKey ++ ServerEvent.requestOf remotePublicKey e := by
  unfold requestsOf
  cases step_effect hstep with
  | arrives _ key message signature _ h hsame =>
    obtain ⟨rfl, rfl, rfl⟩ := hsame
    rw [List.filterMap_append, List.filterMap_cons, ServerEvent.requestOf]
    split <;> simp_all
  | works => exact (List.append_nil _).symm
  | advances _ _ i h h' he hi hhandlers _ hsame _ _ =>
    obtain ⟨hkey, hmessage, hsignature⟩ := hsame
    have hnone : ServerEvent.requestOf remotePublicKey e = [] := by
      cases e with
      | request => cases he
      | _ => rfl
    rw [hhandlers, hnone, List.append_nil]
    exact filterMap_set hi (by rw [hkey, hmessage, hsignature])

/-- A handler stays in its place, with its request. -/
theorem getElem?_step (hstep : s.step env wallet txPoolSize e = some s') {i : ℕ}
    {h : RequestHandler} (hi : s.handlers[i]? = some h) :
    ∃ h', s'.handlers[i]? = some h' ∧ h'.remotePublicKey = h.remotePublicKey := by
  have hlt := (List.getElem?_eq_some_iff.mp hi).1
  cases step_effect hstep with
  | arrives => exact ⟨h, (List.getElem?_append_left hlt).trans hi, rfl⟩
  | works => exact ⟨h, hi, rfl⟩
  | advances _ _ j h₁ h₂ he hj hhandlers _ hsame _ _ =>
    rw [hhandlers]
    by_cases heq : j = i
    · subst heq
      cases hi.symm.trans hj
      exact ⟨h₂, List.getElem?_set_self hlt, hsame.1⟩
    · exact ⟨h, (List.getElem?_set_ne heq).trans hi, rfl⟩

theorem sent_subset_step (hstep : s.step env wallet txPoolSize e = some s') : s.sent ⊆ s'.sent := by
  cases step_effect hstep with
  | arrives => exact List.Subset.refl _
  | works => exact List.Subset.refl _
  | advances _ _ _ _ _ _ _ _ _ _ hsent _ => exact hsent

theorem Answered.step {remotePublicKey : Buffer} {message : NetworkMessage}
    (h : s.Answered remotePublicKey message) (hstep : s.step env wallet txPoolSize e = some s') :
    s'.Answered remotePublicKey message := by
  obtain ⟨a, ha, hmessage, h, hh, hkey⟩ := h
  obtain ⟨h', hh', hkey'⟩ := getElem?_step hstep hh
  exact ⟨a, sent_subset_step hstep ha, hmessage, h', hh', hkey'.trans hkey⟩

end BroadcastServer

/-! ### Both -/

theorem validateResponse_eq_ok {schema : NetworkMessage → Bool} {payload : NetworkMessage}
    {remotePublicKey : Buffer} {entry : PendingRequestEntry} {verdict : Option ℕ}
    (h : validateResponse schema payload remotePublicKey entry verdict = .ok ()) :
    validateResponseType payload entry = .ok () ∧
      validatePeerCorrectness remotePublicKey entry = .ok () ∧ verdict = none := by
  cases hschema : schema payload with
  | false =>
    simp only [validateResponse, hschema] at h
    cases h
  | true =>
    simp only [validateResponse, hschema, Bool.not_true, Bool.false_eq_true, if_false,
      BroadcastTransactionResponse.bind_eq_ok] at h
    obtain ⟨⟨⟩, htype, ⟨⟩, hpeer, h⟩ := h
    cases verdict with
    | none => exact ⟨htype, hpeer, rfl⟩
    | some resultCode => cases h

/-- The response to a broadcast is accepted from the peer that was asked. -/
theorem validateResponse_broadcast {schema : NetworkMessage → Bool}
    {request payload : NetworkMessage} {remotePublicKey key : Buffer}
    {entry : PendingRequestEntry} {verdict : Option ℕ}
    (h : validateResponse schema payload key entry verdict = .ok ())
    (hentry : entry.data = request.pendingRequest remotePublicKey)
    (hrequest : request.payload.type = .broadcastTransactionRequest) :
    key = remotePublicKey ∧ payload.payload.type = .broadcastTransactionResponse ∧
      verdict = none := by
  obtain ⟨htype, hpeer, hverdict⟩ := validateResponse_eq_ok h
  refine ⟨?_, ?_, hverdict⟩
  · rw [validatePeerCorrectness, hentry] at hpeer
    split at hpeer
    case isTrue heq => exact toHex_injective heq
    case isFalse => cases hpeer
  · rw [validateResponseType, hentry, NetworkMessage.pendingRequest, hrequest] at htype
    dsimp only at htype
    split at htype
    case isTrue heq => exact heq
    case isFalse => cases htype

namespace Broadcast

variable {env : Env} {api : CoreApi} {wallet : Wallet} {txPoolSize maxPendingRequests : ℕ}
  {parties : Parties} {s s' : Broadcast} {e : BroadcastEvent}

/-- The entry is that of a request that was sent. -/
def AskedFor (s : Broadcast) (x : PendingRequestEntry) : Prop :=
  ∃ q ∈ s.asked, x.id = q.message.id ∧ x.promise = q.promise ∧
    x.data = q.message.pendingRequest q.remotePublicKey

/-- The node has verified that the proof is one of the request. -/
def ProvenBy (env : Env) (api : CoreApi) (parties : Parties) (message : NetworkMessage)
    (proof : Buffer) : Prop :=
  ∃ state entry requested completed manifest va,
    entry.data = message.pendingRequest parties.validator ∧
    BroadcastTransactionResponse.Proven env api state proof parties.validator entry requested
      completed manifest va

/-- The validator has answered the request with a proof that the node has verified. -/
def Verified (env : Env) (api : CoreApi) (parties : Parties) (server : BroadcastServer)
    (message : NetworkMessage) : Prop :=
  ∃ response nonce proof timestamp, server.Answered parties.node response ∧
    response.id = message.id ∧
    response.payload = .broadcastTransactionResponse nonce proof timestamp resultCodeOk ∧
    ProvenBy env api parties message proof

/-- What holds of the two in every run. -/
structure Sound (env : Env) (api : CoreApi) (wallet : Wallet) (txPoolSize maxPendingRequests : ℕ)
    (parties : Parties) (s : Broadcast) : Prop where
  server : s.server.Sound env wallet txPoolSize
  client : s.client.Reached maxPendingRequests
  ids : (s.asked.map fun q => q.message.id).Nodup
  promises : (s.asked.map Asked.promise).Nodup
  asked_lt : ∀ q ∈ s.asked, q.promise < s.client.service.nextId
  entries : ∀ x ∈ s.client.service.entries, s.AskedFor x
  validations : ∀ v ∈ s.client.validations, s.AskedFor v.entry ∧ v.entry.id = v.message.id ∧
    (v.remotePublicKey = parties.validator →
      v.message.payload.type = .broadcastTransactionResponse →
        s.server.Answered parties.node v.message)
  delivered : s.delivered.Nodup ∧ (∀ q ∈ s.delivered, q ∈ s.asked) ∧
    s.server.requestsOf parties.node = s.delivered.map fun q => (q.message, q.signature)
  verified : ∀ q ∈ s.asked, q.remotePublicKey = parties.validator →
    q.message.payload.type = .broadcastTransactionRequest →
    (q.promise, .resolved resultCodeOk) ∈ s.client.service.settlements →
      Verified env api parties s.server q.message

theorem sound_init : init.Sound env api wallet txPoolSize maxPendingRequests parties where
  server := BroadcastServer.sound_init
  client := Requests.reached_init
  ids := List.nodup_nil
  promises := List.nodup_nil
  asked_lt := fun _ hq => absurd hq List.not_mem_nil
  entries := fun _ hx => absurd hx List.not_mem_nil
  validations := fun _ hv => absurd hv List.not_mem_nil
  delivered := ⟨List.nodup_nil, fun _ hq => absurd hq List.not_mem_nil, rfl⟩
  verified := fun _ hq => absurd hq List.not_mem_nil

theorem Verified.step {server server' : BroadcastServer} {event : ServerEvent}
    {message : NetworkMessage} (h : Verified env api parties server message)
    (hstep : server.step env wallet txPoolSize event = some server') :
    Verified env api parties server' message := by
  obtain ⟨response, nonce, proof, timestamp, hanswered, hrest⟩ := h
  exact ⟨response, nonce, proof, timestamp, hanswered.step hstep, hrest⟩

namespace Sound

variable (hs : s.Sound env api wallet txPoolSize maxPendingRequests parties)

include hs

theorem service : s.client.service.Sound := hs.client.moves.sound Pending.sound_init

theorem eq_of_id {q q' : Asked} (hq : q ∈ s.asked) (hq' : q' ∈ s.asked)
    (hid : q.message.id = q'.message.id) : q = q' := List.inj_on_of_nodup_map hs.ids hq hq' hid

theorem eq_of_promise {q q' : Asked} (hq : q ∈ s.asked) (hq' : q' ∈ s.asked)
    (hpromise : q.promise = q'.promise) : q = q' :=
  List.inj_on_of_nodup_map hs.promises hq hq' hpromise

/-- The validator goes on, with a request of the node or without. -/
theorem withServer {server : BroadcastServer} {event : ServerEvent} {delivered : List Asked}
    (hstep : s.server.step env wallet txPoolSize event = some server)
    (hdelivered : (s.delivered ++ delivered).Nodup) (hasked : ∀ q ∈ delivered, q ∈ s.asked)
    (hrequest : event.requestOf parties.node = delivered.map fun q => (q.message, q.signature)) :
    { s with server, delivered := s.delivered ++ delivered : Broadcast }.Sound env api wallet
      txPoolSize maxPendingRequests parties where
  server := BroadcastServer.step_sound hs.server hstep
  client := hs.client
  ids := hs.ids
  promises := hs.promises
  asked_lt := hs.asked_lt
  entries := hs.entries
  validations := by
    intro v hv
    obtain ⟨hasked, hid, hanswered⟩ := hs.validations v hv
    exact ⟨hasked, hid, fun hkey htype => (hanswered hkey htype).step hstep⟩
  delivered := by
    obtain ⟨-, hmem, heq⟩ := hs.delivered
    refine ⟨hdelivered, fun q hq => ?_, ?_⟩
    · exact (List.mem_append.mp hq).elim (hmem q) (hasked q)
    · rw [BroadcastServer.requestsOf_step hstep, heq, hrequest, List.map_append]
  verified := fun q hq hkey htype hmem => (hs.verified q hq hkey htype hmem).step hstep

/-- What a validation that ends well says of the request. -/
theorem verified_of_valid {v : Validation} {x : PendingRequestEntry} {q : Asked} {call : ℕ}
    {schema : NetworkMessage → Bool} {state : LocalState} {signature : Buffer}
    (hv : s.client.validations[call]? = some v) (hx : x ∈ s.client.service.entries)
    (hid : x.id = v.message.id) (hq : q ∈ s.asked) (hpromise : x.promise = q.promise)
    (hkey : q.remotePublicKey = parties.validator)
    (htype : q.message.payload.type = .broadcastTransactionRequest)
    (hvalid : validateResponse schema v.message v.remotePublicKey v.entry
      (responseVerdict env api state v.message signature v.remotePublicKey v.entry) = .ok ())
    (hresult : resultCodeOk = v.message.result) :
    Verified env api parties s.server q.message := by
  obtain ⟨⟨q', hq', hentryId, -, hdata⟩, hentry, hanswered⟩ :=
    hs.validations v (List.mem_of_getElem? hv)
  obtain ⟨q'', hq'', hxid, hxpromise, -⟩ := hs.entries x hx
  obtain rfl := hs.eq_of_promise hq'' hq (hxpromise.symm.trans hpromise)
  obtain rfl := hs.eq_of_id hq' hq (by rw [← hentryId, hentry, ← hid, hxid])
  rw [hkey] at hdata
  obtain ⟨hvkey, hvtype, hverdict⟩ := validateResponse_broadcast hvalid hdata htype
  cases hpayload : v.message.payload with
  | broadcastTransactionResponse nonce proof timestamp result =>
    have hok : result = resultCodeOk := by
      rw [NetworkMessage.result, hpayload] at hresult
      exact hresult.symm
    subst hok
    refine ⟨v.message, nonce, proof, timestamp, hanswered hvkey hvtype, by rw [← hid, hxid],
      hpayload, state, v.entry, ?_⟩
    simp only [responseVerdict, hpayload] at hverdict
    split at hverdict
    case h_1 hok =>
      obtain ⟨requested, completed, manifest, va, hproven⟩ :=
        BroadcastTransactionResponse.validate_eq_ok hpayload hok
      exact ⟨requested, completed, manifest, va, hdata, hvkey ▸ hproven⟩
    case h_2 => cases hverdict
  | _ =>
    rw [hpayload] at hvtype
    cases hvtype

/-- The node goes on without a new request. -/
theorem withClient {client : Requests} {event : RequestEvent} {schema : NetworkMessage → Bool}
    {signatures : List Buffer}
    (hstep : s.client.step maxPendingRequests schema event = some client)
    (hsend : ∀ remotePublicKey message, event = .send remotePublicKey message true →
      s.client.service.registerPendingRequest maxPendingRequests (toHex remotePublicKey) message =
        none)
    (hresponse : ∀ message limited, event = .response parties.validator message limited →
      message.payload.type = .broadcastTransactionResponse →
        s.server.Answered parties.node message)
    (hvalidated : ∀ call verdict, event = .validated call verdict →
      ∀ v, s.client.validations[call]? = some v → ∃ state signature,
        verdict = responseVerdict env api state v.message signature v.remotePublicKey v.entry) :
    { s with client, signatures : Broadcast }.Sound env api wallet txPoolSize maxPendingRequests
      parties where
  server := hs.server
  client := hs.client.step hstep
  ids := hs.ids
  promises := hs.promises
  asked_lt := fun q hq => (hs.asked_lt q hq).trans_le
    ((Requests.step_moves hs.service hstep).lasts hs.service).nextId
  entries := by
    intro x hx
    obtain ⟨y, hy, hid, hpromise, hdata⟩ | ⟨remotePublicKey, message, heq, hsome, -⟩ :=
      Requests.mem_entries_step hs.service hstep hx
    · obtain ⟨q, hq, hyid, hypromise, hydata⟩ := hs.entries y hy
      exact ⟨q, hq, hid ▸ hyid, hpromise ▸ hypromise, hdata ▸ hydata⟩
    · rw [hsend remotePublicKey message heq] at hsome
      cases hsome
  validations := by
    intro v hv
    obtain hv | ⟨heq, hentry, hid⟩ := Requests.mem_validations_of_step hstep hv
    · exact hs.validations v hv
    · refine ⟨hs.entries _ hentry, hid, fun hkey => hresponse v.message false ?_⟩
      rw [heq, hkey]
  delivered := hs.delivered
  verified := by
    intro q hq hkey htype hmem
    obtain hmem | ⟨call, v, verdict, heq, hv, hvalid, hresult, x, hx, hid, hpromise⟩ :=
      Requests.mem_resolved_step hs.service hstep hmem
    · exact hs.verified q hq hkey htype hmem
    · obtain ⟨state, signature, rfl⟩ := hvalidated call verdict heq v hv
      exact hs.verified_of_valid hv hx hid hq hpromise hkey htype hvalid hresult

/-- A request is sent under a new id, with a new promise. -/
theorem withRequest {remotePublicKey : Buffer} {message : NetworkMessage} {signature : Buffer}
    (hid : ∀ q ∈ s.asked, q.message.id ≠ message.id) {service : PendingRequestService}
    (hregister : s.client.service.registerPendingRequest maxPendingRequests (toHex remotePublicKey)
      message = some service) :
    { s with
      client := s.client.send maxPendingRequests remotePublicKey message true
      asked := s.asked ++
        [{ promise := s.client.service.nextId, remotePublicKey, message, signature }] :
      Broadcast }.Sound env api wallet txPoolSize maxPendingRequests parties := by
  have hstep : s.client.step maxPendingRequests (fun _ => true) (.send remotePublicKey message true) =
    some (s.client.send maxPendingRequests remotePublicKey message true) := rfl
  have hlt : s.client.service.nextId <
      (s.client.send maxPendingRequests remotePublicKey message true).service.nextId := by
    simp only [Requests.send, hregister, if_true]
    simp only [PendingRequestService.registerPendingRequest, Option.bind_eq_bind,
      Option.bind_eq_some_iff, Option.guard_eq_some', exists_const, Option.pure_def,
      Option.some.injEq] at hregister
    obtain ⟨-, -, -, rfl⟩ := hregister
    exact Nat.lt_succ_self _
  constructor
  case server => exact hs.server
  case client => exact hs.client.step hstep
  case ids =>
    rw [List.map_append]
    refine hs.ids.append (List.nodup_singleton _) ?_
    simpa using hid
  case promises =>
    rw [List.map_append]
    refine hs.promises.append (List.nodup_singleton _) ?_
    simpa using fun q hq => Nat.ne_of_lt (hs.asked_lt q hq)
  case asked_lt =>
    intro q hq
    obtain hq | hq := List.mem_append.mp hq
    · exact (hs.asked_lt q hq).trans hlt
    · cases List.mem_singleton.mp hq
      exact hlt
  case entries =>
    intro x hx
    obtain ⟨y, hy, hid, hpromise, hdata⟩ | ⟨key, message', heq, -, hx⟩ :=
      Requests.mem_entries_step hs.service hstep hx
    · obtain ⟨q, hq, hyid, hypromise, hydata⟩ := hs.entries y hy
      exact ⟨q, List.mem_append_left _ hq, hid ▸ hyid, hpromise ▸ hypromise, hdata ▸ hydata⟩
    · cases heq
      exact ⟨_, List.mem_append_right _ List.mem_cons_self, hx⟩
  case validations =>
    intro v hv
    obtain hv | ⟨heq, -⟩ := Requests.mem_validations_of_step hstep hv
    · obtain ⟨⟨q, hq, hentry⟩, hv⟩ := hs.validations v hv
      exact ⟨⟨q, List.mem_append_left _ hq, hentry⟩, hv⟩
    · cases heq
  case delivered =>
    obtain ⟨hnodup, hmem, heq⟩ := hs.delivered
    exact ⟨hnodup, fun q hq => List.mem_append_left _ (hmem q hq), heq⟩
  case verified =>
    intro q hq hkey htype hmem
    obtain hmem | ⟨call, v, verdict, heq, -⟩ := Requests.mem_resolved_step hs.service hstep hmem
    · obtain hq | hq := List.mem_append.mp hq
      · exact hs.verified q hq hkey htype hmem
      · cases List.mem_singleton.mp hq
        exact absurd (hs.service.settled _ hmem) (Nat.lt_irrefl _)
    · cases heq

end Sound

/-- A broadcast response that the node receives from the validator is one of its responses. -/
theorem Sound.receive (hs : s.Sound env api wallet txPoolSize maxPendingRequests parties)
    {remotePublicKey : Buffer} {message : NetworkMessage} {signature : Buffer} {limited : Bool}
    (hreceive : s.receive maxPendingRequests remotePublicKey message signature limited = some s')
    (hanswered : remotePublicKey = parties.validator →
      message.payload.type = .broadcastTransactionResponse →
        s.server.Answered parties.node message) :
    s'.Sound env api wallet txPoolSize maxPendingRequests parties := by
  simp only [Broadcast.receive, Option.bind_eq_bind, Option.bind_eq_some_iff, Option.pure_def,
    Option.some.injEq] at hreceive
  obtain ⟨client, hclient, rfl⟩ := hreceive
  refine hs.withClient hclient ?_ ?_ ?_
  · rintro _ _ ⟨⟩
  · rintro _ _ ⟨⟩
    exact hanswered rfl
  · rintro _ _ ⟨⟩

theorem server_eq_some {event : ServerEvent}
    (hstep : s.step env api wallet txPoolSize maxPendingRequests parties (.server event) =
      some s') :
    event.requestOf parties.node = [] ∧
      ∃ server, s.server.step env wallet txPoolSize event = some server ∧
        s' = { s with server } := by
  cases event with
  | request connection key message signature limited =>
    simp only [step, Option.bind_eq_bind, Option.bind_eq_some_iff, Option.guard_eq_some',
      exists_const, Option.pure_def, Option.some.injEq] at hstep
    obtain ⟨hkey, server, hserver, rfl⟩ := hstep
    exact ⟨if_neg hkey, server, hserver, rfl⟩
  | _ =>
    simp only [step, Option.bind_eq_bind, Option.bind_eq_some_iff, Option.pure_def,
      Option.some.injEq] at hstep
    obtain ⟨server, hserver, rfl⟩ := hstep
    exact ⟨rfl, server, hserver, rfl⟩

theorem client_eq_some {event : RequestEvent}
    (hstep : s.step env api wallet txPoolSize maxPendingRequests parties (.client event) =
      some s') :
    (∀ key message sent, event ≠ .send key message sent) ∧
      (∀ key message limited, event ≠ .response key message limited) ∧
      (∀ call verdict, event ≠ .validated call verdict) ∧
      ∃ client, s.client.step maxPendingRequests (fun _ => true) event = some client ∧
        s' = { s with client } := by
  cases event with
  | send => cases hstep
  | response => cases hstep
  | validated => cases hstep
  | _ =>
    simp only [step, Option.bind_eq_bind, Option.bind_eq_some_iff, Option.pure_def,
      Option.some.injEq] at hstep
    obtain ⟨client, hclient, rfl⟩ := hstep
    exact ⟨by simp, by simp, by simp, client, hclient, rfl⟩

theorem step_sound (hs : s.Sound env api wallet txPoolSize maxPendingRequests parties)
    (hstep : s.step env api wallet txPoolSize maxPendingRequests parties e = some s') :
    s'.Sound env api wallet txPoolSize maxPendingRequests parties := by
  cases e with
  | send remotePublicKey message signature sent =>
    simp only [step, Option.bind_eq_bind, Option.bind_eq_some_iff, Option.guard_eq_some',
      exists_const, Option.pure_def, Option.some.injEq] at hstep
    obtain ⟨hid, rfl⟩ := hstep
    have hclient : s.client.step maxPendingRequests (fun _ => true)
      (.send remotePublicKey message sent) =
        some (s.client.send maxPendingRequests remotePublicKey message sent) := rfl
    cases hregister : s.client.service.registerPendingRequest maxPendingRequests
        (toHex remotePublicKey) message with
    | none =>
      simp only [Option.isSome_none, Bool.and_false, Bool.false_eq_true, if_false]
      refine hs.withClient hclient (fun key m heq => ?_) ?_ ?_
      · cases heq
        exact hregister
      · rintro _ _ ⟨⟩
      · rintro _ _ ⟨⟩
    | some service =>
      cases sent with
      | false =>
        simp only [Bool.false_and, Bool.false_eq_true, if_false]
        refine hs.withClient hclient ?_ ?_ ?_ <;> rintro _ _ ⟨⟩
      | true => exact hs.withRequest hid hregister
  | deliver place connection limited =>
    simp only [step, Option.bind_eq_bind, Option.bind_eq_some_iff, Option.guard_eq_some',
      exists_const, Option.pure_def, Option.some.injEq] at hstep
    obtain ⟨q, hq, ⟨hkey, hfresh⟩, server, hserver, rfl⟩ := hstep
    refine hs.withServer hserver ?_ (fun q' hq' => ?_) ?_
    · exact hs.delivered.1.append (List.nodup_singleton _) (by simpa using hfresh)
    · cases List.mem_singleton.mp hq'
      exact List.mem_of_getElem? hq
    · simp [ServerEvent.requestOf]
  | server event =>
    obtain ⟨hnone, server, hserver, rfl⟩ := server_eq_some hstep
    have hnodup : (s.delivered ++ []).Nodup := by simpa using hs.delivered.1
    have h := hs.withServer hserver hnodup (fun _ hq => absurd hq List.not_mem_nil)
      (hnone.trans List.map_nil.symm)
    rwa [List.append_nil] at h
  | answer place limited =>
    simp only [step, Option.bind_eq_bind, Option.bind_eq_some_iff, Option.guard_eq_some',
      exists_const] at hstep
    obtain ⟨a, ha, h, hh, hkey, hstep⟩ := hstep
    exact hs.receive hstep fun _ _ => ⟨a, List.mem_of_getElem? ha, rfl, h, hh, hkey⟩
  | response remotePublicKey message signature limited =>
    simp only [step, Option.bind_eq_bind, Option.bind_eq_some_iff, Option.guard_eq_some',
      exists_const] at hstep
    obtain ⟨hother, hstep⟩ := hstep
    exact hs.receive hstep fun hkey htype => absurd htype (hother hkey)
  | validated call state =>
    simp only [step, Option.bind_eq_bind, Option.bind_eq_some_iff, Option.pure_def,
      Option.some.injEq] at hstep
    obtain ⟨v, hv, signature, -, client, hclient, rfl⟩ := hstep
    refine hs.withClient hclient ?_ ?_ ?_
    · rintro _ _ ⟨⟩
    · rintro _ _ ⟨⟩
    · rintro _ _ ⟨⟩ w hw
      cases hv.symm.trans hw
      exact ⟨state, signature, rfl⟩
  | client event =>
    obtain ⟨hsend, hresponse, hvalidated, client, hclient, rfl⟩ := client_eq_some hstep
    refine hs.withClient hclient (fun key m heq => absurd heq (hsend key m true))
      (fun m limited heq => absurd heq (hresponse _ m limited))
      (fun call verdict heq => absurd heq (hvalidated call verdict))

/-- The requests of the node at the validator are different ones that the node has sent. -/
theorem Sound.eq_of_handler (hs : s.Sound env api wallet txPoolSize maxPendingRequests parties)
    {i : ℕ} {h : RequestHandler} (hi : s.server.handlers[i]? = some h)
    (hkey : h.remotePublicKey = parties.node) {q : Asked} (hq : q ∈ s.asked)
    (hid : h.message.id = q.message.id) : h.message = q.message ∧ h.signature = q.signature := by
  obtain ⟨-, hmem, heq⟩ := hs.delivered
  have hrequest : (h.message, h.signature) ∈ s.server.requestsOf parties.node :=
    List.mem_filterMap.mpr ⟨h, List.mem_of_getElem? hi, if_pos hkey⟩
  rw [heq] at hrequest
  obtain ⟨q', hq', heq⟩ := List.mem_map.mp hrequest
  obtain ⟨hmessage, hsignature⟩ := Prod.mk.inj heq
  obtain rfl := hs.eq_of_id (hmem q' hq') hq (by rw [hmessage, hid])
  exact ⟨hmessage.symm, hsignature.symm⟩

theorem Sound.handler_unique (hs : s.Sound env api wallet txPoolSize maxPendingRequests parties)
    {i j : ℕ} {h h' : RequestHandler} (hi : s.server.handlers[i]? = some h)
    (hj : s.server.handlers[j]? = some h') (hkey : h.remotePublicKey = parties.node)
    (hkey' : h'.remotePublicKey = parties.node) (hid : h'.message.id = h.message.id) : j = i := by
  obtain ⟨hnodup, hmem, heq⟩ := hs.delivered
  let f : RequestHandler → Option Str := fun h =>
    if h.remotePublicKey = parties.node then some h.message.id else none
  have hids : s.server.handlers.filterMap f = s.delivered.map fun q => q.message.id := by
    have hmap := congrArg (List.map fun request => request.1.id) heq
    rw [BroadcastServer.requestsOf, List.map_filterMap, List.map_map] at hmap
    rw [show (fun q : Asked => q.message.id) = (fun request => request.1.id) ∘
      fun q : Asked => (q.message, q.signature) from rfl, ← hmap]
    congr 1
    funext h
    simp only [f]
    split <;> rfl
  refine BroadcastServer.eq_of_nodup_filterMap (f := f) (c := h.message.id) ?_ hj hi ?_ (if_pos hkey)
  · rw [hids]
    exact hnodup.map_on fun q hq q' hq' heq => hs.eq_of_id (hmem q hq) (hmem q' hq') heq
  · exact (if_pos hkey').trans (congrArg some hid)

end Broadcast

/-- In every run of a node and a validator, a request whose promise is resolved with `OK` is one that
exactly one handler of the validator has worked on. Its operation was completed and committed, and
the proof that the node has verified is the one that the validator made when it was appended. -/
theorem broadcast_agrees {env : Env} {api : CoreApi} {wallet : Wallet}
    {txPoolSize maxPendingRequests : ℕ} {parties : Parties} {es : List BroadcastEvent}
    {s : Broadcast}
    (hrun : Machine.run
      (Broadcast.step env api wallet txPoolSize maxPendingRequests parties) .init es = some s)
    {q : Asked} (hq : q ∈ s.asked) (hkey : q.remotePublicKey = parties.validator)
    (htype : q.message.payload.type = .broadcastTransactionRequest)
    (hok : s.client.service.settlement q.promise = some (.resolved resultCodeOk)) :
    ∃ (i : ℕ) (h : RequestHandler) (item : PoolItem) (receipt : Receipt) (proof : Buffer),
      s.server.handlers[i]? = some h ∧ h.remotePublicKey = parties.node ∧
      h.message = q.message ∧ h.signature = q.signature ∧
      (∀ (j : ℕ) (h' : RequestHandler), s.server.handlers[j]? = some h' →
        h'.remotePublicKey = parties.node → h'.message.id = q.message.id → j = i) ∧
      h.Committed env wallet s.server.pipeline item receipt ∧ receipt.proof = some proof ∧
      Broadcast.ProvenBy env api parties q.message proof := by
  have hs : s.Sound env api wallet txPoolSize maxPendingRequests parties := Machine.run_invariant
    (fun _ _ _ h hstep _ => Broadcast.step_sound h hstep) Broadcast.sound_init
    Machine.along_true hrun
  obtain ⟨response, nonce, proof, timestamp, ⟨a, ha, rfl, h, hh, hnode⟩, hid, hpayload, hproven⟩ :=
    hs.verified q hq hkey htype (mem_settlements_of_settlement hok)
  obtain ⟨h', item, receipt, hh', hcommitted, hproof, -⟩ := hs.server.committed ha hpayload
  cases hh.symm.trans hh'
  have hid : h.message.id = q.message.id := by rw [← hid, (hs.server.sent a ha).id_eq hh]
  obtain ⟨hmessage, hsignature⟩ := hs.eq_of_handler hh hnode hq hid
  exact ⟨a.handler, h, item, receipt, proof, hh, hnode, hmessage, hsignature,
    fun j h' hj hnode' hid' => hs.handler_unique hh hj hnode hnode' (hid'.trans hid.symm),
    hcommitted, hproof, hproven⟩

namespace Sample

def aliceAndAdmin : Parties where
  node := aliceKey
  validator := adminKey

def payAsked : Asked where
  promise := 0
  remotePublicKey := adminKey
  message := payRequest
  signature := aliceNode.sign requestHash

/-- Alice asks the admin, who commits her transfer and answers. -/
def payExchange : List BroadcastEvent :=
  [.send adminKey payRequest (aliceNode.sign requestHash) true, .deliver 0 0 false,
    .server (.validated 0), .server (.authorized 0 true),
    .server (.built 0 none payAdminCompletion.vn), .server (.pipeline (.work true)),
    .server (.pipeline (.appended 1 (fun _ => .proof [1]) 1763500001000)), .server (.settled 0),
    .server (.responded 0 1763500001200 responseNonce true), .answer 0 false,
    .validated 0 aliceState]

theorem run_payExchange :
    (Machine.run (Broadcast.step messaging cores adminNode 1000 50000 aliceAndAdmin) .init
        payExchange).map (fun s => (s.asked, s.client.service.settlement 0)) =
      some ([payAsked], some (.resolved resultCodeOk)) := by
  decide +kernel

theorem broadcast_agrees_payExchange :
    ∃ (s : Broadcast) (i : ℕ) (h : RequestHandler) (item : PoolItem) (receipt : Receipt),
      Machine.run (Broadcast.step messaging cores adminNode 1000 50000 aliceAndAdmin) .init
        payExchange = some s ∧
      s.server.handlers[i]? = some h ∧ h.message = payRequest ∧
      h.Committed messaging adminNode s.server.pipeline item receipt := by
  obtain ⟨s, hrun, heq⟩ := Option.map_eq_some_iff.mp run_payExchange
  obtain ⟨hasked, hok⟩ := Prod.mk.inj heq
  have hq : payAsked ∈ s.asked := by
    rw [hasked]
    exact List.mem_cons_self
  obtain ⟨i, h, item, receipt, -, hh, -, hmessage, -, -, hcommitted, -⟩ :=
    broadcast_agrees hrun hq rfl rfl hok
  exact ⟨s, i, h, item, receipt, hrun, hh, hmessage, hcommitted⟩

end Sample

end SettlementBus
