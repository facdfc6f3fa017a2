import SettlementBus.Lib.Lifetime
import SettlementBus.Network.Commit
import SettlementBus.Properties.PendingRequest

/-! How often requests and commits are settled. -/

namespace SettlementBus

open Lib Pending

/-! ### Requests -/

section

variable {maxPendingRequests : ℕ} {schema : NetworkMessage → Bool} {s s' : Requests}
  {e : RequestEvent} {x : PendingRequestEntry} {v : Validation}

/-- A response with the id awaits its validation. -/
def Requests.Validating (s : Requests) (id : Str) : Prop :=
  ∃ v ∈ s.validations, v.message.id = id

/-- The map of requests in a state that a run reaches. An entry whose timer does not run awaits a
validation, and the end of a validation settles the entry with its id. -/
structure Requests.Settling (maxPendingRequests : ℕ) (schema : NetworkMessage → Bool)
    (s : Requests) : Prop where
  exactly : s.service.Exact maxPendingRequests
  armed : ∀ x ∈ s.service.entries, x.Armed s.service ∨ s.Validating x.id
  completes : ∀ call v verdict, s.validations[call]? = some v →
    ∃ s', s.step maxPendingRequests schema (.validated call verdict) = some s' ∧
      ∀ x ∈ s.service.entries, x.id = v.message.id →
        (s'.service.settlement x.promise).isSome

theorem Requests.step_moves (h : s.service.Sound)
    (hstep : s.step maxPendingRequests schema e = some s') :
    Moves maxPendingRequests s'.Validating s.service s'.service := by
  cases e with
  | send remotePublicKey message sent =>
    cases hstep
    unfold Requests.send
    split
    case h_1 => exact .refl
    case h_2 service hregister =>
      simp only [PendingRequestService.registerPendingRequest, Option.bind_eq_bind,
        Option.bind_eq_some_iff, Option.guard_eq_some', exists_const, Option.pure_def,
        Option.some.injEq] at hregister
      obtain ⟨-, hlt, hnone, rfl⟩ := hregister
      cases sent with
      | true => exact .register _ _ .refl hlt hnone
      | false => exact .settleId _ _ (.register _ _ .refl hlt hnone)
  | response remotePublicKey message limited =>
    simp only [Requests.step, Option.bind_eq_bind, Option.bind_eq_some_iff, Option.guard_eq_some',
      exists_const, Option.pure_def, Option.some.injEq] at hstep
    obtain ⟨-, rfl⟩ := hstep
    unfold Requests.handleResponse
    split
    case isTrue => exact .settleId _ _ .refl
    case isFalse =>
      split
      case h_1 => exact .refl
      case h_2 entry _ =>
        exact .stopTimeout _ .refl
          ⟨{ message, remotePublicKey, entry }, List.mem_append_right _ List.mem_cons_self, rfl⟩
  | validated call verdict =>
    simp only [Requests.step, Option.bind_eq_bind, Option.bind_eq_some_iff, Option.pure_def,
      Option.some.injEq] at hstep
    obtain ⟨v, -, rfl⟩ := hstep
    obtain ⟨o, ho⟩ := @finish_eq schema s v verdict
    rw [ho]
    exact .settleId _ _ .refl
  | timeout t =>
    simp only [Requests.step, Option.bind_eq_bind, Option.bind_eq_some_iff, Option.pure_def,
      Option.some.injEq] at hstep
    obtain ⟨service, hfire, rfl⟩ := hstep
    obtain ⟨entry, -, -, rfl⟩ := h.fire_eq hfire
    exact .settleId _ _ .refl
  | connectionClosed remotePublicKey =>
    cases hstep
    exact Moves.settleEach .refl _
  | connectionError remotePublicKey =>
    cases hstep
    exact Moves.settleEach .refl _
  | close =>
    cases hstep
    exact .settleAll _ .refl

/-- A validation lasts until it is done. -/
theorem Requests.mem_validations_step (hstep : s.step maxPendingRequests schema e = some s')
    (hv : v ∈ s.validations) :
    v ∈ s'.validations ∨ ∃ call verdict, e = .validated call verdict ∧
      s.validations[call]? = some v := by
  cases e with
  | send remotePublicKey message sent =>
    cases hstep
    left
    unfold Requests.send
    split
    · exact hv
    · split <;> exact hv
  | response remotePublicKey message limited =>
    simp only [Requests.step, Option.bind_eq_bind, Option.bind_eq_some_iff, Option.guard_eq_some',
      exists_const, Option.pure_def, Option.some.injEq] at hstep
    obtain ⟨-, rfl⟩ := hstep
    left
    unfold Requests.handleResponse
    split
    · exact hv
    · split
      · exact hv
      · exact List.mem_append_left _ hv
  | validated call verdict =>
    simp only [Requests.step, Option.bind_eq_bind, Option.bind_eq_some_iff, Option.pure_def,
      Option.some.injEq] at hstep
    obtain ⟨w, hw, rfl⟩ := hstep
    obtain ⟨i, hi⟩ := List.mem_iff_getElem?.mp hv
    by_cases heq : i = call
    · exact .inr ⟨call, verdict, rfl, heq ▸ hi⟩
    · exact .inl (List.mem_eraseIdx_iff_getElem?.mpr ⟨i, heq, hi⟩)
  | timeout t =>
    simp only [Requests.step, Option.bind_eq_bind, Option.bind_eq_some_iff, Option.pure_def,
      Option.some.injEq] at hstep
    obtain ⟨service, -, rfl⟩ := hstep
    exact .inl hv
  | connectionClosed remotePublicKey =>
    cases hstep
    exact .inl hv
  | connectionError remotePublicKey =>
    cases hstep
    exact .inl hv
  | close =>
    cases hstep
    exact .inl hv

/-- What holds of the states that runs reach. -/
structure Requests.Reached (maxPendingRequests : ℕ) (s : Requests) : Prop where
  moves : Moves maxPendingRequests (fun _ => True) .init s.service
  validating : ∀ x ∈ s.service.entries, x.timeoutId = none → s.Validating x.id

theorem Requests.Reached.step (h : s.Reached maxPendingRequests)
    (hstep : s.step maxPendingRequests schema e = some s') : s'.Reached maxPendingRequests where
  moves := h.moves.trans
    ((Requests.step_moves (h.moves.sound sound_init) hstep).mono fun _ _ => trivial)
  validating := by
    intro x hx htimeout
    have hsound := h.moves.sound sound_init
    obtain hmem | hvalidating := (Requests.step_moves hsound hstep).mem_or_stops hx htimeout
    · obtain ⟨v, hv, hid⟩ := h.validating x hmem htimeout
      obtain hv' | ⟨call, verdict, rfl, hcall⟩ := Requests.mem_validations_step hstep hv
      · exact ⟨v, hv', hid⟩
      · -- Its own validation is done, and it is gone.
        have hgone := ((Requests.step_sound hsound hstep).2 x hmem).mp hx
        exact absurd ⟨v, hcall, hid.symm⟩ hgone
    · exact hvalidating

theorem Requests.reached_init : Requests.init.Reached maxPendingRequests where
  moves := .refl
  validating := fun _ hx => absurd hx List.not_mem_nil

theorem Requests.Reached.settling (h : s.Reached maxPendingRequests) :
    s.Settling maxPendingRequests schema where
  exactly := h.moves.exact
  armed := by
    intro x hx
    by_cases htimeout : x.timeoutId = none
    · exact .inr (h.validating x hx htimeout)
    · exact .inl ((h.moves.sound sound_init).armed hx htimeout)
  completes := by
    intro call v verdict hv
    obtain ⟨o, ho⟩ := @finish_eq schema s v verdict
    refine ⟨{ service := s.finish schema v verdict, validations := s.validations.eraseIdx call },
      by rw [Requests.step, hv]; rfl, fun x hx hid => ?_⟩
    cases hfind : s.service.find? v.message.id with
    | none => exact absurd hid (find?_eq_none.mp hfind x hx)
    | some entry =>
      obtain ⟨hmem, heq⟩ := mem_of_find? hfind
      obtain rfl := (h.moves.sound sound_init).eq_of_id hx hmem (hid.trans heq.symm)
      rw [ho]
      exact settlement_settleId hfind

end

/-! ### Commits -/

namespace TransactionCommitService

variable {p q : TransactionCommitService} {e : CommitEvent}

theorem moves_of_register {txHash : TxHash} (h : p.registerPendingCommit txHash = some q) :
    Moves transactionCommitServiceBufferSize (fun _ => False) p q := by
  simp only [registerPendingCommit, Option.bind_eq_bind, Option.bind_eq_some_iff,
    Option.guard_eq_some', exists_const, Option.pure_def, Option.some.injEq] at h
  obtain ⟨hlt, hhas, rfl⟩ := h
  refine .register _ _ .refl hlt ?_
  simpa [has] using hhas

theorem step_moves (h : p.Sound) (hstep : p.step e = some q) :
    Moves transactionCommitServiceBufferSize (fun _ => False) p q := by
  cases e with
  | register txHash =>
    cases hstep
    cases hassert : (assertTxHash txHash).bind p.registerPendingCommit with
    | none => exact .refl
    | some q =>
      obtain ⟨txHash, -, hregister⟩ := Option.bind_eq_some_iff.mp hassert
      exact moves_of_register hregister
  | resolve txHash receipt =>
    cases hstep
    cases assertTxHash txHash with
    | none => exact .refl
    | some txHash => exact .settleId _ _ .refl
  | reject txHash error =>
    cases hstep
    cases assertTxHash txHash with
    | none => exact .refl
    | some txHash => exact .settleId _ _ .refl
  | timeout t =>
    obtain ⟨entry, -, -, rfl⟩ := h.fire_eq hstep
    exact .settleId _ _ .refl
  | close =>
    cases hstep
    exact .settleAll _ .refl

end TransactionCommitService

/-- In every run, requests and commits are in their maps exactly while their promises are not
settled, each promise keeps its first settlement, and the maps are bounded. An entry has a running
timer or, for a request, a validation of a response that settles it. -/
theorem settled_once (maxPendingRequests : ℕ) (schema : NetworkMessage → Bool) :
    (∀ es s, Machine.run (Requests.step maxPendingRequests schema) .init es = some s →
      s.Settling maxPendingRequests schema ∧
        ∀ es' s', Machine.run (Requests.step maxPendingRequests schema) s es' = some s' →
          s.service.Lasts s'.service) ∧
    ∀ es p, Machine.run TransactionCommitService.step .init es = some p →
      p.Exact TransactionCommitService.transactionCommitServiceBufferSize ∧
        (∀ x ∈ p.entries, x.Armed p) ∧
        ∀ es' p', Machine.run TransactionCommitService.step p es' = some p' → p.Lasts p' := by
  constructor
  · intro es s hrun
    have hs : s.Reached maxPendingRequests := Machine.run_invariant
      (fun _ _ _ h hstep _ => h.step hstep) Requests.reached_init Machine.along_true hrun
    refine ⟨hs.settling, fun es' s' hrun' => ?_⟩
    have hsound := hs.moves.sound sound_init
    have hmoves : Moves maxPendingRequests (fun _ => True) s.service s'.service :=
      Machine.run_invariant (I := fun t => Moves maxPendingRequests (fun _ => True) s.service t.service)
        (fun _ _ _ h hstep _ => h.trans
          ((Requests.step_moves (h.sound hsound) hstep).mono fun _ _ => trivial))
        .refl Machine.along_true hrun'
    exact hmoves.lasts hsound
  · intro es p hrun
    have hp : Moves TransactionCommitService.transactionCommitServiceBufferSize (fun _ => False)
        .init p := Machine.run_invariant
      (fun _ _ _ h hstep _ => h.trans (TransactionCommitService.step_moves (h.sound sound_init) hstep))
      .refl Machine.along_true hrun
    have hsound := hp.sound sound_init
    refine ⟨hp.exact, fun x hx => hsound.armed hx fun htimeout => ?_, fun es' p' hrun' => ?_⟩
    · exact (hp.mem_or_stops hx htimeout).elim (fun h => absurd h List.not_mem_nil) id
    · have hmoves : Moves TransactionCommitService.transactionCommitServiceBufferSize
          (fun _ => False) p p' := Machine.run_invariant
        (fun _ _ _ h hstep _ => h.trans
          (TransactionCommitService.step_moves (h.sound hsound) hstep))
        .refl Machine.along_true hrun'
      exact hmoves.lasts hsound

end SettlementBus
