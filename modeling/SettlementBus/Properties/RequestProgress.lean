import SettlementBus.Lib.Trace
import SettlementBus.Properties.BroadcastRequest

/-! Every request is answered in the end, or its connection is. -/

namespace SettlementBus

open Lib Pending

variable {env : Env} {wallet : Wallet} {txPoolSize : ℕ}

namespace BroadcastServer

/-- The events of the handler, and the timer of its commit. -/
def Own (i : ℕ) (s : BroadcastServer) (e : ServerEvent) : Prop :=
  e.handler? = some i ∨ ∃ h promise, s.handlers[i]? = some h ∧ h.pendingCommit = some promise ∧
    e = .pipeline (.timeout promise)

/-- What the handler awaits has been settled. -/
def isSettled (s : BroadcastServer) (h : RequestHandler) : Bool :=
  h.pendingCommit.any fun promise => (s.pipeline.commits.settlement promise).isSome

/-- How far a request has to go. A settlement is half a stage. -/
def remaining (i : ℕ) (s : BroadcastServer) : ℕ :=
  s.handlers[i]?.elim 0 fun h => 2 * h.stage.rank - (s.isSettled h).toNat

variable {s s' : BroadcastServer} {e : ServerEvent} {i : ℕ} {h h' : RequestHandler}

theorem remaining_of_some (hi : s.handlers[i]? = some h) :
    s.remaining i = 2 * h.stage.rank - (s.isSettled h).toNat := by
  rw [remaining, hi]
  rfl

/-- A settlement lasts. -/
theorem isSettled_of_grows (hsound : s.pipeline.commits.Sound)
    (hgrows : s.pipeline.Grows s'.pipeline) (hsettled : s.isSettled h) : s'.isSettled h := by
  rw [isSettled, Option.any_eq_true] at *
  obtain ⟨promise, hpromise, hsome⟩ := hsettled
  obtain ⟨o, ho⟩ := Option.isSome_iff_exists.mp hsome
  exact ⟨promise, hpromise, by rw [(hgrows.commits.lasts hsound).settled _ _ ho]; rfl⟩

theorem remaining_le (hsound : s.pipeline.commits.Sound) (hgrows : s.pipeline.Grows s'.pipeline)
    (hi : s.handlers[i]? = some h) (hi' : s'.handlers[i]? = some h) :
    s'.remaining i ≤ s.remaining i := by
  rw [remaining_of_some hi, remaining_of_some hi']
  refine Nat.sub_le_sub_left ?_ _
  cases hsettled : s.isSettled h with
  | false => exact Nat.zero_le _
  | true => rw [isSettled_of_grows hsound hgrows hsettled]

theorem remaining_lt (hi : s.handlers[i]? = some h) (hi' : s'.handlers[i]? = some h')
    (hstage : h'.stage.rank < h.stage.rank) : s'.remaining i < s.remaining i := by
  rw [remaining_of_some hi, remaining_of_some hi']
  have hle := Bool.toNat_le (s.isSettled h)
  omega

theorem Effect.grows (hs : s.Sound env wallet txPoolSize)
    (h : Effect env wallet txPoolSize s e s') : s.pipeline.Grows s'.pipeline := by
  obtain heq | ⟨event, hevent, -⟩ := h.pipeline
  · rw [heq]
    exact .refl _
  · exact Pipeline.step_grows hs.pipeline.toSound hevent

/-- No step takes a request back. -/
theorem step_remaining_le (hs : s.Sound env wallet txPoolSize) (hi : i < s.handlers.length)
    (hstep : s.step env wallet txPoolSize e = some s') : s'.remaining i ≤ s.remaining i := by
  have heffect := step_effect hstep
  have hgrows := heffect.grows hs
  have hget := List.getElem?_eq_getElem hi
  cases heffect with
  | arrives =>
    exact remaining_le hs.pipeline.commits hgrows hget
      ((List.getElem?_append_left hi).trans hget)
  | works => exact remaining_le hs.pipeline.commits hgrows hget hget
  | advances _ _ j h h' he hj hhandlers hstage _ _ _ =>
    by_cases heq : j = i
    · subst heq
      refine Nat.le_of_lt (remaining_lt hj ?_ hstage)
      rw [hhandlers, List.getElem?_set_self hi]
    · refine remaining_le hs.pipeline.commits hgrows hget ?_
      rw [hhandlers, List.getElem?_set_ne heq, hget]

/-- The timer settles the commit of the one handler that awaits it. -/
theorem fire_remaining_lt (hs : s.Sound env wallet txPoolSize) {promise : ℕ}
    (hi : s.handlers[i]? = some h) (hpending : h.pendingCommit = some promise)
    (hstep : s.pipeline.step txPoolSize (.timeout promise) = some s'.pipeline)
    (hhandlers : s'.handlers = s.handlers) : s'.remaining i < s.remaining i := by
  simp only [Pipeline.step, Option.bind_eq_bind, Option.bind_eq_some_iff, Option.pure_def,
    Option.some.injEq] at hstep
  obtain ⟨commits, hfire, heq⟩ := hstep
  obtain ⟨entry, hentry, htimeout, rfl⟩ := hs.pipeline.commits.fire_eq hfire
  obtain ⟨rfl, -⟩ := hs.pipeline.commits.running entry hentry promise htimeout
  have hnone := (hs.pipeline.commits.pending entry hentry).2
  obtain ⟨h'', hi'', hstage, -⟩ := hs.awaits hi hpending hnone
  cases hi.symm.trans hi''
  have hbefore : s.isSettled h = false := by simp [isSettled, hpending, hnone]
  have hafter : s'.isSettled h := by
    simpa [isSettled, hpending, ← heq] using
      settlement_settleId (hs.pipeline.commits.find?_eq_some hentry)
  rw [remaining_of_some hi, remaining_of_some (hhandlers ▸ hi), hbefore, hafter, hstage]
  decide

theorem step_own_lt (hs : s.Sound env wallet txPoolSize) (hi : i < s.handlers.length)
    (hstep : s.step env wallet txPoolSize e = some s') (hown : s.Own i e) :
    s'.remaining i < s.remaining i := by
  obtain he | ⟨h, promise, hget, hpending, rfl⟩ := hown
  · cases step_effect hstep with
    | arrives => cases he
    | works => cases he
    | advances _ _ j h h' he' hj hhandlers hstage _ _ _ =>
      cases he.symm.trans he'
      refine remaining_lt hj ?_ hstage
      rw [hhandlers, List.getElem?_set_self hi]
  · obtain ⟨p', hp', -, rfl⟩ := step_pipeline_eq_some hstep
    exact fire_remaining_lt hs hget hpending hp' rfl

/-- A request that is not done can go on. -/
theorem own_enabled (hs : s.Sound env wallet txPoolSize) (hi : i < s.handlers.length)
    (hne : s.remaining i ≠ 0) :
    ∃ e, s.Own i e ∧ (s.step env wallet txPoolSize e).isSome := by
  have hget := List.getElem?_eq_getElem hi
  generalize s.handlers[i] = h at hget
  have hsound := hs.handlers h (List.mem_of_getElem? hget)
  cases hstage : h.stage with
  | validating =>
    refine ⟨.validated i, .inl rfl, ?_⟩
    simp only [step, hget, hstage, Option.bind_eq_bind, Option.bind_some, guard_true]
    split <;> rfl
  | authorizing => exact ⟨.authorized i true, .inl rfl, by simp [step, hget, hstage]⟩
  | building type decodedTransaction =>
    refine ⟨.built i none [], .inl rfl, ?_⟩
    simp only [step, hget, hstage, Option.bind_eq_bind, Option.bind_some]
    split <;> rfl
  | committing =>
    obtain ⟨promise, hqueued⟩ := hstage ▸ hsound
    cases hsettlement : s.pipeline.commits.settlement promise with
    | some o =>
      exact ⟨.settled i, .inl rfl, by simp [step, hget, hstage, hqueued.pendingCommit, hsettlement]⟩
    | none =>
      obtain ⟨x, hx, rfl, t, ht, htimer⟩ :=
        hs.armed ⟨h, hget, hstage, hqueued.pendingCommit⟩ hsettlement
      obtain ⟨rfl, -⟩ := hs.pipeline.commits.running x hx t ht
      refine ⟨.pipeline (.timeout x.promise), .inr ⟨h, _, hget, hqueued.pendingCommit, rfl⟩, ?_⟩
      obtain ⟨commits, hfire⟩ := Option.isSome_iff_exists.mp
        (isSome_fire (.rejected .timeout) htimer)
      simp [step, Pipeline.step, hfire]
  | responding outcome => exact ⟨.responded i 0 [] true, .inl rfl, by simp [step, hget, hstage]⟩
  | done =>
    rw [remaining_of_some hget, hstage] at hne
    exact absurd (Nat.zero_sub _) hne

theorem length_le_of_step (hstep : s.step env wallet txPoolSize e = some s') :
    s.handlers.length ≤ s'.handlers.length := by
  cases step_effect hstep with
  | arrives => simp
  | works => exact Nat.le_refl _
  | advances _ _ j h h' _ _ hhandlers => rw [hhandlers, List.length_set]

theorem lowers (env : Env) (wallet : Wallet) (txPoolSize i : ℕ) :
    Machine.Lowers (BroadcastServer.step env wallet txPoolSize)
      (fun s => s.Sound env wallet txPoolSize ∧ i < s.handlers.length) (Own i) (remaining i) where
  invariant := fun _ _ _ h hstep => ⟨step_sound h.1 hstep, h.2.trans_le (length_le_of_step hstep)⟩
  le := fun _ _ _ h hstep => step_remaining_le h.1 h.2 hstep
  lt := fun _ _ _ h hstep hown => step_own_lt h.1 h.2 hstep hown
  enabled := fun _ h hne => own_enabled h.1 h.2 hne

theorem stage_eq_done (hi : s.handlers[i]? = some h) (hzero : s.remaining i = 0) :
    h.stage = .done := by
  rw [remaining_of_some hi] at hzero
  have hle := Bool.toNat_le (s.isSettled h)
  cases hstage : h.stage <;> rw [hstage, HandlerStage.rank] at hzero
  all_goals omega

/-- The request has one answer, or its connection is ended. -/
def Finished (s : BroadcastServer) (i : ℕ) : Prop :=
  (∃! a, a ∈ s.sent ∧ a.handler = i) ∨ i ∈ s.ended

theorem Sound.finished_of_eq_zero (hs : s.Sound env wallet txPoolSize)
    (hi : i < s.handlers.length) (hzero : s.remaining i = 0) : s.Finished i := by
  have hget := List.getElem?_eq_getElem hi
  obtain hmem | hmem := hs.finished i _ hget (stage_eq_done hget hzero)
  · obtain ⟨a, ha, rfl⟩ := List.mem_map.mp hmem
    exact .inl ⟨a, ⟨ha, rfl⟩, fun b ⟨hb, heq⟩ => List.inj_on_of_nodup_map hs.once hb ha heq⟩
  · exact .inr hmem

end BroadcastServer

/-- In every run without an end that is fair to a request, the request has one answer from some time
on, or its connection is ended. -/
theorem server_finishes {t : Machine.Trace (BroadcastServer.step env wallet txPoolSize)}
    (hinit : t.state 0 = .init) {i n : ℕ} (hn : i < (t.state n).handlers.length)
    (hfair : t.Fair (BroadcastServer.Own i)) :
    ∃ m ≥ n, ∀ l ≥ m, (t.state l).Finished i := by
  have hsound : ∀ m, (t.state m).Sound env wallet txPoolSize := fun m =>
    Machine.Trace.invariant (fun _ _ _ h hstep => BroadcastServer.step_sound h hstep)
      (Nat.zero_le m) (hinit ▸ BroadcastServer.sound_init)
  have hlowers := BroadcastServer.lowers env wallet txPoolSize i
  obtain ⟨m, hm, hzero⟩ := hlowers.exists_eq_zero hfair ⟨hsound n, hn⟩
  have hI := Machine.Trace.invariant hlowers.invariant hm ⟨hsound n, hn⟩
  refine ⟨m, hm, fun l hl => ?_⟩
  have hle := hlowers.le_of_le hl hI
  obtain ⟨hs, hi⟩ := Machine.Trace.invariant hlowers.invariant hl hI
  exact hs.finished_of_eq_zero hi (Nat.le_zero.mp (hzero ▸ hle))

namespace Sample

theorem run_payRun_begun :
    (Machine.run (BroadcastServer.step messaging adminNode 1000) .init (payRun.take 1)).map
      (fun s => s.handlers.length) = some 1 := by
  decide +kernel

theorem run_payRun_done :
    (Machine.run (BroadcastServer.step messaging adminNode 1000) .init payRun).map (fun s =>
        (s.pipeline.appending, s.handlers.map RequestHandler.stage)) = some (none, [.done]) := by
  decide +kernel

/-- After the end of the run the worker of the admin goes on, but has no work. -/
theorem server_finishes_payRun :
    ∃ t : Machine.Trace (BroadcastServer.step messaging adminNode 1000), t.state 0 = .init ∧
      ∃ m ≥ 1, ∀ l ≥ m, (t.state l).Finished 0 := by
  obtain ⟨s, hrun, heq⟩ := Option.map_eq_some_iff.mp run_payRun_done
  obtain ⟨happending, hstages⟩ := Prod.mk.inj heq
  have hidle : s.step messaging adminNode 1000 (.pipeline (.work false)) = some s := by
    simp [BroadcastServer.step, Pipeline.step, Pipeline.prepare, happending]
  obtain ⟨t, ht⟩ := Machine.exists_trace hrun hidle
  have hinit : t.state 0 = .init := (Option.some.inj (ht 0)).symm
  have hs : t.state payRun.length = s := Option.some.inj ((ht _).symm.trans hrun)
  have hn : 0 < (t.state payRun.length).handlers.length := by
    rw [hs, ← List.length_map RequestHandler.stage, hstages]
    decide
  have hsound : (t.state payRun.length).Sound messaging adminNode 1000 :=
    Machine.Trace.invariant (fun _ _ _ h hstep => BroadcastServer.step_sound h hstep)
      (Nat.zero_le _) (hinit ▸ BroadcastServer.sound_init)
  have hzero : (t.state payRun.length).remaining 0 = 0 := by
    have hget := List.getElem?_eq_getElem hn
    have hdone := congrArg (fun l => l[0]?) hstages
    rw [List.getElem?_map, ← hs, hget] at hdone
    rw [BroadcastServer.remaining_of_some hget, Option.some.inj hdone]
    exact Nat.zero_sub _
  have hfair := (BroadcastServer.lowers messaging adminNode 1000 0).fair_of_eq_zero
    ⟨hsound, hn⟩ hzero
  have hbegun : 0 < (t.state 1).handlers.length := by
    obtain ⟨s₁, hrun₁, hlength⟩ := Option.map_eq_some_iff.mp run_payRun_begun
    rw [← Option.some.inj (hrun₁.symm.trans (ht 1)), hlength]
    exact Nat.zero_lt_one
  exact ⟨t, hinit, server_finishes hinit hbegun hfair⟩

end Sample

end SettlementBus
