import SettlementBus.Network.Scheduler

/-! A scheduler has one loop unless it is started again while a run is in progress. -/

namespace SettlementBus

open Lib

namespace SchedulerEvent

def isStart : SchedulerEvent → Bool
  | .start _ => true
  | _ => false

/-- No scheduler that is stopped is started while a callback is left, and the worker does not throw
at once. -/
def Orderly (s : Scheduler) : SchedulerEvent → Prop
  | .start initialDelayMs => s.isRunning ∨ validateDelay initialDelayMs = none ∨ s.runs = []
  | .fire _ throws => throws = false
  | _ => True

end SchedulerEvent

namespace Scheduler

variable {s s' : Scheduler} {e : SchedulerEvent} {es : List SchedulerEvent}

/-- At most one call of the worker is in progress, at most one timer or run can lead to the next
one, and there is one while the scheduler runs. -/
structure SingleLoop (s : Scheduler) : Prop where
  working : (s.runs.filter fun r => r.phase = .working).length ≤ 1
  pending : s.timers.length + s.runs.length ≤ 1
  running : s.isRunning → s.timers.length + s.runs.length = 1

/-- The worker is not called between a stop and the next start. -/
def QuietAfterStop (defaultInterval : Delay) (es : List SchedulerEvent) : Prop :=
  ∀ before waitForCurrent after, before ++ .stop waitForCurrent :: after <+: es →
    (∀ e ∈ after, e.isStart = false) →
      ∀ s s', Machine.run step (init defaultInterval) before = some s →
        Machine.run step (s.stop waitForCurrent).1 after = some s' →
          s'.invocations = s.invocations

/-! ### The states of one loop -/

/-- What a scheduler with one loop waits for. -/
inductive Loop
  | idle
  /-- It has been stopped and a run is left. -/
  | draining (r : WorkerRun)
  | waiting (t : Timer)
  | busy (r : WorkerRun)

namespace Loop

def isRunning : Loop → Bool
  | idle => false
  | draining _ => false
  | waiting _ => true
  | busy _ => true

def timers : Loop → List Timer
  | waiting t => [t]
  | _ => []

def runs : Loop → List WorkerRun
  | draining r => [r]
  | busy r => [r]
  | _ => []

/-- The scheduler is in this state. -/
structure Of (l : Loop) (s : Scheduler) : Prop where
  isRunning : s.isRunning = l.isRunning
  timers : s.timers = l.timers
  runs : s.runs = l.runs
  timer : ∀ t ∈ s.timers, s.timer = some t.id

theorem Of.singleLoop {l : Loop} (h : l.Of s) : s.SingleLoop := by
  have hworking : (s.runs.filter fun r => r.phase = .working).length ≤ s.runs.length :=
    List.length_filter_le _ _
  rw [h.runs] at hworking
  refine ⟨?_, ?_, fun hrun => ?_⟩
  · rw [h.runs]
    exact hworking.trans (by cases l <;> simp [Loop.runs])
  · rw [h.timers, h.runs]
    cases l <;> simp [Loop.timers, Loop.runs]
  · rw [h.isRunning] at hrun
    rw [h.timers, h.runs]
    cases l <;> simp_all [Loop.isRunning, Loop.timers, Loop.runs]

end Loop

/-- The scheduler has one loop. -/
def Looping (s : Scheduler) : Prop := ∃ l : Loop, l.Of s

theorem looping_init (defaultInterval : Delay) : (init defaultInterval).Looping :=
  ⟨.idle, rfl, rfl, rfl, by simp [init]⟩

/-! ### Steps -/

theorem next_of_running (hrun : s.isRunning) (ms : Delay) : s.next ms =
    { s with
      timer := some s.nextId
      timers := s.timers ++ [{ id := s.nextId, delay := ms }]
      nextId := s.nextId + 1 } := by
  simp [next, hrun]

theorem next_of_stopped (hrun : s.isRunning = false) (ms : Delay) : s.next ms = s := by
  simp [next, hrun]

/-- A timer is set when nothing else is left. -/
theorem looping_next (htimers : s.timers = []) (hruns : s.runs = []) (ms : Delay) :
    (s.next ms).Looping := by
  by_cases hrun : s.isRunning
  · rw [next_of_running hrun]
    exact ⟨.waiting { id := s.nextId, delay := ms }, hrun, by rw [htimers]; rfl, hruns, by
      simp [htimers]⟩
  · rw [Bool.not_eq_true] at hrun
    rw [next_of_stopped hrun]
    exact ⟨.idle, hrun, htimers, hruns, by simp [htimers]⟩

/-- A change of a run keeps its place. -/
theorem looping_setRun {p : WorkerRun → Bool} {r q : WorkerRun} (h : s.Looping)
    (hr : s.runs.find? p = some r) (hq : q.id = r.id) : (s.setRun q).Looping := by
  obtain ⟨l, hl⟩ := h
  have hmem := List.mem_of_find?_eq_some hr
  rw [hl.runs] at hmem
  cases l with
  | idle => cases hmem
  | waiting t => cases hmem
  | draining x =>
    cases List.mem_singleton.mp hmem
    exact ⟨.draining q, hl.isRunning, hl.timers, by simp [setRun, hl.runs, Loop.runs, hq], hl.timer⟩
  | busy x =>
    cases List.mem_singleton.mp hmem
    exact ⟨.busy q, hl.isRunning, hl.timers, by simp [setRun, hl.runs, Loop.runs, hq], hl.timer⟩

theorem stop_of_running (hrun : s.isRunning) (waitForCurrent : Bool) :
    (s.stop waitForCurrent).1 =
      { s with
        isRunning := false
        timers := s.timers.filter fun t => s.timer ≠ some t.id
        timer := none } := by
  simp [stop, hrun]

theorem stop_of_stopped (hrun : s.isRunning = false) (waitForCurrent : Bool) :
    (s.stop waitForCurrent).1 = s := by
  simp [stop, hrun]

/-- The timer that is left is the one that `stop` clears. -/
theorem looping_stop (h : s.Looping) (waitForCurrent : Bool) :
    (s.stop waitForCurrent).1.Looping := by
  by_cases hrun : s.isRunning
  · obtain ⟨l, hl⟩ := h
    have htimers : (s.timers.filter fun t => s.timer ≠ some t.id) = [] := by
      rw [List.filter_eq_nil_iff]
      intro t ht
      simp [hl.timer t ht]
    have hl' := hl.isRunning
    rw [stop_of_running hrun, htimers]
    cases l with
    | idle => exact absurd hrun (by simp [hl', Loop.isRunning])
    | draining r => exact absurd hrun (by simp [hl', Loop.isRunning])
    | waiting t => exact ⟨.idle, rfl, rfl, hl.runs, by simp⟩
    | busy r => exact ⟨.draining r, rfl, rfl, hl.runs, by simp⟩
  · rw [Bool.not_eq_true] at hrun
    rwa [stop_of_stopped hrun]

theorem start_of_running (hrun : s.isRunning) (initialDelayMs : Option ℚ) :
    s.start initialDelayMs = s := by
  simp [start, hrun]

theorem start_of_invalid {initialDelayMs : Option ℚ} (h : validateDelay initialDelayMs = none) :
    s.start initialDelayMs = s := by
  simp [start, h]

theorem start_of_stopped (hrun : s.isRunning = false) {initialDelayMs : Option ℚ}
    {delayMs : Delay} (h : validateDelay initialDelayMs = some delayMs) :
    s.start initialDelayMs = { s with isRunning := true }.next delayMs := by
  simp [start, hrun, h]

/-- A scheduler that has stopped has no timer left. -/
theorem Looping.timers_eq_nil (h : s.Looping) (hrun : s.isRunning = false) : s.timers = [] := by
  obtain ⟨l, hl⟩ := h
  have hl' := hl.isRunning
  rw [hl.timers]
  cases l with
  | waiting t => simp [hrun, Loop.isRunning] at hl'
  | idle => rfl
  | draining r => rfl
  | busy r => rfl

theorem looping_start (h : s.Looping) {initialDelayMs : Option ℚ}
    (horderly : SchedulerEvent.Orderly s (.start initialDelayMs)) :
    (s.start initialDelayMs).Looping := by
  cases hrun : s.isRunning with
  | true => rwa [start_of_running hrun]
  | false =>
    cases hdelay : validateDelay initialDelayMs with
    | none => rwa [start_of_invalid hdelay]
    | some delayMs =>
      have hruns : s.runs = [] := by
        rcases horderly with hr | hd | hruns
        · simp [hrun] at hr
        · simp [hdelay] at hd
        · exact hruns
      rw [start_of_stopped hrun hdelay]
      exact looping_next (s := { s with isRunning := true }) (h.timers_eq_nil hrun) hruns delayMs

/-- The timer that fires is the only thing left, and the scheduler runs. -/
theorem Looping.of_timer (h : s.Looping) {timer : ℕ} (htimer : s.timers.any (·.id = timer)) :
    s.isRunning ∧ s.timers.filter (·.id ≠ timer) = [] ∧ s.runs = [] := by
  obtain ⟨l, hl⟩ := h
  rw [hl.isRunning, hl.runs, hl.timers]
  rw [hl.timers] at htimer
  cases l with
  | idle => simp [Loop.timers] at htimer
  | draining r => simp [Loop.timers] at htimer
  | waiting t => simpa [Loop.timers, Loop.isRunning, Loop.runs] using htimer
  | busy r => simp [Loop.timers] at htimer

theorem step_fire {timer : ℕ} {throws : Bool} (h : s.step (.fire timer throws) = some s') :
    s.timers.any (·.id = timer) ∧
      s' = run { s with timers := s.timers.filter (·.id ≠ timer) } throws := by
  simp only [step] at h
  split at h
  case isTrue hany => exact ⟨hany, (Option.some.inj h).symm⟩
  case isFalse => cases h

/-- A promise: the callback is all that is left. -/
theorem looping_fire (h : s.Looping) {timer : ℕ} (hs : s.step (.fire timer false) = some s') :
    s'.Looping := by
  obtain ⟨hany, rfl⟩ := step_fire hs
  obtain ⟨hrun, htimers, hruns⟩ := h.of_timer hany
  refine ⟨.busy
    { id := s.nextId, scheduleCalled := false, nextDelay := none, phase := .working }, ?_⟩
  rw [htimers]
  constructor <;> simp [run, hrun, hruns, Loop.isRunning, Loop.timers, Loop.runs]

/-- The run that ends is the only thing left. -/
theorem Looping.of_run (h : s.Looping) {id : ℕ} {r : WorkerRun}
    (hr : s.runs.find? (·.id = id) = some r) :
    s.timers = [] ∧ s.runs.filter (·.id ≠ id) = [] := by
  obtain ⟨l, hl⟩ := h
  have hmem := List.mem_of_find?_eq_some hr
  have hid : r.id = id := by simpa using List.find?_some hr
  rw [hl.runs] at hmem
  rw [hl.timers, hl.runs]
  cases l with
  | idle => cases hmem
  | waiting t => cases hmem
  | draining x =>
    cases List.mem_singleton.mp hmem
    simp [Loop.timers, Loop.runs, hid]
  | busy x =>
    cases List.mem_singleton.mp hmem
    simp [Loop.timers, Loop.runs, hid]

theorem looping_step (h : s.Looping) (hs : s.step e = some s') (horderly : e.Orderly s) :
    s'.Looping := by
  cases e with
  | start initialDelayMs =>
    cases hs
    exact looping_start h horderly
  | stop waitForCurrent =>
    cases hs
    exact looping_stop h waitForCurrent
  | fire timer throws =>
    cases (horderly : throws = false)
    exact looping_fire h hs
  | scheduleNext id ms =>
    obtain ⟨r, hr, hs⟩ := Option.bind_eq_some_iff.mp hs
    cases hs
    exact looping_setRun h hr rfl
  | settle id rejected =>
    obtain ⟨r, hr, hs⟩ := Option.bind_eq_some_iff.mp hs
    cases hs
    exact looping_setRun h hr rfl
  | resume id =>
    obtain ⟨r, hr, hs⟩ := Option.bind_eq_some_iff.mp hs
    cases hphase : r.phase with
    | settled rejected =>
      rw [hphase] at hs
      cases hs
      obtain ⟨l, hl⟩ := looping_setRun (q := { r with
        phase := .returned (s.returnDelay r rejected) }) h hr rfl
      exact ⟨l, hl.isRunning, hl.timers, hl.runs, hl.timer⟩
    | working => simp [hphase] at hs
    | returned nextDelay => simp [hphase] at hs
  | finish id =>
    obtain ⟨r, hr, hs⟩ := Option.bind_eq_some_iff.mp hs
    obtain ⟨htimers, hruns⟩ := h.of_run hr
    cases hphase : r.phase with
    | returned nextDelay =>
      rw [hphase] at hs
      cases hs
      exact looping_next (s := { s with runs := s.runs.filter (·.id ≠ id) }) htimers hruns _
    | working => simp [hphase] at hs
    | settled rejected => simp [hphase] at hs

/-! ### Steps that are not orderly -/

/-- A start while a run is left leaves a timer beside it. -/
theorem not_singleLoop_start (hruns : s.runs ≠ []) (hrun : s.isRunning = false)
    {initialDelayMs : Option ℚ} {delayMs : Delay}
    (hdelay : validateDelay initialDelayMs = some delayMs) :
    ¬(s.start initialDelayMs).SingleLoop := by
  intro h
  have hpending := h.pending
  rw [start_of_stopped hrun hdelay, next_of_running rfl] at hpending
  have hpos := List.length_pos_iff.mpr hruns
  simp only [List.length_append, List.length_singleton] at hpending
  omega

/-- A worker that throws at once ends the loop of a scheduler that runs on. -/
theorem not_singleLoop_fire (h : s.Looping) {timer : ℕ}
    (hs : s.step (.fire timer true) = some s') : ¬s'.SingleLoop := by
  obtain ⟨hany, rfl⟩ := step_fire hs
  obtain ⟨hrun, htimers, hruns⟩ := h.of_timer hany
  intro hsingle
  have hone := hsingle.running
  rw [htimers] at hone
  simp [run, hrun, hruns] at hone

theorem singleLoop_iff_orderly (h : s.Looping) (hs : s.step e = some s') :
    s'.SingleLoop ↔ e.Orderly s := by
  constructor
  · intro hsingle
    cases e with
    | start initialDelayMs =>
      cases hs
      by_contra horderly
      simp only [SchedulerEvent.Orderly, not_or, Bool.not_eq_true] at horderly
      obtain ⟨hrun, hdelay, hruns⟩ := horderly
      obtain ⟨delayMs, hdelay⟩ := Option.ne_none_iff_exists'.mp hdelay
      exact not_singleLoop_start hruns hrun hdelay hsingle
    | fire timer throws =>
      cases throws with
      | false => exact rfl
      | true => exact absurd hsingle (not_singleLoop_fire h hs)
    | _ => trivial
  · intro horderly
    obtain ⟨l, hl⟩ := looping_step h hs horderly
    exact hl.singleLoop

/-! ### After a stop -/

/-- Without a start nothing begins. -/
theorem quiet_step (hrun : s.isRunning = false) (hs : s.step e = some s') (he : e.isStart = false) :
    s'.isRunning = false ∧ s'.invocations = s.invocations := by
  cases e with
  | start initialDelayMs => cases he
  | stop waitForCurrent =>
    cases hs
    rw [stop_of_stopped hrun]
    exact ⟨hrun, rfl⟩
  | fire timer throws =>
    obtain ⟨-, rfl⟩ := step_fire hs
    simp [run, hrun]
  | scheduleNext id ms =>
    obtain ⟨r, hr, hs⟩ := Option.bind_eq_some_iff.mp hs
    cases hs
    exact ⟨hrun, rfl⟩
  | settle id rejected =>
    obtain ⟨r, hr, hs⟩ := Option.bind_eq_some_iff.mp hs
    cases hs
    exact ⟨hrun, rfl⟩
  | resume id =>
    obtain ⟨r, hr, hs⟩ := Option.bind_eq_some_iff.mp hs
    cases hphase : r.phase with
    | settled rejected =>
      rw [hphase] at hs
      cases hs
      exact ⟨hrun, rfl⟩
    | working => simp [hphase] at hs
    | returned nextDelay => simp [hphase] at hs
  | finish id =>
    obtain ⟨r, hr, hs⟩ := Option.bind_eq_some_iff.mp hs
    cases hphase : r.phase with
    | returned nextDelay =>
      rw [hphase] at hs
      cases hs
      rw [next_of_stopped (s := { s with runs := s.runs.filter (·.id ≠ id) }) hrun]
      exact ⟨hrun, rfl⟩
    | working => simp [hphase] at hs
    | settled rejected => simp [hphase] at hs

theorem quiet_run (hrun : s.isRunning = false) (hes : ∀ e ∈ es, e.isStart = false)
    (h : Machine.run step s es = some s') : s'.invocations = s.invocations := by
  induction es generalizing s with
  | nil => cases h; rfl
  | cons e es ih =>
    obtain ⟨t, ht, hrest⟩ := Machine.run_cons.mp h
    obtain ⟨hrun, hsame⟩ := quiet_step hrun ht (hes e (List.mem_cons_self ..))
    rw [← hsame]
    exact ih hrun (fun e he => hes e (List.mem_cons_of_mem _ he)) hrest

theorem isRunning_stop (waitForCurrent : Bool) : (s.stop waitForCurrent).1.isRunning = false := by
  cases hrun : s.isRunning with
  | true => rw [stop_of_running hrun]
  | false => rw [stop_of_stopped hrun, hrun]

theorem invocations_stop (waitForCurrent : Bool) :
    (s.stop waitForCurrent).1.invocations = s.invocations := by
  cases hrun : s.isRunning with
  | true => rw [stop_of_running hrun]
  | false => rw [stop_of_stopped hrun]

end Scheduler

/-- Every state of a run has one loop and the worker rests after a stop, exactly when every event of
the run is orderly. -/
theorem single_loop_iff (defaultInterval : Delay) (es : List SchedulerEvent) :
    (Machine.Along Scheduler.step (fun _ _ s' => s'.SingleLoop) (.init defaultInterval) es ∧
        Scheduler.QuietAfterStop defaultInterval es) ↔
      Machine.Along Scheduler.step (fun s e _ => e.Orderly s) (.init defaultInterval) es := by
  rw [Machine.along_iff (fun s e s' h hs ho => Scheduler.looping_step h hs ho)
    (fun s e s' h hs => Scheduler.singleLoop_iff_orderly h hs)
    (Scheduler.looping_init defaultInterval), and_iff_left_iff_imp]
  intro _ before waitForCurrent after _ hafter s s' hbefore hrest
  rw [Scheduler.quiet_run (Scheduler.isRunning_stop waitForCurrent) hafter hrest,
    Scheduler.invocations_stop]

namespace Sample

def interval : Delay := ⟨100, by norm_num⟩

/-- The worker is still in progress at the second start. -/
def restart : List SchedulerEvent :=
  [.start (some 0), .fire 0 false, .stop false, .start (some 0), .fire 2 false]

/-- Two calls of the worker are in progress. -/
theorem not_singleLoop_restart : ∃ s, Machine.run Scheduler.step (.init interval) restart = some s ∧
    (s.runs.filter fun r => r.phase = .working).length = 2 ∧ s.timers = [] ∧ ¬s.SingleLoop := by
  refine ⟨_, rfl, rfl, rfl, fun h => ?_⟩
  exact absurd h.working (by decide)

end Sample

/-! ### The pool -/

namespace TransactionPoolService

open Scheduler

/-- The pool starts each of its schedulers once, so each has one loop. -/
theorem singleLoop_of_start {processIntervalMs : Delay} {scheduler : Option Scheduler}
    (hstopped : scheduler.any isRunning = false) {es : List SchedulerEvent}
    (hes : ∀ e ∈ es, e.isStart = false ∧ ∀ timer, e ≠ .fire timer true) :
    ∃ s, start true processIntervalMs scheduler = some s ∧
      Machine.Along step (fun _ _ s' => s'.SingleLoop) s es := by
  refine ⟨(Scheduler.init processIntervalMs).start (some 0), by simp [start, hstopped], ?_⟩
  have hstart : ((Scheduler.init processIntervalMs).start (some 0)).Looping :=
    looping_start (looping_init processIntervalMs) (.inr (.inr rfl))
  rw [Machine.along_iff (fun s e s' h hs ho => looping_step h hs ho)
    (fun s e s' h hs => singleLoop_iff_orderly h hs) hstart]
  refine Machine.along_of_forall fun e he s _ => ?_
  obtain ⟨hnotStart, hfire⟩ := hes e he
  cases e with
  | start initialDelayMs => cases hnotStart
  | fire timer throws =>
    cases throws with
    | false => rfl
    | true => exact absurd rfl (hfire timer)
  | _ => trivial

/-- A run of the worker leads to a timer, which is due at once when transactions are left. -/
theorem exists_next {s : Scheduler} {r : WorkerRun} (hrun : s.isRunning) (htimers : s.timers = [])
    (hruns : s.runs = [r]) (hphase : r.phase = .working) (pool : Option TransactionPoolService) :
    ∃ s', Machine.run step s (worker s.defaultInterval r.id pool ++ [.resume r.id, .finish r.id]) =
        some s' ∧ s'.runs = [] ∧ ∃ t, s'.timers = [t] ∧
          (t.delay : ℚ) = if pool.any (·.txPool ≠ []) then 0 else (s.defaultInterval : ℚ) := by
  cases pool with
  | none =>
    simp [worker, Machine.run, step, hruns, hphase, setRun, returnDelay, next, hrun, htimers]
  | some pool =>
    by_cases hpool : pool.txPool = []
    · simp [worker, Machine.run, step, hruns, hphase, setRun, returnDelay, next, hrun, htimers,
        WorkerRun.scheduleNext, validateDelay, hpool, s.defaultInterval.2]
    · simp [worker, Machine.run, step, hruns, hphase, setRun, returnDelay, next, hrun, htimers,
        WorkerRun.scheduleNext, validateDelay, hpool, List.length_pos_iff]

end TransactionPoolService

end SettlementBus
