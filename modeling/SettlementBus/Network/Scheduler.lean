import Mathlib.Algebra.Order.Ring.Rat
import SettlementBus.Lib.Machine
import SettlementBus.Network.Pool

/-! `Scheduler.js` on the event loop: what it has armed, what it awaits and what is left to run. -/

namespace SettlementBus

/-- A delay in milliseconds. -/
abbrev Delay := { ms : ℚ // 0 ≤ ms }

/-- Its argument is what `Number` gives, when that is finite. -/
def validateDelay : Option ℚ → Option Delay
  | some ms => if h : 0 ≤ ms then some ⟨ms, h⟩ else none
  | none => none

/-- Where the callback of a timer stands. -/
inductive RunPhase
  /-- `run` awaits the promise of the worker. -/
  | working
  /-- The promise is settled and the rest of `run` is queued. -/
  | settled (rejected : Bool)
  /-- `run` has returned and the rest of the callback is queued. -/
  | returned (nextDelay : Option Delay)
  deriving DecidableEq

/-- A callback that has called `run`, with the variables of `run`. -/
structure WorkerRun where
  id : ℕ
  scheduleCalled : Bool
  nextDelay : Option Delay
  phase : RunPhase

structure Timer where
  id : ℕ
  delay : Delay

structure Scheduler where
  defaultInterval : Delay
  isRunning : Bool
  timer : Option ℕ
  currentWorkerRun : Option ℕ
  /-- The timers that have been set and have neither fired nor been cleared. -/
  timers : List Timer
  /-- The callbacks that have not ended. -/
  runs : List WorkerRun
  nextId : ℕ
  /-- How often the worker has been called. -/
  invocations : ℕ

inductive SchedulerEvent
  | start (initialDelayMs : Option ℚ)
  | stop (waitForCurrent : Bool)
  /-- The timer fires. The worker throws at once or returns a promise. -/
  | fire (timer : ℕ) (throws : Bool)
  | scheduleNext (run : ℕ) (ms : Option ℚ)
  | settle (run : ℕ) (rejected : Bool)
  /-- `run` goes on after its `await`. -/
  | resume (run : ℕ)
  /-- The callback of the timer goes on after its `await`. -/
  | finish (run : ℕ)

/-- What the worker's argument does to the variables of `run`. It throws for an invalid delay. -/
def WorkerRun.scheduleNext (ms : Option ℚ) (r : WorkerRun) : WorkerRun :=
  { r with scheduleCalled := true, nextDelay := validateDelay ms <|> r.nextDelay }

namespace Scheduler

def init (defaultInterval : Delay) : Scheduler :=
  { defaultInterval, isRunning := false, timer := none, currentWorkerRun := none, timers := []
    runs := [], nextId := 0, invocations := 0 }

variable (s : Scheduler)

def next (ms : Delay) : Scheduler :=
  if !s.isRunning then s
  else
    { s with
      timer := some s.nextId
      timers := s.timers ++ [{ id := s.nextId, delay := ms }]
      nextId := s.nextId + 1 }

def start (initialDelayMs : Option ℚ) : Scheduler :=
  if s.isRunning then s
  else
    match validateDelay initialDelayMs with
    | none => s
    | some delayMs => { s with isRunning := true }.next delayMs

/-- The run is the one that the caller awaits. -/
def stop (waitForCurrent : Bool) : Scheduler × Option ℕ :=
  if !s.isRunning then (s, none)
  else
    ({ s with
        isRunning := false
        timers := s.timers.filter fun t => s.timer ≠ some t.id
        timer := none },
      if waitForCurrent then s.currentWorkerRun else none)

/-- The callback of a timer, up to its first `await` of a promise. -/
def run (throws : Bool) : Scheduler :=
  let r : WorkerRun :=
    { id := s.nextId, scheduleCalled := false, nextDelay := none, phase := .working }
  if !s.isRunning then
    { s with runs := s.runs ++ [{ r with phase := .returned none }], nextId := s.nextId + 1 }
  else if throws then { s with invocations := s.invocations + 1 }
  else
    { s with
      currentWorkerRun := some s.nextId
      runs := s.runs ++ [r]
      nextId := s.nextId + 1
      invocations := s.invocations + 1 }

/-- The rest of `run`. -/
def returnDelay (r : WorkerRun) (rejected : Bool) : Option Delay :=
  if rejected then some s.defaultInterval
  else if r.scheduleCalled then r.nextDelay else some s.defaultInterval

def setRun (r : WorkerRun) : Scheduler :=
  { s with runs := s.runs.map fun q => if q.id = r.id then r else q }

def step : SchedulerEvent → Option Scheduler
  | .start initialDelayMs => some (s.start initialDelayMs)
  | .stop waitForCurrent => some (s.stop waitForCurrent).1
  | .fire timer throws =>
    if s.timers.any (·.id = timer) then
      some (run { s with timers := s.timers.filter (·.id ≠ timer) } throws)
    else none
  | .scheduleNext id ms => do
    let r ← s.runs.find? (·.id = id)
    return s.setRun (r.scheduleNext ms)
  | .settle id rejected => do
    let r ← s.runs.find? fun r => r.id = id ∧ r.phase = .working
    return s.setRun { r with phase := .settled rejected }
  | .resume id => do
    let r ← s.runs.find? (·.id = id)
    match r.phase with
    | .settled rejected =>
      return { s.setRun { r with phase := .returned (s.returnDelay r rejected) } with
        currentWorkerRun := none }
    | _ => none
  | .finish id => do
    let r ← s.runs.find? (·.id = id)
    match r.phase with
    | .returned nextDelay =>
      -- `Number(null)` is 0.
      return next { s with runs := s.runs.filter (·.id ≠ id) } (nextDelay.getD ⟨0, le_rfl⟩)
    | _ => none

end Scheduler

/-! ### The scheduler of the pool -/

namespace TransactionPoolService

/-- The scheduler after `start`. -/
def start (enableWallet : Bool) (processIntervalMs : Delay) (scheduler : Option Scheduler) :
    Option Scheduler :=
  if !enableWallet || scheduler.any Scheduler.isRunning then scheduler
  else some ((Scheduler.init processIntervalMs).start (some 0))

/-- What a run of the worker does to its scheduler, when the transactions have been processed or
that has failed. It is asynchronous, so it does not throw at once. -/
def worker (processIntervalMs : Delay) (run : ℕ) (pool : Option TransactionPoolService) :
    List SchedulerEvent :=
  match pool with
  | some pool =>
    [.scheduleNext run (some (if 0 < pool.txPool.length then 0 else processIntervalMs.1)),
      .settle run false]
  | none => [.settle run true]

end TransactionPoolService

end SettlementBus
