import Metatroni.Lib.Runs
import Mathlib.Data.Nat.Notation
import Mathlib.Logic.Function.Basic

/-!
# `AsyncExecutor`

Long actions run in a worker thread. A slot holds the scheduled action, a flag
asks a worker not to start, and an event tells `cancel` that no worker is
running. The three are updated under two locks, in separate critical sections
of several threads; each critical section is one step here.

## Implementation notes

An action is represented by the number of the `schedule` call that accepted
it. The code keeps a name in the slot, which only appears in messages. Two
histories are recorded beside the attributes: which functions were called, and
which actions were cancelled before that.
-/

namespace Metatroni

open Runs

/-- `CriticalTask` with results of type `ρ`. -/
structure CriticalTask (ρ : Type) where
  isCancelled : Bool
  result : Option ρ
  deriving DecidableEq, Repr

namespace CriticalTask

variable {ρ : Type}

/-- `reset`, also the state after `__init__`. -/
def reset : CriticalTask ρ := ⟨false, none⟩

/-- `cancel`: it fails once there is a result. -/
def cancel (task : CriticalTask ρ) : CriticalTask ρ × Bool :=
  if task.result.isSome then (task, false) else ({ task with isCancelled := true }, true)

/-- `complete`. -/
def complete (task : CriticalTask ρ) (result : ρ) : CriticalTask ρ :=
  { task with result := some result }

end CriticalTask

/-- How far the worker of an action has come. -/
inductive WorkerPhase
  | unscheduled
  /-- `schedule` has returned `None`. -/
  | scheduled
  /-- `run` was submitted to the thread pool. -/
  | submitted
  /-- `run` has passed its check of `_is_cancelled`. -/
  | entered
  /-- `run` returns early because of `_is_cancelled`. -/
  | skipped
  /-- The function is executing. -/
  | calling
  /-- The function has returned or raised. -/
  | returned
  /-- The `finally` clause of `run` is done. -/
  | exited
  deriving DecidableEq, Repr

/-- A worker is still to come or has not left `run`. -/
def WorkerPhase.outstanding : WorkerPhase → Bool
  | .unscheduled | .exited => false
  | _ => true

/-- A worker that has not yet looked at `_is_cancelled`. -/
def WorkerPhase.pending : WorkerPhase → Bool
  | .scheduled | .submitted => true
  | _ => false

theorem WorkerPhase.outstanding_of_pending {phase : WorkerPhase} (h : phase.pending = true) :
    phase.outstanding = true := by
  cases phase <;> simp_all [pending, outstanding]

/-- How far a call of `cancel` has come, with the action that it found scheduled. -/
inductive CancelPhase
  | idle
  | waiting (action : ℕ)
  | woken (action : ℕ)
  deriving DecidableEq, Repr

/-- The attributes of `AsyncExecutor`, its threads, and the two histories. -/
structure AsyncExecutor where
  scheduledAction : Option ℕ
  isCancelled : Bool
  finishEvent : Bool
  /-- The number of the next action to be accepted. -/
  nextAction : ℕ
  worker : ℕ → WorkerPhase
  canceller : ℕ → CancelPhase
  /-- The function of the action was called. -/
  called : ℕ → Bool
  /-- A call of `cancel` for the action returned before its function was called. -/
  cancelledInTime : ℕ → Bool

namespace AsyncExecutor

/-- `__init__`. -/
def init : AsyncExecutor where
  scheduledAction := none
  isCancelled := false
  finishEvent := false
  nextAction := 0
  worker := fun _ => .unscheduled
  canceller := fun _ => .idle
  called := fun _ => false
  cancelledInTime := fun _ => false

/-- Move one worker on. -/
def setWorker (self : AsyncExecutor) (action : ℕ) (phase : WorkerPhase) : AsyncExecutor :=
  { self with worker := Function.update self.worker action phase }

/-- Move one canceller on. -/
def setCanceller (self : AsyncExecutor) (call : ℕ) (phase : CancelPhase) : AsyncExecutor :=
  { self with canceller := Function.update self.canceller call phase }

/-- `schedule`: the action that is scheduled already, or `none` if it succeeds. -/
def schedule (self : AsyncExecutor) : AsyncExecutor × Option ℕ :=
  match self.scheduledAction with
  | some action => (self, some action)
  | none =>
      ({ self with
        scheduledAction := some self.nextAction
        isCancelled := false
        finishEvent := true
        nextAction := self.nextAction + 1 }.setWorker self.nextAction .scheduled, none)

/-- `reset_scheduled_action`. -/
def resetScheduledAction (self : AsyncExecutor) : AsyncExecutor :=
  { self with scheduledAction := none }

/-- `run_async`: submit the worker of a scheduled action. -/
def runAsync (self : AsyncExecutor) (action : ℕ) : Option AsyncExecutor :=
  if self.worker action = .scheduled then some (self.setWorker action .submitted) else none

/-- The first critical section of `run`. -/
def runEnter (self : AsyncExecutor) (action : ℕ) : Option AsyncExecutor :=
  if self.worker action = .submitted then
    if self.isCancelled then some (self.setWorker action .skipped)
    else some ({ self with finishEvent := false }.setWorker action .entered)
  else none

/-- `run` starts to call its function. -/
def runCall (self : AsyncExecutor) (action : ℕ) : Option AsyncExecutor :=
  if self.worker action = .entered then
    some ({ self with called := Function.update self.called action true }.setWorker action .calling)
  else none

/-- The function of `run` ends. -/
def runReturn (self : AsyncExecutor) (action : ℕ) : Option AsyncExecutor :=
  if self.worker action = .calling then some (self.setWorker action .returned) else none

/-- The `finally` clause of `run`. -/
def runFinally (self : AsyncExecutor) (action : ℕ) : Option AsyncExecutor :=
  if self.worker action = .returned ∨ self.worker action = .skipped then
    some ({ self.resetScheduledAction with finishEvent := true }.setWorker action .exited)
  else none

/-- The first critical section of `cancel`: it returns at once if nothing is scheduled. -/
def cancel (self : AsyncExecutor) (call : ℕ) : Option AsyncExecutor :=
  if self.canceller call = .idle then
    match self.scheduledAction with
    | none => some self
    | some action => some ({ self with isCancelled := true }.setCanceller call (.waiting action))
  else none

/-- `_finish_event.wait()` returns. -/
def cancelWait (self : AsyncExecutor) (call : ℕ) : Option AsyncExecutor :=
  match self.canceller call with
  | .waiting action =>
      if self.finishEvent then some (self.setCanceller call (.woken action)) else none
  | _ => none

/-- The last critical section of `cancel`, after which it returns. -/
def cancelReturn (self : AsyncExecutor) (call : ℕ) : Option AsyncExecutor :=
  match self.canceller call with
  | .woken action =>
      some ({ self.resetScheduledAction with
        cancelledInTime := Function.update self.cancelledInTime action
          (self.cancelledInTime action || !self.called action) }.setCanceller call .idle)
  | _ => none

/-- The critical sections of the threads. -/
inductive Label
  | schedule
  | runAsync (action : ℕ)
  | runEnter (action : ℕ)
  | runCall (action : ℕ)
  | runReturn (action : ℕ)
  | runFinally (action : ℕ)
  | cancel (call : ℕ)
  | cancelWait (call : ℕ)
  | cancelReturn (call : ℕ)
  deriving DecidableEq, Repr

/-- One step of one of the threads. -/
def step (l : Label) (self : AsyncExecutor) : Option AsyncExecutor :=
  match l with
  | .schedule => some self.schedule.1
  | .runAsync action => self.runAsync action
  | .runEnter action => self.runEnter action
  | .runCall action => self.runCall action
  | .runReturn action => self.runReturn action
  | .runFinally action => self.runFinally action
  | .cancel call => self.cancel call
  | .cancelWait call => self.cancelWait call
  | .cancelReturn call => self.cancelReturn call

/-! ## Actions that do not overlap -/

/-- An action is accepted only when no worker of an earlier one is outstanding. -/
def AcceptsWhenQuiet (l : Label) (self : AsyncExecutor) : Prop :=
  l = .schedule → self.scheduledAction = none →
    ∀ action, (self.worker action).outstanding = false

/-- What holds along every run in which actions do not overlap. -/
structure Inv (ex : AsyncExecutor) : Prop where
  fresh : ∀ a, ex.nextAction ≤ a → ex.worker a = .unscheduled
  slot : ∀ a, ex.scheduledAction = some a → a < ex.nextAction
  single : ∀ a b, (ex.worker a).outstanding = true → (ex.worker b).outstanding = true → a = b
  entered : ∀ a, ex.worker a = .entered → ex.finishEvent = false
  called : ∀ a, ex.worker a = .calling ∨ ex.worker a = .returned → ex.called a = true
  /-- The worker of an action that is being cancelled will see the flag. -/
  marked : ∀ c a, ex.canceller c = .waiting a ∨ ex.canceller c = .woken a →
    a < ex.nextAction ∧ ((ex.worker a).pending = true → ex.isCancelled = true)
  woken : ∀ c a, ex.canceller c = .woken a → ex.worker a ≠ .entered
  cancelled : ∀ a, ex.cancelledInTime a = true → a < ex.nextAction ∧ ex.called a = false ∧
    ex.worker a ≠ .entered ∧ ((ex.worker a).pending = true → ex.isCancelled = true)

theorem init_inv : Inv init := by
  constructor <;> simp [init, WorkerPhase.outstanding]

section Preservation

variable {ex ex' : AsyncExecutor} {action call : ℕ}

/-- The flag is cleared for the new action only: no earlier worker is pending. -/
theorem schedule_inv (h : Inv ex)
    (hquiet : ex.scheduledAction = none → ∀ a, (ex.worker a).outstanding = false) :
    Inv ex.schedule.1 := by
  rw [schedule]
  split
  · exact h
  · next hnone =>
      have hquiet := hquiet hnone
      obtain ⟨fresh, slot, single, entered, called, marked, woken, cancelled⟩ := h
      constructor
      all_goals
        simp only [setWorker, Function.update_apply]
        grind [WorkerPhase.outstanding, WorkerPhase.outstanding_of_pending]

theorem runAsync_inv (h : Inv ex) (hs : ex.runAsync action = some ex') : Inv ex' := by
  rw [runAsync] at hs
  split at hs
  · obtain rfl := Option.some.inj hs
    obtain ⟨fresh, slot, single, entered, called, marked, woken, cancelled⟩ := h
    constructor
    all_goals
      simp only [setWorker, Function.update_apply]
      grind [WorkerPhase.outstanding, WorkerPhase.pending]
  · simp at hs

/-- A marked action never enters, and an entered one holds back every canceller. -/
theorem runEnter_inv (h : Inv ex) (hs : ex.runEnter action = some ex') : Inv ex' := by
  rw [runEnter] at hs
  split at hs
  · obtain ⟨fresh, slot, single, entered, called, marked, woken, cancelled⟩ := h
    split at hs
    · obtain rfl := Option.some.inj hs
      constructor
      all_goals
        simp only [setWorker, Function.update_apply]
        grind [WorkerPhase.outstanding, WorkerPhase.pending]
    · -- the flag is not set, so nobody is cancelling this action
      obtain rfl := Option.some.inj hs
      constructor
      all_goals
        simp only [setWorker, Function.update_apply]
        grind [WorkerPhase.outstanding, WorkerPhase.pending]
  · simp at hs

theorem runCall_inv (h : Inv ex) (hs : ex.runCall action = some ex') : Inv ex' := by
  rw [runCall] at hs
  split at hs
  · obtain rfl := Option.some.inj hs
    obtain ⟨fresh, slot, single, entered, called, marked, woken, cancelled⟩ := h
    constructor
    all_goals
      simp only [setWorker, Function.update_apply]
      grind [WorkerPhase.outstanding, WorkerPhase.pending]
  · simp at hs

theorem runReturn_inv (h : Inv ex) (hs : ex.runReturn action = some ex') : Inv ex' := by
  rw [runReturn] at hs
  split at hs
  · obtain rfl := Option.some.inj hs
    obtain ⟨fresh, slot, single, entered, called, marked, woken, cancelled⟩ := h
    constructor
    all_goals
      simp only [setWorker, Function.update_apply]
      grind [WorkerPhase.outstanding, WorkerPhase.pending]
  · simp at hs

/-- The event is set when no other worker can be inside its function. -/
theorem runFinally_inv (h : Inv ex) (hs : ex.runFinally action = some ex') : Inv ex' := by
  rw [runFinally] at hs
  split at hs
  · obtain rfl := Option.some.inj hs
    obtain ⟨fresh, slot, single, entered, called, marked, woken, cancelled⟩ := h
    constructor
    all_goals
      simp only [setWorker, resetScheduledAction, Function.update_apply]
      grind [WorkerPhase.outstanding, WorkerPhase.pending]
  · simp at hs

theorem cancel_inv (h : Inv ex) (hs : ex.cancel call = some ex') : Inv ex' := by
  rw [cancel] at hs
  split at hs
  · split at hs
    · obtain rfl := Option.some.inj hs
      exact h
    · obtain rfl := Option.some.inj hs
      obtain ⟨fresh, slot, single, entered, called, marked, woken, cancelled⟩ := h
      constructor
      all_goals
        simp only [setCanceller, Function.update_apply]
        grind
  · simp at hs

theorem cancelWait_inv (h : Inv ex) (hs : ex.cancelWait call = some ex') : Inv ex' := by
  rw [cancelWait] at hs
  split at hs
  · split at hs
    · -- the event is set, so the action has not entered
      obtain rfl := Option.some.inj hs
      obtain ⟨fresh, slot, single, entered, called, marked, woken, cancelled⟩ := h
      constructor
      all_goals
        simp only [setCanceller, Function.update_apply]
        grind
    · simp at hs
  · simp at hs

theorem cancelReturn_inv (h : Inv ex) (hs : ex.cancelReturn call = some ex') : Inv ex' := by
  rw [cancelReturn] at hs
  split at hs
  · obtain rfl := Option.some.inj hs
    obtain ⟨fresh, slot, single, entered, called, marked, woken, cancelled⟩ := h
    constructor
    all_goals
      simp only [setCanceller, resetScheduledAction, Function.update_apply]
      grind
  · simp at hs

theorem step_inv {l : Label} (hquiet : AcceptsWhenQuiet l ex) (hs : step l ex = some ex')
    (h : Inv ex) : Inv ex' := by
  cases l with
  | schedule =>
      obtain rfl := Option.some.inj hs
      exact schedule_inv h (hquiet rfl)
  | runAsync action => exact runAsync_inv h hs
  | runEnter action => exact runEnter_inv h hs
  | runCall action => exact runCall_inv h hs
  | runReturn action => exact runReturn_inv h hs
  | runFinally action => exact runFinally_inv h hs
  | cancel call => exact cancel_inv h hs
  | cancelWait call => exact cancelWait_inv h hs
  | cancelReturn call => exact cancelReturn_inv h hs

end Preservation

/-- Mutual exclusion of the scheduled functions, and no call after a cancellation in time. -/
def RunsAtMostOne (ex : AsyncExecutor) : Prop :=
  (∀ a b, ex.worker a = .calling → ex.worker b = .calling → a = b) ∧
    ∀ a, ex.cancelledInTime a = true → ex.called a = false

/-- If no action is accepted while a worker of an earlier one is outstanding,
at most one function executes, and none after its action was cancelled. -/
theorem runs_at_most_one_if_quiet (labels : List Label) (ex : AsyncExecutor)
    (run : Run step AcceptsWhenQuiet init labels ex) : ex.RunsAtMostOne := by
  have h : Inv ex := run.invariant (fun _ _ _ hquiet hs => step_inv hquiet hs) init_inv
  constructor
  · intro a b ha hb
    refine h.single a b ?_ ?_
    · rw [ha]
      rfl
    · rw [hb]
      rfl
  · intro a ha
    exact (h.cancelled a ha).2.1

/-- Cancelling a running action, then scheduling the next one. -/
theorem reinitialize_after_exit_runs_at_most_one :
    let labels : List Label := [.schedule, .runAsync 0, .runEnter 0, .runCall 0, .cancel 0,
      .runReturn 0, .runFinally 0, .cancelWait 0, .cancelReturn 0, .schedule, .runAsync 1,
      .runEnter 1, .runCall 1]
    ∃ ex, Run step AcceptsWhenQuiet init labels ex ∧ ex.worker 1 = .calling ∧
      ex.RunsAtMostOne := by
  intro labels
  have hquiet : Guarded step AcceptsWhenQuiet labels init := by
    simp [labels, Guarded, AcceptsWhenQuiet, step, schedule, runAsync, runEnter, runCall, runReturn,
      runFinally, cancel, cancelWait, cancelReturn, init, setWorker, setCanceller,
      resetScheduledAction, Function.update_apply, WorkerPhase.outstanding]
    intro action
    by_cases h : action = 0
    · simp [h]
    · simp [h]
  obtain ⟨ex, hex, hcall⟩ : ∃ ex, exec step labels init = some ex ∧ ex.worker 1 = .calling :=
    ⟨_, rfl, rfl⟩
  have run := run_of_exec hex hquiet
  exact ⟨ex, run, hcall, runs_at_most_one_if_quiet labels ex run⟩

/-- A worker that was submitted but has not entered is overtaken by a whole
cancel and schedule: the flag is cleared again, and both functions execute. -/
theorem overtaken_worker_runs_twice :
    let labels : List Label := [.schedule, .runAsync 0, .cancel 0, .cancelWait 0, .cancelReturn 0,
      .schedule, .runAsync 1, .runEnter 0, .runCall 0, .runEnter 1, .runCall 1]
    ∃ ex, Run step (fun _ _ => True) init labels ex ∧
      (ex.worker 0 = .calling ∧ ex.worker 1 = .calling) ∧
      (ex.cancelledInTime 0 = true ∧ ex.called 0 = true) := by
  intro labels
  obtain ⟨ex, hex, h⟩ : ∃ ex, exec step labels init = some ex ∧
      (ex.worker 0 = .calling ∧ ex.worker 1 = .calling) ∧
      (ex.cancelledInTime 0 = true ∧ ex.called 0 = true) :=
    ⟨_, rfl, ⟨rfl, rfl⟩, rfl, rfl⟩
  exact ⟨ex, run_of_exec hex (guarded_true labels init), h⟩

end AsyncExecutor

end Metatroni
