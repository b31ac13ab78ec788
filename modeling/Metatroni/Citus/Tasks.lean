import Mathlib.Data.Finset.Basic
import Metatroni.Citus.Group
import Metatroni.Citus.Custody

/-!
# The queue of tasks

Changes of `pg_dist_node` are requested as tasks, and a thread of its own takes
them from the queue and processes them. The thread that has requested a change
may wait until its task is processed.

## Implementation notes

A task is an object: the queue, the transaction in flight and the waiting thread
refer to it, and it is changed while it is processed. Objects have numbers here.
What is protected by `_condition` is one step; the thread that processes tasks may
be interrupted between these steps. A task always has a primary, so it is never
empty: where the source tests a task for truth, it tests whether there is one.
-/

namespace Metatroni

namespace Citus

namespace Tasks

/-- The event that has led to a task. -/
inductive Event
  | beforeDemote | beforePromote | afterPromote
  deriving DecidableEq

/-- The nodes of a task, as `as_tuple` shows them. -/
abbrev Nodes := Finset (String × ℕ × Role)

/-- `PgDistTask`. -/
structure Task where
  groupid : ℕ
  nodes : Nodes
  event : Event
  timeout : Option ℕ
  deadline : ℕ

/-- `__eq__`. -/
def Task.Same (a b : Task) : Prop :=
  a.event = b.event ∧ a.groupid = b.groupid ∧ a.nodes = b.nodes

instance (a b : Task) : Decidable (a.Same b) := inferInstanceAs (Decidable (_ ∧ _ ∧ _))

/-- The deadline that `process_task` gives a task that opens a transaction. -/
def Task.withDeadline (task : Task) (now : ℕ) : Task :=
  match task.event, task.timeout with
  | .afterPromote, _ | _, none | _, some 0 => task
  | _, some timeout => { task with deadline := now + timeout }

/-- `CitusHandler`. -/
structure Handler extends Queue where
  objects : ℕ → Task
  pgDistGroup : ℕ → Option Task
  inFlight : Option ℕ
  scheduleLoadPgDistGroup : Bool

namespace Handler

/-- A new handler. -/
def init : Handler where
  created := 0
  tasks := []
  worker := .idle
  accepted := []
  woken := []
  objects _ := ⟨0, ∅, .afterPromote, none, 0⟩
  pgDistGroup _ := none
  inFlight := none
  scheduleLoadPgDistGroup := true

/-- `find_task_by_groupid`: the index, and the task there. -/
def findTaskByGroupid (h : Handler) (tasks : List ℕ) (groupid : ℕ) : Option (ℕ × ℕ) :=
  (tasks.findIdx? fun n => (h.objects n).groupid = groupid).bind fun i =>
    tasks[i]?.map fun n => (i, n)

/-- The cached group is the one that a task wants. -/
def Cached (h : Handler) (task : Task) : Prop :=
  ∃ group ∈ h.pgDistGroup task.groupid, task.Same group

instance (h : Handler) (task : Task) : Decidable (h.Cached task) :=
  inferInstanceAs (Decidable (∃ group ∈ h.pgDistGroup task.groupid, task.Same group))

/-! ## `_add_task` -/

/-- What `_add_task` does. -/
inductive Decision
  | refuse
  | override (i : ℕ)
  | append
  deriving DecidableEq

/-- A task from `sync_meta_data` does not compete with one from the REST API. -/
def Yields (h : Handler) (task : Task) (now : ℕ) : Prop :=
  task.timeout = none ∧
    ((∃ e ∈ h.findTaskByGroupid h.tasks task.groupid, (h.objects e.2).timeout ≠ none) ∨
      ∃ n ∈ h.inFlight, (h.objects n).groupid = task.groupid ∧ (h.objects n).timeout ≠ none ∧
        now < (h.objects n).deadline)

instance (h : Handler) (task : Task) (now : ℕ) : Decidable (h.Yields task now) :=
  inferInstanceAs (Decidable (_ ∧ (_ ∨ _)))

/-- The decision of `_add_task`. -/
def decide (h : Handler) (task : Task) (now : ℕ) : Decision :=
  if h.Yields task now then .refuse
  else
    match h.findTaskByGroupid h.tasks task.groupid with
    | some (i, n) => if task.Same (h.objects n) then .refuse else .override i
    | none =>
        if h.scheduleLoadPgDistGroup ∨ ¬ h.Cached task ∨
            ∃ n ∈ h.inFlight, task.groupid = (h.objects n).groupid then .append
        else .refuse

/-- `_add_task`. -/
def addTask (h : Handler) (task : Task) (now : ℕ) : Handler :=
  let n := h.created
  let h' := { h with objects := Function.update h.objects n task, created := n + 1 }
  match h.decide task now with
  | .refuse => h'
  | .override i => { h' with tasks := h.tasks.set i n, accepted := n :: h.accepted }
  | .append => { h' with tasks := h.tasks ++ [n], accepted := n :: h.accepted }

/-! ## `pick_task` -/

/-- The coordinator first, then the oldest task. -/
def candidate (h : Handler) (tasks : List ℕ) : Option (ℕ × ℕ) :=
  (h.findTaskByGroupid tasks 0).or (tasks.head?.map fun n => (0, n))

/-- The loop of `pick_task`: tasks for which there is nothing to do are removed. The loop
removes one in each pass, so it takes no more passes than there are tasks. -/
def pickLoop (h : Handler) : ℕ → List ℕ → List ℕ × Option (ℕ × ℕ)
  | 0, tasks => (tasks, none)
  | passes + 1, tasks =>
      match h.candidate tasks with
      | none => (tasks, none)
      | some (i, n) =>
          if h.Cached (h.objects n) then h.pickLoop passes (tasks.eraseIdx i)
          else (tasks, some (i, n))

/-- `pick_task`: the queue, and the task with its index. -/
def pickTask (h : Handler) : List ℕ × Option (ℕ × ℕ) :=
  match h.inFlight with
  | some n => (h.tasks, h.findTaskByGroupid h.tasks (h.objects n).groupid)
  | none => h.pickLoop h.tasks.length h.tasks

/-! ## Steps -/

/-- `query` has failed, in a step of its own. -/
def queryFailed (h : Handler) : Handler :=
  { h with inFlight := none, scheduleLoadPgDistGroup := true }

/-- What `transition` does to the nodes of a task and of the group that it starts from. -/
def transition (h : Handler) (n : ℕ) (nodes oldNodes : Nodes) : Handler :=
  let task := h.objects n
  let h := { h with objects := Function.update h.objects n { task with nodes := nodes } }
  match h.inFlight with
  | some m =>
      { h with objects := Function.update h.objects m { h.objects m with nodes := oldNodes } }
  | none =>
      { h with
        pgDistGroup := Function.update h.pgDistGroup task.groupid
          ((h.pgDistGroup task.groupid).map fun group => { group with nodes := oldNodes }) }

/-- The end of a pass of `process_tasks`, up to `wakeup`. The index is looked up again,
which raises an exception if the queue has become shorter. -/
def finish (h : Handler) (i n : ℕ) (updateCache : Option Bool) : Handler :=
  if h.tasks = [] then { h with worker := .finished n }
  else
    let task := h.objects n
    let h := { h with
      pgDistGroup := if updateCache = some true then
          Function.update h.pgDistGroup task.groupid (some task)
        else h.pgDistGroup
      inFlight := if updateCache = some false then some n else none }
    match h.tasks[i]? with
    | none => { h with worker := .idle }
    | some m =>
        { h with
          tasks := if m = n then h.tasks.eraseIdx i else h.tasks
          worker := .finished n }

/-- `run` may roll the transaction back. -/
def Expired (h : Handler) (now : ℕ) : Prop :=
  ∃ n ∈ h.inFlight, h.scheduleLoadPgDistGroup ∨ h.tasks ≠ [] ∧ (h.objects n).deadline ≤ now

instance (h : Handler) (now : ℕ) : Decidable (h.Expired now) :=
  inferInstanceAs (Decidable (∃ n ∈ h.inFlight, _))

/-- The steps of the threads. -/
inductive Label
  /-- `add_task`, for a group of nodes. -/
  | addTask (task : Task) (now : ℕ)
  | onDemote
  | scheduleCacheRebuild
  /-- `load_pg_dist_group` begins to read. -/
  | loadPgDistGroup
  /-- It has read the groups, or has failed. -/
  | loaded (groups : Option (ℕ → Option Nodes))
  /-- `pick_task`, and `process_task` begins. -/
  | pickTask (now : ℕ)
  /-- `transition` changes the nodes of the task. -/
  | transition (nodes oldNodes : Nodes)
  /-- `query` forgets the transaction after an exception. -/
  | queryFails
  /-- `query` schedules the cache rebuild and raises the exception again. -/
  | raises
  /-- `process_task` returns, or raises an exception that does not come from `query`. -/
  | processed (raised : Bool)
  | finish
  | wakeup
  /-- `run` rolls the transaction back. -/
  | rollback (now : ℕ) (failed : Bool)

/-- One step. -/
def step (l : Label) (h : Handler) : Option Handler :=
  match l, h.worker with
  | .addTask task now, _ => some (h.addTask task now)
  | .onDemote, _ => some { h with pgDistGroup := fun _ => none, tasks := [], inFlight := none }
  | .scheduleCacheRebuild, _ => some { h with scheduleLoadPgDistGroup := true }
  | .loadPgDistGroup, .idle =>
      if h.inFlight = none ∧ h.scheduleLoadPgDistGroup then
        some { h with scheduleLoadPgDistGroup := false, worker := .loading }
      else none
  | .loaded none, .loading => some { h.queryFailed with worker := .idle }
  | .loaded (some groups), .loading =>
      some { h with
        pgDistGroup := fun groupid =>
          (groups groupid).map fun nodes => ⟨groupid, nodes, .afterPromote, none, 0⟩
        worker := .idle }
  | .pickTask now, .idle =>
      match h.pickTask with
      | (tasks, none) => some { h with tasks := tasks }
      | (tasks, some (i, n)) =>
          some { h with
            tasks := tasks
            objects := Function.update h.objects n ((h.objects n).withDeadline now)
            worker := .picked i n }
  | .transition nodes oldNodes, .picked _ n => some (h.transition n nodes oldNodes)
  | .queryFails, .picked i n => some { h with inFlight := none, worker := .failed i n }
  | .raises, .failed i n =>
      some { h with scheduleLoadPgDistGroup := true, worker := .processed i n none }
  | .processed raised, .picked i n =>
      some { h with
        worker := .processed i n
          (if raised then none else some ((h.objects n).event = .afterPromote)) }
  | .finish, .processed i n updateCache => some (h.finish i n updateCache)
  | .wakeup, .finished n => some { h with woken := n :: h.woken, worker := .idle }
  | .rollback now failed, .idle =>
      if h.Expired now then some (if failed then h.queryFailed else { h with inFlight := none })
      else none
  | _, _ => none

/-! ## What the functions return -/

variable {h h' : Handler}

theorem findTaskByGroupid_at {tasks : List ℕ} {groupid : ℕ} {e : ℕ × ℕ}
    (he : e ∈ h.findTaskByGroupid tasks groupid) : tasks[e.1]? = some e.2 := by
  obtain ⟨i, -, hi⟩ := Option.bind_eq_some_iff.mp he
  obtain ⟨n, hn, rfl⟩ := Option.map_eq_some_iff.mp hi
  exact hn

theorem candidate_at {tasks : List ℕ} {e : ℕ × ℕ} (he : e ∈ h.candidate tasks) :
    tasks[e.1]? = some e.2 := by
  rcases Option.or_eq_some_iff.mp he with hfound | ⟨-, hhead⟩
  · exact findTaskByGroupid_at hfound
  · obtain ⟨n, hn, rfl⟩ := Option.map_eq_some_iff.mp hhead
    rw [← List.head?_eq_getElem?]
    exact hn

theorem decide_eq_override {task : Task} {now i : ℕ} : h.decide task now = .override i ↔
    ∃ n, h.findTaskByGroupid h.tasks task.groupid = some (i, n) ∧ ¬ h.Yields task now ∧
      ¬ task.Same (h.objects n) := by
  rw [decide]
  by_cases hyields : h.Yields task now
  · simp [hyields]
  · cases hfound : h.findTaskByGroupid h.tasks task.groupid with
    | none => simp [hyields, ite_eq_iff]
    | some e => simp [hyields, ite_eq_iff, Prod.ext_iff, and_comm, and_assoc]

theorem pickLoop_eq_of_not_cached {passes : ℕ} {tasks : List ℕ}
    (hnot : ∀ e ∈ h.candidate tasks, ¬ h.Cached (h.objects e.2)) :
    (h.pickLoop passes tasks).1 = tasks := by
  cases passes with
  | zero => rfl
  | succ passes =>
      rw [pickLoop]
      cases hcandidate : h.candidate tasks with
      | none => rfl
      | some e =>
          dsimp only
          rw [if_neg (hnot e hcandidate)]

theorem pickLoop_sublist (passes : ℕ) (tasks : List ℕ) :
    (h.pickLoop passes tasks).1.Sublist tasks := by
  induction passes generalizing tasks with
  | zero => exact List.Sublist.refl _
  | succ passes ih =>
      rw [pickLoop]
      split
      · exact List.Sublist.refl _
      · split
        · exact (ih _).trans (List.eraseIdx_sublist _ _)
        · exact List.Sublist.refl _

theorem pickLoop_at {passes : ℕ} {tasks : List ℕ} {e : ℕ × ℕ}
    (he : e ∈ (h.pickLoop passes tasks).2) : (h.pickLoop passes tasks).1[e.1]? = some e.2 := by
  induction passes generalizing tasks with
  | zero => simp [pickLoop] at he
  | succ passes ih =>
      rw [pickLoop] at he ⊢
      cases hcandidate : h.candidate tasks with
      | none => simp [hcandidate] at he
      | some c =>
          simp only [hcandidate] at he ⊢
          split at he
          · next hcached =>
              rw [if_pos hcached]
              exact ih he
          · next hcached =>
              rw [if_neg hcached]
              obtain rfl := Option.some.inj he
              exact candidate_at hcandidate

theorem pickTask_at {e : ℕ × ℕ} (he : e ∈ h.pickTask.2) : h.pickTask.1[e.1]? = some e.2 := by
  rw [pickTask] at he ⊢
  split at he
  · exact findTaskByGroupid_at he
  · exact pickLoop_at he

theorem pickTask_sublist : h.pickTask.1.Sublist h.tasks := by
  rw [pickTask]
  split
  · exact List.Sublist.refl _
  · exact pickLoop_sublist _ _

/-- What `pick_task` does to the queue and to the thread. -/
theorem step_pickTask {now : ℕ} (hstep : step (.pickTask now) h = some h') :
    h.worker = .idle ∧ h'.toQueue = { h.toQueue with
      tasks := h.pickTask.1
      worker := match h.pickTask.2 with
        | none => .idle
        | some (i, n) => .picked i n } := by
  cases hw : h.worker with
  | idle =>
      simp only [step, hw] at hstep
      rcases hpick : h.pickTask with ⟨tasks, _ | ⟨i, n⟩⟩ <;> rw [hpick] at hstep <;>
        obtain rfl := Option.some.inj hstep
      · exact ⟨rfl, by rw [← hw]⟩
      · exact ⟨rfl, rfl⟩
  | loading | picked _ _ | failed _ _ | processed _ _ _ | finished _ => simp [step, hw] at hstep

end Handler

end Tasks

end Citus

end Metatroni
