import Metatroni.Lib.Runs
import Metatroni.Citus.Tasks

/-!
# Tasks that nobody wakes up

The thread of the handler wakes up who waits for a task after it has processed
it. Tasks also leave the queue in other ways: a task is overridden by another one
for the same group, there is nothing to do for it, or the node is demoted. Then
nobody is woken up.
-/

namespace Metatroni

namespace Citus

namespace Tasks

open Runs

namespace Handler

/-- A step takes no task out of the queue, unless the task is being processed: no other is
overridden, there is something to do for the one that is picked first, and a demotion finds
no other. -/
def Keeps (l : Label) (h : Handler) : Prop :=
  match l with
  | .addTask task now => ∀ e ∈ h.findTaskByGroupid h.tasks task.groupid,
      h.worker.task = some e.2 ∨ h.Yields task now ∨ task.Same (h.objects e.2)
  | .pickTask _ => h.inFlight = none → ∀ e ∈ h.candidate h.tasks, ¬ h.Cached (h.objects e.2)
  | .onDemote => ∀ n ∈ h.tasks, h.worker.task = some n
  | _ => True

instance (l : Label) (h : Handler) : Decidable (Keeps l h) :=
  match l with
  | .addTask task _ => inferInstanceAs (Decidable
      (∀ e ∈ h.findTaskByGroupid h.tasks task.groupid, _ ∨ _ ∨ _))
  | .pickTask _ => inferInstanceAs (Decidable (_ → ∀ e ∈ h.candidate h.tasks, _))
  | .onDemote => inferInstanceAs (Decidable (∀ n ∈ h.tasks, _))
  | .scheduleCacheRebuild | .loadPgDistGroup | .loaded _ | .transition _ _ | .queryFails
  | .raises | .processed _ | .finish | .wakeup | .rollback _ _ => .isTrue trivial

variable {h h' : Handler}

/-! ## `_add_task` -/

/-- A task that is appended, or that overrides the one being processed, leaks no other. -/
theorem addTask_inv {task : Task} {now : ℕ} (hkeeps : Keeps (.addTask task now) h) (hinv : h.Inv) :
    (h.addTask task now).Inv := by
  have hfresh : h.created ∉ h.tasks := fun hn => hinv.created_ne (hinv.tasks _ hn) rfl
  rw [addTask]
  cases hdecision : h.decide task now with
  | refuse => exact hinv.refuse
  | append =>
      apply hinv.enter
      · exact hinv.nodup.append (List.nodup_singleton _) (by simpa using hfresh)
      · intro n hn
        exact (List.mem_append.mp hn).imp_right List.mem_singleton.mp
      · intro n hn
        exact .inl (List.mem_append_left _ hn)
      · exact List.mem_append_right _ (List.mem_singleton_self _)
      · intro i n hn hpos
        exact hpos.append (hinv.created_ne hn)
  | override i =>
      obtain ⟨m, hfound, hyields, hsame⟩ := decide_eq_override.mp hdecision
      have hat : h.tasks[i]? = some m := findTaskByGroupid_at hfound
      have hworker : h.worker.task = some m :=
        (hkeeps _ hfound).resolve_right (not_or.mpr ⟨hyields, hsame⟩)
      apply hinv.enter
      · exact hinv.nodup.set hfresh
      · intro n hn
        exact List.mem_or_eq_of_mem_set hn
      · intro n hn
        by_cases hne : n = m
        · exact .inr (hne ▸ hworker)
        · exact .inl (mem_set_of_ne hat hn hne)
      · exact List.mem_set (List.getElem?_eq_some_iff.mp hat).1 _
      · intro j n hn hpos
        exact hpos.set hinv.nodup (hinv.created_ne hn)

/-- Any other task that is overridden is leaked. -/
theorem addTask_leaks {task : Task} {now : ℕ} (hkeeps : ¬ Keeps (.addTask task now) h)
    (hinv : h.Inv) : ¬ (h.addTask task now).NoneLeaked := by
  simp only [Keeps, not_forall, not_or] at hkeeps
  obtain ⟨⟨i, m⟩, hfound, hworker, hyields, hsame⟩ := hkeeps
  have hat : h.tasks[i]? = some m := findTaskByGroupid_at hfound
  have hmem := List.mem_of_getElem? hat
  rw [addTask, decide_eq_override.mpr ⟨m, hfound, hyields, hsame⟩]
  apply hinv.leaks hmem
  · exact not_mem_set hinv.nodup hat (hinv.created_ne (hinv.tasks _ hmem))
  · exact hworker
  · rfl
  · intro k hk
    exact List.mem_cons_of_mem _ hk

/-! ## `pick_task` -/

theorem pickTask_tasks {now : ℕ} (hkeeps : Keeps (.pickTask now) h) : h.pickTask.1 = h.tasks := by
  rw [pickTask]
  split
  · rfl
  · next hflight => exact pickLoop_eq_of_not_cached (hkeeps hflight)

/-- As long as the first candidate has something to do, no task is taken from the queue. -/
theorem pickTask_inv {now : ℕ} (hkeeps : Keeps (.pickTask now) h)
    (hstep : step (.pickTask now) h = some h') (hinv : h.Inv) : h'.Inv := by
  obtain ⟨hidle, hqueue⟩ := step_pickTask hstep
  have htasks := pickTask_tasks hkeeps
  rw [hqueue, htasks]
  cases hpick : h.pickTask.2 with
  | none => exact hidle ▸ hinv
  | some e => exact hinv.pick hidle (htasks ▸ pickTask_at hpick)

/-- A task for which there is nothing to do is leaked. -/
theorem pickTask_leaks {now : ℕ} (hkeeps : ¬ Keeps (.pickTask now) h)
    (hstep : step (.pickTask now) h = some h') (hinv : h.Inv) : ¬ h'.NoneLeaked := by
  obtain ⟨hidle, hqueue⟩ := step_pickTask hstep
  simp only [Keeps, not_forall, not_not] at hkeeps
  obtain ⟨hflight, ⟨i, m⟩, hcandidate, hcached⟩ := hkeeps
  have hat : h.tasks[i]? = some m := candidate_at hcandidate
  have hmem := List.mem_of_getElem? hat
  -- the first pass of the loop removes the candidate
  have hgone : m ∉ h.pickTask.1 := by
    obtain ⟨passes, hpasses⟩ : ∃ passes, h.tasks.length = passes + 1 :=
      Nat.exists_eq_add_one.mpr (List.length_pos_of_mem hmem)
    rw [pickTask, hflight]
    dsimp only
    rw [hpasses, pickLoop, hcandidate]
    dsimp only
    rw [if_pos hcached]
    intro hm
    exact ((mem_eraseIdx_iff hinv.nodup hat).mp ((pickLoop_sublist _ _).mem hm)).1 rfl
  rw [hqueue]
  apply hinv.leaks hmem hgone
  · cases hpick : h.pickTask.2 with
    | none => simp [Worker.task]
    | some e =>
        rintro ⟨⟩
        exact hgone (List.mem_of_getElem? (pickTask_at hpick))
  · rfl
  · exact fun k hk => hk

/-! ## Runs -/

/-- The queue is not shorter than it was when the task was picked, so the task is woken. -/
theorem finish_inv {i n : ℕ} {updateCache : Option Bool}
    (hw : h.worker = .processed i n updateCache) (hinv : h.Inv) :
    (h.finish i n updateCache).Inv := by
  have htask : h.worker.task = some n := by rw [hw]; rfl
  have hpos : Position h.tasks i n := by
    have := hinv.holds
    rwa [hw] at this
  rw [finish]
  split
  · next hnil => exact hinv.finish htask (by simp [hnil]) (hnil ▸ List.nodup_nil)
  · next hnil =>
      dsimp only
      rcases hpos with hat | ⟨hnot, hi⟩
      · rw [hat]
        simp only [if_true]
        exact hinv.finish htask (fun k => mem_eraseIdx_iff hinv.nodup hat) (hinv.nodup.eraseIdx i)
      · have hlt : i < h.tasks.length := by
          have := List.length_pos_iff.mpr hnil
          omega
        rw [List.getElem?_eq_getElem hlt]
        have hne : h.tasks[i] ≠ n := fun heq => hnot (heq ▸ List.getElem_mem hlt)
        simp only [hne, if_false]
        apply hinv.finish htask _ hinv.nodup
        intro k
        exact ⟨fun hk => ⟨fun heq => hnot (heq ▸ hk), hk⟩, And.right⟩

theorem inv_init : init.Inv where
  nodup := List.nodup_nil
  created := by simp [init]
  tasks := by simp [init]
  worker := by simp [init, Worker.task]
  woken := by simp [init]
  holds := trivial
  noneLeaked := by simp [init, Queue.NoneLeaked]

/-- One step that keeps the tasks of the queue. -/
theorem step_inv {l : Label} (hkeeps : Keeps l h) (hstep : step l h = some h') (hinv : h.Inv) :
    h'.Inv := by
  have hholds := hinv.holds
  have hpick := hstep
  -- the cases are those of `step`, in its order
  unfold step at hstep
  split at hstep
  · obtain rfl := Option.some.inj hstep
    exact addTask_inv hkeeps hinv
  · obtain rfl := Option.some.inj hstep
    exact hinv.onDemote hkeeps
  · obtain rfl := Option.some.inj hstep
    exact hinv
  · next hw =>
      obtain rfl := Option.some.inj (Option.ite_none_right_eq_some.mp hstep).2
      exact hinv.move (by rw [hw]; rfl) trivial
  · next hw =>
      obtain rfl := Option.some.inj hstep
      exact hinv.move (by rw [hw]; rfl) trivial
  · next hw =>
      obtain rfl := Option.some.inj hstep
      exact hinv.move (by rw [hw]; rfl) trivial
  · exact pickTask_inv hkeeps hpick hinv
  · obtain rfl := Option.some.inj hstep
    rw [transition]
    dsimp only
    split <;> exact hinv
  · next hw =>
      obtain rfl := Option.some.inj hstep
      rw [hw] at hholds
      exact hinv.move (by rw [hw]; rfl) hholds
  · next hw =>
      obtain rfl := Option.some.inj hstep
      rw [hw] at hholds
      exact hinv.move (by rw [hw]; rfl) hholds
  · next hw =>
      obtain rfl := Option.some.inj hstep
      rw [hw] at hholds
      exact hinv.move (by rw [hw]; rfl) hholds
  · next hw =>
      obtain rfl := Option.some.inj hstep
      exact finish_inv hw hinv
  · next hw =>
      obtain rfl := Option.some.inj hstep
      exact hinv.wakeup hw
  · obtain rfl := Option.some.inj (Option.ite_none_right_eq_some.mp hstep).2
    split <;> exact hinv
  · cases hstep

/-- Every other step leaks a task. -/
theorem step_leaks {l : Label} (hkeeps : ¬ Keeps l h) (hstep : step l h = some h')
    (hinv : h.Inv) : ¬ h'.NoneLeaked := by
  cases l with
  | addTask task now =>
      obtain rfl := Option.some.inj hstep
      exact addTask_leaks hkeeps hinv
  | onDemote =>
      obtain rfl := Option.some.inj hstep
      simp only [Keeps, not_forall] at hkeeps
      obtain ⟨n, hn, hworker⟩ := hkeeps
      exact hinv.leaks hn List.not_mem_nil hworker rfl fun k hk => hk
  | pickTask now => exact pickTask_leaks hkeeps hstep hinv
  | scheduleCacheRebuild | loadPgDistGroup | loaded _ | transition _ _ | queryFails | raises
  | processed _ | finish | wakeup | rollback _ _ => exact absurd trivial hkeeps

/-- In a run in which no step takes a task out of the queue but the one that is being
processed, every task that was accepted is queued, or processed, or woken up; and the next
step keeps it so if and only if it takes no such task out of the queue either. -/
theorem no_waiter_is_leaked {ls : List Label} (run : Run step Keeps init ls h) :
    h.NoneLeaked ∧ ∀ l h', step l h = some h' → (h'.NoneLeaked ↔ Keeps l h) := by
  have hinv : h.Inv := run.invariant (fun _ _ _ => step_inv) inv_init
  refine ⟨hinv.noneLeaked, fun l h' hstep => ⟨fun hnone => ?_, fun hkeeps => ?_⟩⟩
  · by_contra hkeeps
    exact step_leaks hkeeps hstep hinv hnone
  · exact (step_inv hkeeps hstep hinv).noneLeaked

/-! ## Tasks that are leaked -/

theorem addTask_succeeds (task : Task) (now : ℕ) :
    h.toQueue.Succeeds (h.addTask task now).toQueue := by
  rw [addTask]
  cases h.decide task now with
  | refuse => exact .enter (fun _ hn => .inl hn) fun _ hn => hn
  | append =>
      apply Queue.Succeeds.enter
      · intro n hn
        exact (List.mem_append.mp hn).imp_right List.mem_singleton.mp
      · intro n hn
        exact List.mem_cons_of_mem _ hn
  | override i =>
      apply Queue.Succeeds.enter
      · intro n hn
        exact List.mem_or_eq_of_mem_set hn
      · intro n hn
        exact List.mem_cons_of_mem _ hn

theorem pickTask_succeeds {now : ℕ} (hstep : step (.pickTask now) h = some h') :
    h.toQueue.Succeeds h'.toQueue := by
  obtain ⟨-, hqueue⟩ := step_pickTask hstep
  rw [hqueue]
  apply Queue.Succeeds.shrink
  · exact fun n hn => pickTask_sublist.mem hn
  · cases hpick : h.pickTask.2 with
    | none => simp [Worker.task]
    | some e =>
        rintro n ⟨⟩
        exact .inl (pickTask_sublist.mem (List.mem_of_getElem? (pickTask_at hpick)))

theorem finish_succeeds {i n : ℕ} {updateCache : Option Bool}
    (hw : h.worker = .processed i n updateCache) :
    h.toQueue.Succeeds (h.finish i n updateCache).toQueue := by
  have htask : h.worker.task = some n := by rw [hw]; rfl
  rw [finish]
  split
  · exact .move fun k hk => htask.trans hk
  · dsimp only
    split
    · exact .move fun k hk => by cases hk
    · apply Queue.Succeeds.shrink
      · intro k hk
        split at hk
        · exact List.mem_of_mem_eraseIdx hk
        · exact hk
      · exact fun k hk => .inr (htask.trans hk)

theorem step_succeeds {l : Label} (hstep : step l h = some h') :
    h.toQueue.Succeeds h'.toQueue := by
  have hpick := hstep
  -- the cases are those of `step`, in its order
  unfold step at hstep
  split at hstep
  · obtain rfl := Option.some.inj hstep
    exact addTask_succeeds _ _
  · obtain rfl := Option.some.inj hstep
    exact .shrink (by simp) fun _ hn => .inr hn
  · obtain rfl := Option.some.inj hstep
    exact .refl
  · obtain rfl := Option.some.inj (Option.ite_none_right_eq_some.mp hstep).2
    exact .move fun _ hn => by cases hn
  · obtain rfl := Option.some.inj hstep
    exact .move fun _ hn => by cases hn
  · obtain rfl := Option.some.inj hstep
    exact .move fun _ hn => by cases hn
  · exact pickTask_succeeds hpick
  · obtain rfl := Option.some.inj hstep
    rw [transition]
    dsimp only
    split <;> exact .refl
  · next hw =>
      obtain rfl := Option.some.inj hstep
      exact .move fun _ hn => by rw [hw]; exact hn
  · next hw =>
      obtain rfl := Option.some.inj hstep
      exact .move fun _ hn => by rw [hw]; exact hn
  · next hw =>
      obtain rfl := Option.some.inj hstep
      exact .move fun _ hn => by rw [hw]; exact hn
  · next hw =>
      obtain rfl := Option.some.inj hstep
      exact finish_succeeds hw
  · next hw =>
      obtain rfl := Option.some.inj hstep
      exact .wakeup (by rw [hw]; rfl)
  · obtain rfl := Option.some.inj (Option.ite_none_right_eq_some.mp hstep).2
    split <;> exact .refl
  · cases hstep

/-- Nobody ever processes or wakes up a task that is leaked. -/
theorem leaked_forever {guard : Label → Handler → Prop} {ls : List Label} {n : ℕ}
    (run : Run step guard h ls h') (hleaked : h.Leaked n) : h'.Leaked n := by
  induction run with
  | nil => exact hleaked
  | cons _ hstep _ ih => exact ih (hleaked.succeeds (step_succeeds hstep))

section Example

/-- A worker asks to be demoted, and its REST API waits. -/
def demoting : Task := ⟨1, {("a", 5432, .demoted)}, .beforeDemote, some 30, 0⟩

/-- The next primary of the worker is promoted. -/
def promoted : Task := ⟨1, {("b", 5432, .primary)}, .afterPromote, some 30, 0⟩

/-- The coordinator, as `sync_meta_data` wants it to be. -/
def coordinator : Task := ⟨0, {("c", 5432, .primary)}, .afterPromote, none, 0⟩

/-- The new primary arrives while the demotion is being processed. -/
def switchover : List Label :=
  [.addTask demoting 0, .loadPgDistGroup, .loaded (some fun _ => none), .pickTask 0,
    .addTask promoted 1, .processed false, .finish, .wakeup, .pickTask 2, .processed false,
    .finish, .wakeup]

/-- The new primary arrives before the demotion is processed. -/
def overridden : List Label :=
  [.addTask demoting 0, .addTask promoted 1]

/-- The coordinator is demoted before the task is processed. -/
def demoted : List Label :=
  [.addTask demoting 0, .onDemote]

/-- The rows are read after the task was added, and are as they should be. -/
def nothingToDo : List Label :=
  [.addTask coordinator 0, .loadPgDistGroup,
    .loaded (some fun groupid => if groupid = 0 then some coordinator.nodes else none), .pickTask 1]

/-- The coordinator is demoted while the second task of the queue is processed, and the
queue is shorter afterwards. -/
def shortened : List Label :=
  [.addTask demoting 0, .addTask coordinator 0, .loadPgDistGroup, .loaded (some fun _ => none),
    .pickTask 1, .onDemote, .addTask demoting 2, .processed false, .finish]

theorem no_waiter_is_leaked_in_switchover :
    ∃ h, Run step Keeps init switchover h ∧ h.accepted = [1, 0] ∧ h.woken = [1, 0] ∧
      h.NoneLeaked := by
  obtain ⟨h, hh, haccepted, hwoken⟩ : ∃ h ∈ execGuarded step Keeps switchover init,
      h.accepted = [1, 0] ∧ h.woken = [1, 0] := by decide +kernel
  have run := run_of_execGuarded hh
  exact ⟨h, run, haccepted, hwoken, (no_waiter_is_leaked run).1⟩

/-- After a run a task is leaked, and will be for ever. -/
def Loses (ls : List Label) (n : ℕ) : Prop :=
  ∃ h, Run step (fun _ _ => True) init ls h ∧ n ∈ h.accepted ∧ ¬ h.NoneLeaked ∧
    ∀ ls' h', Run step (fun _ _ => True) h ls' h' → h'.Leaked n

theorem loses_of_exec {ls : List Label} {n : ℕ} (hexec : ∃ h ∈ exec step ls init, h.Leaked n) :
    Loses ls n := by
  obtain ⟨h, hh, hleaked⟩ := hexec
  refine ⟨h, run_of_exec hh (guarded_true _ _), hleaked.accepted, fun hnone => ?_, ?_⟩
  · rcases hnone n hleaked.accepted with hn | hn | hn
    · exact hleaked.queued hn
    · exact hleaked.processed hn
    · exact hleaked.woken hn
  · intro ls' h' run
    exact leaked_forever run hleaked

/-- In the first two of these runs a thread waits for the task that is leaked. -/
theorem waiters_are_leaked :
    Loses overridden 0 ∧ Loses demoted 0 ∧ Loses nothingToDo 0 ∧ Loses shortened 1 :=
  ⟨loses_of_exec (by decide +kernel), loses_of_exec (by decide +kernel),
    loses_of_exec (by decide +kernel), loses_of_exec (by decide +kernel)⟩

end Example

end Handler

end Tasks

end Citus

end Metatroni
