import Mathlib.Data.List.Nodup

/-!
# Who has a task

A task that was accepted waits in the queue, then the thread of the handler
processes it and wakes up who waits for it. A task that is in none of these
places is leaked. Here only the places of the tasks matter; what the tasks are
and how they get from one place to another comes later.
-/

namespace Metatroni

namespace Citus

namespace Tasks

/-- Where the thread is that processes tasks. -/
inductive Worker
  | idle
  /-- In `load_pg_dist_group`, waiting for the rows. -/
  | loading
  /-- In `process_task`. -/
  | picked (i task : ℕ)
  /-- In `query`, after an exception. -/
  | failed (i task : ℕ)
  /-- `process_task` has returned a value, or `none` after an exception. -/
  | processed (i task : ℕ) (updateCache : Option Bool)
  /-- About to call `wakeup`. -/
  | finished (task : ℕ)
  deriving DecidableEq

/-- The task that is being processed. -/
def Worker.task : Worker → Option ℕ
  | .idle | .loading => none
  | .picked _ task | .failed _ task | .processed _ task _ | .finished task => some task

/-- The queue and its thread, and which tasks were accepted and woken up. -/
structure Queue where
  created : ℕ
  tasks : List ℕ
  worker : Worker
  accepted : List ℕ
  woken : List ℕ

section Lists

variable {tasks : List ℕ} {i n : ℕ}

theorem not_mem_set (hnodup : tasks.Nodup) (hat : tasks[i]? = some n) {m : ℕ} (hm : m ≠ n) :
    n ∉ tasks.set i m := by
  intro hmem
  obtain ⟨hlt, hget⟩ := List.getElem?_eq_some_iff.mp hat
  obtain ⟨k, hk⟩ := List.mem_iff_getElem?.mp hmem
  by_cases hik : i = k
  · subst hik
    rw [List.getElem?_set_self hlt] at hk
    exact hm (Option.some.inj hk)
  · rw [List.getElem?_set_ne hik] at hk
    obtain ⟨hltk, hgetk⟩ := List.getElem?_eq_some_iff.mp hk
    exact hik (hnodup.getElem_inj_iff.mp (hget.trans hgetk.symm))

theorem mem_set_of_ne (hat : tasks[i]? = some n) {k m : ℕ} (hk : k ∈ tasks) (hne : k ≠ n) :
    k ∈ tasks.set i m := by
  obtain ⟨j, hj⟩ := List.mem_iff_getElem?.mp hk
  have hij : i ≠ j := by
    rintro rfl
    exact hne (Option.some.inj (hj.symm.trans hat))
  exact List.mem_of_getElem? (by rw [List.getElem?_set_ne hij]; exact hj)

theorem mem_eraseIdx_iff (hnodup : tasks.Nodup) (hat : tasks[i]? = some n) {k : ℕ} :
    k ∈ tasks.eraseIdx i ↔ k ≠ n ∧ k ∈ tasks := by
  obtain ⟨hlt, rfl⟩ := List.getElem?_eq_some_iff.mp hat
  rw [← hnodup.erase_getElem i hlt]
  exact hnodup.mem_erase_iff

end Lists

/-- The thread has picked a task at an index. Since then the task may have been overridden
there, or the queue may have been emptied. -/
def Position (tasks : List ℕ) (i n : ℕ) : Prop :=
  tasks[i]? = some n ∨ n ∉ tasks ∧ (i < tasks.length ∨ i = 0)

namespace Position

variable {tasks : List ℕ} {i n : ℕ}

theorem append (hpos : Position tasks i n) {m : ℕ} (hm : m ≠ n) :
    Position (tasks ++ [m]) i n := by
  rcases hpos with hat | ⟨hnot, hi⟩
  · left
    rw [List.getElem?_append_left (List.getElem?_eq_some_iff.mp hat).1]
    exact hat
  · right
    simp only [List.mem_append, List.mem_singleton, List.length_append, List.length_singleton]
    exact ⟨fun h => h.elim hnot hm.symm, by omega⟩

theorem set (hpos : Position tasks i n) (hnodup : tasks.Nodup) {j m : ℕ} (hm : m ≠ n) :
    Position (tasks.set j m) i n := by
  rcases hpos with hat | ⟨hnot, hi⟩
  · by_cases hji : j = i
    · -- the task itself is overridden
      subst hji
      have hlt := (List.getElem?_eq_some_iff.mp hat).1
      exact .inr ⟨not_mem_set hnodup hat hm, by simp [hlt]⟩
    · left
      rw [List.getElem?_set_ne hji]
      exact hat
  · right
    refine ⟨fun hmem => ?_, by simpa using hi⟩
    rcases List.mem_or_eq_of_mem_set hmem with h | h
    · exact hnot h
    · exact hm h.symm

/-- A queue that holds no other task can be emptied. -/
theorem nil (hpos : Position tasks i n) (hnodup : tasks.Nodup) (honly : ∀ m ∈ tasks, m = n) :
    Position [] i n := by
  have hlength : tasks.length ≤ 1 := by
    match tasks, hnodup, honly with
    | [], _, _ => simp
    | [_], _, _ => simp
    | a :: b :: _, hnodup, honly =>
        have hab : a = b := (honly a (by simp)).trans (honly b (by simp)).symm
        simp [hab] at hnodup
  right
  rcases hpos with hat | ⟨hnot, hi⟩
  · have hlt := (List.getElem?_eq_some_iff.mp hat).1
    exact ⟨by simp, by omega⟩
  · have hempty : tasks = [] := by
      apply List.eq_nil_iff_forall_not_mem.mpr
      intro m hm
      exact hnot (honly m hm ▸ hm)
    subst hempty
    exact ⟨by simp, hi⟩

end Position

/-- What the thread knows of the queue. -/
def Worker.Holds (tasks : List ℕ) : Worker → Prop
  | .idle | .loading => True
  | .picked i n | .failed i n | .processed i n _ => Position tasks i n
  | .finished n => n ∉ tasks

namespace Queue

/-- Every task that was accepted is queued, or processed, or woken up. -/
def NoneLeaked (q : Queue) : Prop :=
  ∀ n ∈ q.accepted, n ∈ q.tasks ∨ q.worker.task = some n ∨ n ∈ q.woken

/-- A task was accepted, and is not known to the queue or to its thread any more. -/
structure Leaked (q : Queue) (n : ℕ) : Prop where
  accepted : n ∈ q.accepted
  created : n < q.created
  queued : n ∉ q.tasks
  processed : q.worker.task ≠ some n
  woken : n ∉ q.woken

instance (q : Queue) (n : ℕ) : Decidable (q.Leaked n) :=
  decidable_of_iff (n ∈ q.accepted ∧ n < q.created ∧ n ∉ q.tasks ∧ q.worker.task ≠ some n ∧
      n ∉ q.woken)
    ⟨fun h => ⟨h.1, h.2.1, h.2.2.1, h.2.2.2.1, h.2.2.2.2⟩,
      fun h => ⟨h.accepted, h.created, h.queued, h.processed, h.woken⟩⟩

/-- What is true of the queue as long as no task is taken out of it but by the thread. -/
structure Inv (q : Queue) : Prop where
  nodup : q.tasks.Nodup
  created : ∀ n ∈ q.accepted, n < q.created
  tasks : ∀ n ∈ q.tasks, n ∈ q.accepted
  worker : ∀ n ∈ q.worker.task, n ∈ q.accepted
  woken : ∀ n ∈ q.woken, n ∈ q.accepted ∧ n ∉ q.tasks
  holds : q.worker.Holds q.tasks
  noneLeaked : q.NoneLeaked

namespace Inv

variable {q : Queue}

/-- A new number is not the number of a task. -/
theorem created_ne (hinv : q.Inv) {n : ℕ} (hn : n ∈ q.accepted) : q.created ≠ n := by
  have := hinv.created n hn
  omega

/-- The thread moves on and still processes the same task. -/
theorem move (hinv : q.Inv) {w : Worker} (htask : w.task = q.worker.task)
    (hholds : w.Holds q.tasks) : Inv { q with worker := w } where
  nodup := hinv.nodup
  created := hinv.created
  tasks := hinv.tasks
  worker := by simpa [htask] using hinv.worker
  woken := hinv.woken
  holds := hholds
  noneLeaked := by simpa [NoneLeaked, htask] using hinv.noneLeaked

theorem refuse (hinv : q.Inv) : Inv { q with created := q.created + 1 } where
  nodup := hinv.nodup
  created n hn := Nat.lt_succ_of_lt (hinv.created n hn)
  tasks := hinv.tasks
  worker := hinv.worker
  woken := hinv.woken
  holds := hinv.holds
  noneLeaked := hinv.noneLeaked

/-- A new task enters the queue, where it may replace the one that is being processed. -/
theorem enter (hinv : q.Inv) {tasks : List ℕ} (hnodup : tasks.Nodup)
    (hmem : ∀ n ∈ tasks, n ∈ q.tasks ∨ n = q.created)
    (hkept : ∀ n ∈ q.tasks, n ∈ tasks ∨ q.worker.task = some n) (hnew : q.created ∈ tasks)
    (hpos : ∀ i n, n ∈ q.accepted → Position q.tasks i n → Position tasks i n) :
    Inv { q with
      created := q.created + 1
      tasks := tasks
      accepted := q.created :: q.accepted } where
  nodup := hnodup
  created n hn := by
    rcases List.mem_cons.mp hn with rfl | hn
    · exact Nat.lt_succ_self _
    · exact Nat.lt_succ_of_lt (hinv.created n hn)
  tasks n hn := by
    rcases hmem n hn with hn | rfl
    · exact List.mem_cons_of_mem _ (hinv.tasks n hn)
    · exact List.mem_cons_self
  worker n hn := List.mem_cons_of_mem _ (hinv.worker n hn)
  woken n hn := by
    obtain ⟨haccepted, hnot⟩ := hinv.woken n hn
    refine ⟨List.mem_cons_of_mem _ haccepted, fun hn' => ?_⟩
    rcases hmem n hn' with hn' | hn'
    · exact hnot hn'
    · exact hinv.created_ne haccepted hn'.symm
  holds := by
    have hworker := hinv.worker
    have hholds := hinv.holds
    cases hw : q.worker with
    | idle | loading => trivial
    | picked i n | failed i n | processed i n _ =>
        rw [hw] at hworker hholds
        exact hpos i n (hworker n rfl) hholds
    | finished n =>
        rw [hw] at hworker hholds
        intro hn
        rcases hmem n hn with hn | hn
        · exact hholds hn
        · exact hinv.created_ne (hworker n rfl) hn.symm
  noneLeaked n hn := by
    rcases List.mem_cons.mp hn with rfl | hn
    · exact .inl hnew
    · rcases hinv.noneLeaked n hn with hn | hn
      · exact (hkept n hn).imp_right .inl
      · exact .inr hn

/-- Other tasks are not touched when the queue is emptied. -/
theorem onDemote (hinv : q.Inv) (hkept : ∀ n ∈ q.tasks, q.worker.task = some n) :
    Inv { q with tasks := [] } where
  nodup := List.nodup_nil
  created := hinv.created
  tasks := by simp
  worker := hinv.worker
  woken n hn := ⟨(hinv.woken n hn).1, by simp⟩
  holds := by
    have hholds := hinv.holds
    cases hw : q.worker with
    | idle | loading => trivial
    | picked i n | failed i n | processed i n _ =>
        rw [hw] at hholds hkept
        exact hholds.nil hinv.nodup fun m hm => (Option.some.inj (hkept m hm)).symm
    | finished n => exact List.not_mem_nil
  noneLeaked n hn := by
    rcases hinv.noneLeaked n hn with hn | hn
    · exact .inr (.inl (hkept n hn))
    · exact .inr hn

/-- The thread takes a task that is still queued. -/
theorem pick (hinv : q.Inv) (hidle : q.worker = .idle) {i n : ℕ} (hat : q.tasks[i]? = some n) :
    Inv { q with worker := .picked i n } where
  nodup := hinv.nodup
  created := hinv.created
  tasks := hinv.tasks
  worker m hm := by
    obtain rfl := Option.some.inj hm
    exact hinv.tasks n (List.mem_of_getElem? hat)
  woken := hinv.woken
  holds := .inl hat
  noneLeaked m hm := by
    have := hinv.noneLeaked m hm
    simp only [hidle, Worker.task, reduceCtorEq, false_or] at this
    exact this.imp_right .inr

/-- The thread removes the task that it has processed, unless another is in its place. -/
theorem finish (hinv : q.Inv) {n : ℕ} (htask : q.worker.task = some n) {tasks : List ℕ}
    (hmem : ∀ k, k ∈ tasks ↔ k ≠ n ∧ k ∈ q.tasks) (hnodup : tasks.Nodup) :
    Inv { q with tasks := tasks, worker := .finished n } where
  nodup := hnodup
  created := hinv.created
  tasks k hk := hinv.tasks k ((hmem k).mp hk).2
  worker := by simpa [Worker.task] using hinv.worker n htask
  woken k hk := ⟨(hinv.woken k hk).1, fun hk' => (hinv.woken k hk).2 ((hmem k).mp hk').2⟩
  holds := fun hn => ((hmem n).mp hn).1 rfl
  noneLeaked k hk := by
    by_cases hkn : k = n
    · exact .inr (.inl (congrArg some hkn.symm))
    · rcases hinv.noneLeaked k hk with h | h | h
      · exact .inl ((hmem k).mpr ⟨hkn, h⟩)
      · exact absurd (Option.some.inj (h.symm.trans htask)) hkn
      · exact .inr (.inr h)

theorem wakeup (hinv : q.Inv) {n : ℕ} (hfinished : q.worker = .finished n) :
    Inv { q with woken := n :: q.woken, worker := .idle } where
  nodup := hinv.nodup
  created := hinv.created
  tasks := hinv.tasks
  worker := by simp [Worker.task]
  woken k hk := by
    rcases List.mem_cons.mp hk with rfl | hk
    · have hholds := hinv.holds
      rw [hfinished] at hholds
      exact ⟨hinv.worker k (by rw [hfinished]; rfl), hholds⟩
    · exact hinv.woken k hk
  holds := trivial
  noneLeaked k hk := by
    rcases hinv.noneLeaked k hk with h | h | h
    · exact .inl h
    · rw [hfinished] at h
      obtain rfl := Option.some.inj h
      exact .inr (.inr List.mem_cons_self)
    · exact .inr (.inr (List.mem_cons_of_mem _ h))

/-- A task that leaves the queue without being processed is leaked. -/
theorem leaks (hinv : q.Inv) {q' : Queue} {n : ℕ} (hn : n ∈ q.tasks) (hgone : n ∉ q'.tasks)
    (htask : q'.worker.task ≠ some n) (hwoken : q'.woken = q.woken)
    (haccepted : ∀ k ∈ q.accepted, k ∈ q'.accepted) : ¬ q'.NoneLeaked := by
  intro hnone
  rcases hnone n (haccepted n (hinv.tasks n hn)) with h | h | h
  · exact hgone h
  · exact htask h
  · exact (hinv.woken n (hwoken ▸ h)).2 hn

end Inv

/-- Where the tasks of the next state come from. -/
structure Succeeds (q q' : Queue) : Prop where
  accepted : ∀ n ∈ q.accepted, n ∈ q'.accepted
  created : q.created ≤ q'.created
  queued : ∀ n ∈ q'.tasks, n ∈ q.tasks ∨ n = q.created
  processed : ∀ n ∈ q'.worker.task, n ∈ q.tasks ∨ n ∈ q.worker.task
  woken : ∀ n ∈ q'.woken, n ∈ q.worker.task ∨ n ∈ q.woken

/-- A task that is leaked stays so. -/
theorem Leaked.succeeds {q q' : Queue} {n : ℕ} (hleaked : q.Leaked n) (hnext : q.Succeeds q') :
    q'.Leaked n where
  accepted := hnext.accepted n hleaked.accepted
  created := Nat.lt_of_lt_of_le hleaked.created hnext.created
  queued hn := (hnext.queued n hn).elim hleaked.queued (Nat.ne_of_lt hleaked.created)
  processed hn := (hnext.processed n hn).elim hleaked.queued hleaked.processed
  woken hn := (hnext.woken n hn).elim hleaked.processed hleaked.woken

namespace Succeeds

variable {q : Queue}

/-- Tasks are only removed, and the thread goes on with the same task or with none. -/
theorem shrink {tasks : List ℕ} {w : Worker} (htasks : ∀ n ∈ tasks, n ∈ q.tasks)
    (htask : ∀ n ∈ w.task, n ∈ q.tasks ∨ n ∈ q.worker.task) :
    q.Succeeds { q with tasks := tasks, worker := w } where
  accepted _ hn := hn
  created := Nat.le_refl _
  queued n hn := .inl (htasks n hn)
  processed := htask
  woken _ hn := .inr hn

theorem move {w : Worker} (htask : ∀ n ∈ w.task, n ∈ q.worker.task) :
    q.Succeeds { q with worker := w } :=
  shrink (fun _ hn => hn) fun n hn => .inr (htask n hn)

theorem refl : q.Succeeds q :=
  move fun _ hn => hn

/-- A task enters the queue. -/
theorem enter {tasks accepted : List ℕ} (htasks : ∀ n ∈ tasks, n ∈ q.tasks ∨ n = q.created)
    (haccepted : ∀ n ∈ q.accepted, n ∈ accepted) :
    q.Succeeds { q with created := q.created + 1, tasks := tasks, accepted := accepted } where
  accepted := haccepted
  created := Nat.le_succ _
  queued := htasks
  processed _ hn := .inr hn
  woken _ hn := .inr hn

theorem wakeup {n : ℕ} (htask : q.worker.task = some n) :
    q.Succeeds { q with woken := n :: q.woken, worker := .idle } where
  accepted _ hk := hk
  created := Nat.le_refl _
  queued _ hk := .inl hk
  processed _ hk := by cases hk
  woken k hk := by
    rcases List.mem_cons.mp hk with rfl | hk
    · exact .inl htask
    · exact .inr hk

end Succeeds

end Queue

end Tasks

end Citus

end Metatroni
