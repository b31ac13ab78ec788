import Metatroni.Lib.Dict
import Metatroni.Lib.Runs

/-!
# Advancing logical slots in the background

`SlotsAdvanceThread` of `postgresql/slots.py`: the HA loop schedules LSNs for
logical slots, a worker thread advances the slots one by one. The condition
variable protects `_scheduled`; the worker gives it up while PostgreSQL executes
`pg_replication_slot_advance` and looks at the schedule again afterwards.

A step is one critical section, or one thing that can happen to the worker
between two of them. The HA loop can schedule or clean before every step of the
worker.
-/

namespace Metatroni.Slots

open Runs

/-- `{'dbname1': {'slot1': 100, 'slot2': 100}, 'dbname2': {'slot3': 100}}`. -/
abbrev Schedule := Dict String (Dict String ℤ)

namespace Schedule

variable (scheduled : Schedule) (database slot : String)

/-- `_scheduled.get(database, {}).get(slot)`. -/
def lsn? : Option ℤ := (scheduled.lookup database).bind (AList.lookup slot)

/-- `_scheduled[database]`: a `defaultdict` creates the map that it does not have. -/
def slotsOf : Dict String ℤ := (scheduled.lookup database).getD ∅

/-- `_scheduled[database].pop(slot)`, and then the database if no slot is left.
A `KeyError` comes with the schedule that it leaves behind. -/
def popSlot : Except Schedule Schedule :=
  if slot ∈ scheduled.slotsOf database then
    let slots : Dict String ℤ := (scheduled.slotsOf database).erase slot
    if slots.isEmpty then .ok (scheduled.erase database) else .ok (scheduled.set database slots)
  else .error (scheduled.set database (scheduled.slotsOf database))

/-- The body of the loops of `schedule`: slots that are about to be copied are
left out. -/
def put (copySlots : List String) (database : String) (scheduled : Schedule)
    (item : Sigma fun _ : String => ℤ) : Schedule :=
  if item.1 ∈ copySlots then scheduled
  else scheduled.set database ((scheduled.slotsOf database).set item.1 item.2)

/-- The loop over the slots of one database. -/
def putAll (copySlots : List String) (scheduled : Schedule)
    (values : Sigma fun _ : String => Dict String ℤ) : Schedule :=
  values.2.entries.foldl (put copySlots values.1) scheduled

/-- The loop over the databases. -/
def update (copySlots : List String) (advanceSlots : Schedule) : Schedule :=
  advanceSlots.entries.foldl (putAll copySlots) scheduled

@[simp] theorem lookup_slotsOf : (scheduled.slotsOf database).lookup slot =
    scheduled.lsn? database slot := by
  unfold slotsOf lsn?
  cases scheduled.lookup database <;> rfl

theorem mem_slotsOf :
    slot ∈ scheduled.slotsOf database ↔ (scheduled.lsn? database slot).isSome := by
  rw [← AList.lookup_isSome, lookup_slotsOf]

theorem lsn?_set (slots : Dict String ℤ) (database' : String) :
    lsn? (scheduled.set database slots) database' slot =
      if database' = database then slots.lookup slot else scheduled.lsn? database' slot := by
  unfold lsn?
  rw [Dict.lookup_set]
  split <;> rfl

theorem lsn?_erase (database' : String) :
    lsn? (scheduled.erase database) database' slot =
      if database' = database then none else scheduled.lsn? database' slot := by
  unfold lsn?
  rw [Dict.lookup_erase_eq]
  split <;> rfl

/-- No database has an empty map of slots. -/
def NoEmpty : Prop := ∀ database slots, scheduled.lookup database = some slots → slots ≠ ∅

variable {scheduled}

/-- Where no LSN is scheduled the schedule itself is empty. -/
theorem NoEmpty.eq_empty (h : scheduled.NoEmpty)
    (hnone : ∀ database slot, scheduled.lsn? database slot = none) : scheduled = ∅ := by
  refine (Dict.eq_empty_iff scheduled).mpr fun database => ?_
  cases hslots : scheduled.lookup database with
  | none => rfl
  | some slots =>
      refine absurd ((Dict.eq_empty_iff slots).mpr fun slot => ?_) (h database slots hslots)
      simpa [lsn?, hslots] using hnone database slot

theorem NoEmpty.set {slots : Dict String ℤ} (h : scheduled.NoEmpty) (hslots : slots ≠ ∅) :
    NoEmpty (scheduled.set database slots) := by
  intro database' slots' hlookup
  rw [Dict.lookup_set] at hlookup
  split at hlookup
  · obtain rfl := Option.some.inj hlookup
    exact hslots
  · exact h database' slots' hlookup

theorem NoEmpty.erase (h : scheduled.NoEmpty) : NoEmpty (scheduled.erase database) := by
  intro database' slots' hlookup
  rw [Dict.lookup_erase_eq] at hlookup
  split at hlookup
  · cases hlookup
  · exact h database' slots' hlookup

variable (scheduled) {database slot}

/-- Only a slot that is scheduled can be popped, and nothing else is. -/
theorem popSlot_of_isSome (h : (scheduled.lsn? database slot).isSome) :
    ∃ scheduled', scheduled.popSlot database slot = .ok scheduled' ∧
      (scheduled.NoEmpty → scheduled'.NoEmpty) ∧
      ∀ database' slot', scheduled'.lsn? database' slot' =
        if database' = database ∧ slot' = slot then none else scheduled.lsn? database' slot' := by
  have hmem := (mem_slotsOf scheduled database slot).mpr h
  -- the other slots of the database
  have hlsn (slot' : String) : ((scheduled.slotsOf database).erase slot).lookup slot' =
      if slot' = slot then none else scheduled.lsn? database slot' := by
    rw [Dict.lookup_erase_eq, lookup_slotsOf]
  unfold popSlot
  rw [if_pos hmem]
  by_cases hempty : (scheduled.slotsOf database).erase slot = ∅
  · refine ⟨_, if_pos ((Dict.isEmpty_iff _).mpr hempty), fun hne => hne.erase database,
      fun database' slot' => ?_⟩
    rw [lsn?_erase]
    by_cases hdb : database' = database
    · subst hdb
      have := hlsn slot'
      rw [hempty, AList.lookup_empty] at this
      simp only [if_true, true_and]
      exact this
    · simp only [hdb, false_and, if_false]
  · refine ⟨_, if_neg (mt (Dict.isEmpty_iff _).mp hempty), fun hne =>
      hne.set database hempty, fun database' slot' => ?_⟩
    rw [lsn?_set, hlsn]
    by_cases hdb : database' = database
    · subst hdb
      simp only [if_true, true_and]
    · simp only [hdb, false_and, if_false]

/-- The `defaultdict` leaves an empty map where there was none, but no slot is touched. -/
theorem lsn?_of_popSlot_error {scheduled' : Schedule}
    (h : scheduled.popSlot database slot = .error scheduled') (database' slot' : String) :
    scheduled'.lsn? database' slot' = scheduled.lsn? database' slot' := by
  unfold popSlot at h
  split at h
  · exact absurd h (by dsimp only; split <;> simp)
  · obtain rfl := Except.error.inj h
    rw [lsn?_set, lookup_slotsOf]
    split
    · next hdb => rw [hdb]
    · rfl

theorem popSlot_isOk :
    (scheduled.popSlot database slot).isOk = true ↔ (scheduled.lsn? database slot).isSome := by
  by_cases h : (scheduled.lsn? database slot).isSome
  · obtain ⟨scheduled', hpop, -⟩ := popSlot_of_isSome scheduled h
    simp [hpop, h, Except.isOk, Except.toBool]
  · have hmem := fun hmem => h ((mem_slotsOf scheduled database slot).mp hmem)
    rw [popSlot, if_neg hmem]
    simp [h, Except.isOk, Except.toBool]

/-! ### Scheduling -/

theorem NoEmpty.put {copySlots : List String} {item : Sigma fun _ : String => ℤ}
    (h : scheduled.NoEmpty) : NoEmpty (put copySlots database scheduled item) := by
  unfold Schedule.put
  split
  · exact h
  · exact h.set database (Dict.set_ne_empty _ _ _)

theorem lsn?_put (copySlots : List String) (database' slot' : String)
    (item : Sigma fun _ : String => ℤ) :
    lsn? (put copySlots database scheduled item) database' slot' =
      if database' = database ∧ slot' = item.1 ∧ slot' ∉ copySlots then some item.2
      else scheduled.lsn? database' slot' := by
  unfold put
  split
  · next h =>
      rw [if_neg]
      rintro ⟨-, rfl, hnot⟩
      exact hnot h
  · next h =>
      rw [lsn?_set, Dict.lookup_set, lookup_slotsOf]
      by_cases hdb : database' = database
      · subst hdb
        by_cases hslot : slot' = item.1
        · subst hslot
          simp [h]
        · simp [hslot]
      · simp [hdb]

theorem lsn?_foldl_put (copySlots : List String) (database' slot' : String)
    (items : List (Sigma fun _ : String => ℤ)) (hnodup : items.NodupKeys) :
    lsn? (items.foldl (put copySlots database) scheduled) database' slot' =
      if database' = database ∧ slot' ∉ copySlots then
        (items.dlookup slot').or (scheduled.lsn? database' slot')
      else scheduled.lsn? database' slot' := by
  induction items generalizing scheduled with
  | nil => simp
  | cons item items ih =>
      obtain ⟨hnew, hrest⟩ := List.nodupKeys_cons.mp hnodup
      rw [List.foldl_cons, ih _ hrest, lsn?_put]
      by_cases hput : database' = database ∧ slot' ∉ copySlots
      · rw [if_pos hput, if_pos hput]
        by_cases hslot : slot' = item.1
        · -- a later assignment would be to the same key
          subst hslot
          rw [if_pos ⟨hput.1, rfl, hput.2⟩, List.dlookup_eq_none.mpr hnew, List.dlookup_cons_eq]
          rfl
        · rw [if_neg (fun h => hslot h.2.1), List.dlookup_cons_ne _ _ hslot]
      · rw [if_neg hput, if_neg hput, if_neg (fun h => hput ⟨h.1, h.2.2⟩)]

/-- What `schedule` does to the LSN of one slot. -/
theorem lsn?_update (copySlots : List String) (advanceSlots : Schedule)
    (database slot : String) :
    lsn? (scheduled.update copySlots advanceSlots) database slot =
      if slot ∈ copySlots then scheduled.lsn? database slot
      else (advanceSlots.lsn? database slot).or (scheduled.lsn? database slot) := by
  obtain ⟨entries, hnodup⟩ := advanceSlots
  unfold update
  induction entries generalizing scheduled with
  | nil =>
      split <;> rfl
  | cons values entries ih =>
      obtain ⟨database', slots⟩ := values
      obtain ⟨hnew, hrest⟩ := List.nodupKeys_cons.mp hnodup
      rw [List.foldl_cons, ih _ hrest, putAll, lsn?_foldl_put _ _ _ _ _ slots.nodupKeys]
      unfold lsn? AList.lookup
      by_cases hcopy : slot ∈ copySlots
      · simp only [hcopy, not_true_eq_false, and_false, if_false, if_true]
      · by_cases hdb : database = database'
        · subst hdb
          simp [hcopy, List.dlookup_eq_none.mpr hnew]
        · simp [hcopy, hdb, List.dlookup_cons_ne entries ⟨database', slots⟩ hdb]

theorem NoEmpty.update {copySlots : List String} {advanceSlots : Schedule}
    (h : scheduled.NoEmpty) : NoEmpty (scheduled.update copySlots advanceSlots) := by
  refine List.foldlRecOn advanceSlots.entries _ h fun s hs values _ => ?_
  exact List.foldlRecOn values.2.entries _ hs fun s hs item _ => hs.put

end Schedule

/-- Where the worker is between two critical sections. The lists are the rest
of the loops over the databases and over the slots of one database. -/
inductive Worker
  /-- At the top of the loop of `run`. -/
  | loop
  /-- In `_condition.wait()`. -/
  | waiting (notified : Bool)
  /-- At the start of `sync_slots`. -/
  | started
  /-- In the loop of `sync_slots`. -/
  | syncing (databases : List String)
  /-- `sync_slots_in_database` opens its connection. -/
  | connecting (database : String) (slots databases : List String)
  /-- In the loop of `sync_slots_in_database`. -/
  | connected (database : String) (slots databases : List String)
  /-- `sync_slot` waits for PostgreSQL. -/
  | advancing (database slot : String) (lsn : ℤ) (slots databases : List String)
  deriving DecidableEq

/-- How the query of `sync_slot` ends: `copy` is an error which tells that the
WAL is gone or that the slot is invalidated. -/
inductive Outcome
  | success
  | failed
  | copy
  deriving DecidableEq

structure SlotsAdvanceThread where
  scheduled : Schedule
  copySlots : List String
  failed : Bool
  worker : Worker

namespace SlotsAdvanceThread

def init : SlotsAdvanceThread where
  scheduled := ∅
  copySlots := []
  failed := false
  worker := .loop

/-- The feedback for the HA loop; it is dropped if the schedule is empty. -/
def report (t : SlotsAdvanceThread) (slot : String) (outcome : Outcome) : SlotsAdvanceThread :=
  if !t.scheduled.isEmpty ∧ outcome ≠ .success then
    { t with
      copySlots := if outcome = .copy ∧ slot ∉ t.copySlots then t.copySlots ++ [slot]
        else t.copySlots
      failed := true }
  else t

/-- The critical section at the end of `sync_slot`. -/
def syncSlot (t : SlotsAdvanceThread) (database slot : String) (lsn : ℤ) (outcome : Outcome) :
    Except Schedule Schedule :=
  let newLsn := (t.scheduled.lsn? database slot).getD 0
  -- remove slot from the structure if it is to be copied or if it wasn't changed
  if outcome = .copy ∨ (newLsn = lsn ∧ database ∈ t.scheduled) then
    t.scheduled.popSlot database slot
  else .ok t.scheduled

/-- `schedule`. -/
def schedule (t : SlotsAdvanceThread) (advanceSlots : Schedule) : SlotsAdvanceThread where
  scheduled := t.scheduled.update t.copySlots advanceSlots
  copySlots := []
  failed := false
  worker := match t.worker with
    | .waiting _ => .waiting true
    | worker => worker

/-- `clean`. -/
def clean (t : SlotsAdvanceThread) : SlotsAdvanceThread where
  scheduled := ∅
  copySlots := []
  failed := false
  worker := t.worker

/-- The next step of the worker where PostgreSQL is not involved. -/
def work (t : SlotsAdvanceThread) : Option SlotsAdvanceThread :=
  match t.worker with
  | .loop => some { t with worker := if t.scheduled.isEmpty then .waiting false else .started }
  | .waiting notified => if notified then some { t with worker := .started } else none
  | .started => some { t with worker := .syncing t.scheduled.keys }
  | .syncing [] => some { t with worker := .loop }
  | .syncing (database :: databases) =>
      let slots := (t.scheduled.slotsOf database).keys
      some { t with
        worker := if slots = [] then .syncing databases else .connecting database slots databases }
  | .connecting database slots databases =>
      some { t with worker := .connected database slots databases }
  | .connected _ [] databases => some { t with worker := .syncing databases }
  | .connected database (slot :: slots) databases =>
      let lsn := (t.scheduled.lsn? database slot).getD 0
      some { t with
        worker := if lsn = 0 then .connected database slots databases
          else .advancing database slot lsn slots databases }
  | .advancing .. => none

inductive Label
  | schedule (advanceSlots : Schedule)
  | clean
  | work
  /-- The connection can't be opened, `sync_slots` logs that. -/
  | connectFails
  | finish (outcome : Outcome)

def step (l : Label) (t : SlotsAdvanceThread) : Option SlotsAdvanceThread :=
  match l with
  | .schedule advanceSlots => some (t.schedule advanceSlots)
  | .clean => some t.clean
  | .work => t.work
  | .connectFails =>
      match t.worker with
      | .connecting _ _ databases => some { t with worker := .syncing databases }
      | _ => none
  | .finish outcome =>
      match t.worker with
      | .advancing database slot lsn slots databases =>
          match t.syncSlot database slot lsn outcome with
          | .ok scheduled =>
              some { t.report slot outcome with
                scheduled
                worker := .connected database slots databases }
          -- `sync_slots` logs the exception and turns to the next database
          | .error scheduled =>
              some { t.report slot outcome with
                scheduled
                worker := .syncing databases }
      | _ => none

/-- The step raises a `KeyError`. -/
def RaisesKeyError (l : Label) (t : SlotsAdvanceThread) : Prop :=
  match l, t.worker with
  | .finish outcome, .advancing database slot lsn _ _ =>
      (t.syncSlot database slot lsn outcome).isOk = false
  | _, _ => False

instance (l : Label) (t : SlotsAdvanceThread) : Decidable (RaisesKeyError l t) := by
  unfold RaisesKeyError
  split <;> infer_instance

/-- A slot is still scheduled when its advance fails with a request to copy it. -/
def CopiesScheduled (l : Label) (t : SlotsAdvanceThread) : Prop :=
  match l, t.worker with
  | .finish .copy, .advancing database slot _ _ _ => (t.scheduled.lsn? database slot).isSome
  | _, _ => True

instance (l : Label) (t : SlotsAdvanceThread) : Decidable (CopiesScheduled l t) := by
  unfold CopiesScheduled
  split <;> infer_instance

/-! ## What the steps preserve -/

/-- The worker never advances to the LSN zero, which stands for no LSN. -/
structure Sound (t : SlotsAdvanceThread) : Prop where
  noEmpty : t.scheduled.NoEmpty
  lsn_ne_zero : ∀ database slot lsn slots databases,
    t.worker = .advancing database slot lsn slots databases → lsn ≠ 0

theorem init_sound : init.Sound where
  noEmpty := by
    intro database slots h
    cases h
  lsn_ne_zero := by
    intro database slot lsn slots databases h
    cases h

variable {t t' : SlotsAdvanceThread} {database slot : String} {lsn : ℤ} {outcome : Outcome}

/-- The test of `sync_slot` whether the LSN of a slot wasn't changed. -/
theorem unchanged_iff (hlsn : lsn ≠ 0) :
    (t.scheduled.lsn? database slot).getD 0 = lsn ∧ database ∈ t.scheduled ↔
      t.scheduled.lsn? database slot = some lsn := by
  cases hnew : t.scheduled.lsn? database slot with
  | none => simp [hlsn.symm]
  | some new =>
      have hmem : database ∈ t.scheduled := by
        obtain ⟨slots, hslots, -⟩ := Option.bind_eq_some_iff.mp hnew
        rw [← AList.lookup_isSome, hslots]
        rfl
      simp [hmem]

theorem syncSlot_eq (hlsn : lsn ≠ 0) :
    t.syncSlot database slot lsn outcome =
      if outcome = .copy ∨ t.scheduled.lsn? database slot = some lsn then
        t.scheduled.popSlot database slot
      else .ok t.scheduled := by
  simp only [syncSlot, unchanged_iff hlsn]

theorem syncSlot_isOk (t : SlotsAdvanceThread) (database slot : String) (outcome : Outcome)
    (hlsn : lsn ≠ 0) :
    (t.syncSlot database slot lsn outcome).isOk = true ↔
      (outcome = .copy → (t.scheduled.lsn? database slot).isSome) := by
  rw [syncSlot_eq hlsn]
  by_cases hcopy : outcome = .copy
  · simp only [hcopy, true_or, if_true, true_implies]
    exact Schedule.popSlot_isOk _
  · simp only [hcopy, false_or, false_implies, iff_true]
    split
    · next h =>
        refine (Schedule.popSlot_isOk _).mpr ?_
        rw [h]
        rfl
    · rfl

theorem syncSlot_noEmpty {scheduled' : Schedule} (hlsn : lsn ≠ 0)
    (h : t.syncSlot database slot lsn outcome = .ok scheduled') (hempty : t.scheduled.NoEmpty) :
    scheduled'.NoEmpty := by
  rw [syncSlot_eq hlsn] at h
  split at h
  · have hsome := (Schedule.popSlot_isOk t.scheduled).mp (by rw [h]; rfl)
    obtain ⟨s, hs, hpop, -⟩ := Schedule.popSlot_of_isSome t.scheduled hsome
    obtain rfl : s = scheduled' := Except.ok.inj (hs.symm.trans h)
    exact hpop hempty
  · obtain rfl := Except.ok.inj h
    exact hempty

/-- Whether it raises or not, the end of an advance leaves alone every slot that is not
to be copied and that has another LSN by now. -/
theorem lsn?_syncSlot {scheduled' : Schedule} (hlsn : lsn ≠ 0)
    (h : t.syncSlot database slot lsn outcome = .ok scheduled' ∨
      t.syncSlot database slot lsn outcome = .error scheduled') {database' slot' : String}
    (hkeep : database' = database → slot' = slot →
      outcome ≠ .copy ∧ t.scheduled.lsn? database slot ≠ some lsn) :
    scheduled'.lsn? database' slot' = t.scheduled.lsn? database' slot' := by
  rw [syncSlot_eq hlsn] at h
  split at h
  · next hpop =>
      rcases h with h | h
      · have hsome := (Schedule.popSlot_isOk t.scheduled).mp (by rw [h]; rfl)
        obtain ⟨s, hs, -, hlsn?⟩ := Schedule.popSlot_of_isSome t.scheduled hsome
        obtain rfl : s = scheduled' := Except.ok.inj (hs.symm.trans h)
        rw [hlsn?, if_neg]
        rintro ⟨rfl, rfl⟩
        obtain ⟨hcopy, hne⟩ := hkeep rfl rfl
        exact hpop.elim hcopy hne
      · exact Schedule.lsn?_of_popSlot_error t.scheduled h database' slot'
  · rcases h with h | h
    · obtain rfl := Except.ok.inj h
      rfl
    · cases h

/-- A step raises exactly if it wants to copy a slot that is not scheduled any more. -/
theorem raisesKeyError_iff (h : t.Sound) (l : Label) :
    RaisesKeyError l t ↔ ¬CopiesScheduled l t := by
  unfold RaisesKeyError CopiesScheduled
  cases l with
  | finish outcome =>
      cases hworker : t.worker with
      | advancing database slot lsn slots databases =>
          have hisOk := syncSlot_isOk t database slot outcome (h.lsn_ne_zero _ _ _ _ _ hworker)
          simp only [Bool.eq_false_iff, ne_eq, hisOk]
          cases outcome <;> simp
      | _ => cases outcome <;> simp
  | _ => simp

/-- The end of an advance, with and without a `KeyError`. -/
theorem step_finish (h : step (.finish outcome) t = some t') :
    ∃ database slot lsn slots databases,
      t.worker = .advancing database slot lsn slots databases ∧
        (t.syncSlot database slot lsn outcome = .ok t'.scheduled ∧
            t'.worker = .connected database slots databases ∨
          t.syncSlot database slot lsn outcome = .error t'.scheduled ∧
            t'.worker = .syncing databases) := by
  unfold step at h
  dsimp only at h
  split at h
  · next database slot lsn slots databases hworker =>
      refine ⟨database, slot, lsn, slots, databases, hworker, ?_⟩
      split at h
      · next hok =>
          obtain rfl := Option.some.inj h
          exact .inl ⟨hok, rfl⟩
      · next herror =>
          obtain rfl := Option.some.inj h
          exact .inr ⟨herror, rfl⟩
  · cases h

/-- The worker's own steps only read the schedule. -/
theorem work_spec (h : t.work = some t') :
    t'.scheduled = t.scheduled ∧
      ∀ database slot lsn slots databases,
        t'.worker = .advancing database slot lsn slots databases → lsn ≠ 0 := by
  unfold work at h
  split at h
  case h_1 =>
    obtain rfl := Option.some.inj h
    refine ⟨rfl, fun database slot lsn slots databases hworker => ?_⟩
    dsimp only at hworker
    split at hworker <;> cases hworker
  case h_2 =>
    split at h
    · obtain rfl := Option.some.inj h
      exact ⟨rfl, by rintro _ _ _ _ _ ⟨⟩⟩
    · cases h
  case h_5 =>
    obtain rfl := Option.some.inj h
    refine ⟨rfl, fun database slot lsn slots databases hworker => ?_⟩
    dsimp only at hworker
    split at hworker <;> cases hworker
  case h_8 database slot slots databases _ =>
    obtain rfl := Option.some.inj h
    refine ⟨rfl, fun database slot lsn slots databases hworker => ?_⟩
    dsimp only at hworker
    split at hworker
    · cases hworker
    · next hlsn =>
        injection hworker with _ _ heq
        exact heq ▸ hlsn
  case h_9 => cases h
  all_goals
    obtain rfl := Option.some.inj h
    exact ⟨rfl, by rintro _ _ _ _ _ ⟨⟩⟩

theorem step_connectFails (h : step .connectFails t = some t') :
    t'.scheduled = t.scheduled ∧ ∃ databases, t'.worker = .syncing databases := by
  unfold step at h
  dsimp only at h
  split at h
  · obtain rfl := Option.some.inj h
    exact ⟨rfl, _, rfl⟩
  · cases h

theorem schedule_worker_advancing {advanceSlots : Schedule} {slots databases : List String}
    (h : (t.schedule advanceSlots).worker = .advancing database slot lsn slots databases) :
    t.worker = .advancing database slot lsn slots databases := by
  unfold schedule at h
  dsimp only at h
  split at h
  · cases h
  · exact h

/-- No step makes the worker advance a slot to the LSN zero. -/
theorem step_lsn_ne_zero {l : Label} (hstep : step l t = some t')
    (h : ∀ database slot lsn slots databases,
      t.worker = .advancing database slot lsn slots databases → lsn ≠ 0) :
    ∀ database slot lsn slots databases,
      t'.worker = .advancing database slot lsn slots databases → lsn ≠ 0 := by
  intro database slot lsn slots databases hworker
  cases l with
  | schedule advanceSlots =>
      obtain rfl := Option.some.inj hstep
      exact h _ _ _ _ _ (schedule_worker_advancing hworker)
  | clean =>
      obtain rfl := Option.some.inj hstep
      exact h _ _ _ _ _ hworker
  | work => exact (work_spec hstep).2 _ _ _ _ _ hworker
  | connectFails =>
      obtain ⟨-, databases', h'⟩ := step_connectFails hstep
      rw [h'] at hworker
      cases hworker
  | finish outcome =>
      obtain ⟨_, _, _, _, _, -, ⟨-, h'⟩ | ⟨-, h'⟩⟩ := step_finish hstep
      all_goals
        rw [h'] at hworker
        cases hworker

theorem step_sound {l : Label} (hguard : CopiesScheduled l t) (hstep : step l t = some t')
    (h : t.Sound) : t'.Sound := by
  refine ⟨?_, step_lsn_ne_zero hstep h.lsn_ne_zero⟩
  cases l with
  | schedule advanceSlots =>
      obtain rfl := Option.some.inj hstep
      exact h.noEmpty.update
  | clean =>
      obtain rfl := Option.some.inj hstep
      exact init_sound.noEmpty
  | work =>
      rw [(work_spec hstep).1]
      exact h.noEmpty
  | connectFails =>
      rw [(step_connectFails hstep).1]
      exact h.noEmpty
  | finish outcome =>
      have hraises := (raisesKeyError_iff h (.finish outcome)).not_left.mpr hguard
      obtain ⟨database, slot, lsn, slots, databases, hworker, ⟨hok, -⟩ | ⟨herror, -⟩⟩ :=
        step_finish hstep
      · exact syncSlot_noEmpty (h.lsn_ne_zero _ _ _ _ _ hworker) hok h.noEmpty
      · refine absurd ?_ hraises
        unfold RaisesKeyError
        rw [hworker]
        simp only [herror]
        rfl

/-- The step is none of those that may take an LSN out of the schedule: `clean`, the
schedule of another LSN for the slot, an advance of the slot that ends with a request to
copy it, the end of the advance to this very LSN. -/
def Keeps (database slot : String) (lsn : ℤ) (l : Label) (t : SlotsAdvanceThread) : Prop :=
  match l with
  | .schedule advanceSlots => ∀ new, advanceSlots.lsn? database slot = some new → new = lsn
  | .clean => False
  | .finish outcome =>
      ∀ advanced slots databases,
        t.worker = .advancing database slot advanced slots databases →
          outcome ≠ .copy ∧ advanced ≠ lsn
  | _ => True

theorem step_keeps {l : Label} (hkeeps : Keeps database slot lsn l t) (hstep : step l t = some t')
    (hzero : ∀ database slot lsn slots databases,
      t.worker = .advancing database slot lsn slots databases → lsn ≠ 0)
    (h : t.scheduled.lsn? database slot = some lsn) :
    t'.scheduled.lsn? database slot = some lsn := by
  cases l with
  | schedule advanceSlots =>
      obtain rfl := Option.some.inj hstep
      change (t.scheduled.update t.copySlots advanceSlots).lsn? database slot = some lsn
      rw [Schedule.lsn?_update, h]
      split
      · rfl
      · cases hnew : advanceSlots.lsn? database slot with
        | none => rfl
        | some new => rw [hkeeps new hnew, Option.some_or]
  | clean => exact hkeeps.elim
  | work => rw [(work_spec hstep).1, h]
  | connectFails => rw [(step_connectFails hstep).1, h]
  | finish outcome =>
      obtain ⟨database', slot', lsn', slots, databases, hworker, hend⟩ := step_finish hstep
      refine (lsn?_syncSlot (hzero _ _ _ _ _ hworker) (hend.imp And.left And.left) ?_).trans h
      rintro rfl rfl
      obtain ⟨hcopy, hne⟩ := hkeeps _ _ _ hworker
      exact ⟨hcopy, fun heq => hne (Option.some.inj (heq.symm.trans h))⟩

theorem run_keeps {ls : List Label} (run : Run step (Keeps database slot lsn) t ls t')
    (hzero : ∀ database slot lsn slots databases,
      t.worker = .advancing database slot lsn slots databases → lsn ≠ 0)
    (h : t.scheduled.lsn? database slot = some lsn) :
    t'.scheduled.lsn? database slot = some lsn := by
  induction run with
  | nil => exact h
  | cons hkeeps hstep _ ih =>
      exact ih (step_lsn_ne_zero hstep hzero) (step_keeps hkeeps hstep hzero h)

/-- As long as advances that fail with a request to copy their slot end while the slot is
scheduled, no step raises a `KeyError` (and every other such end would), no database has an
empty map of slots, so that the worker sleeps when nothing is scheduled, and an LSN that is
scheduled while an older one of its slot is advanced stays scheduled. -/
theorem no_advance_is_lost {ls : List Label} (run : Run step CopiesScheduled init ls t) :
    (∀ l, RaisesKeyError l t ↔ ¬CopiesScheduled l t) ∧
    t.scheduled.NoEmpty ∧
    ((∀ database slot, t.scheduled.lsn? database slot = none) → t.worker = .loop →
      step .work t = some { t with worker := .waiting false }) ∧
    (∀ database slot old new slots databases ls' t',
      t.worker = .advancing database slot old slots databases →
      t.scheduled.lsn? database slot = some new → new ≠ old →
      Run step (Keeps database slot new) t ls' t' →
      t'.scheduled.lsn? database slot = some new) := by
  have hsound : t.Sound := run.invariant (fun _ _ _ => step_sound) init_sound
  refine ⟨raisesKeyError_iff hsound, hsound.noEmpty, ?_, ?_⟩
  · intro hnone hworker
    have hempty := hsound.noEmpty.eq_empty hnone
    simp only [step, work, hworker, (Dict.isEmpty_iff _).mpr hempty, if_true]
  · intro database slot old new slots databases ls' t' _ hnew _ hrun
    exact run_keeps hrun hsound.lsn_ne_zero hnew

section Example

/-- One slot of one database. -/
def oneSlot (lsn : ℤ) : Schedule :=
  (∅ : Schedule).set "postgres" ((∅ : Dict String ℤ).set "cdc" lsn)

/-- A slot is scheduled, and the worker goes as far as to advance it. -/
def advance : List Label :=
  [.schedule (oneSlot 10), .work, .work, .work, .work, .work]

/-- A newer LSN is scheduled in the meantime. -/
theorem no_advance_is_lost_rescheduled :
    ∃ t t', Run step CopiesScheduled init (advance ++ [.schedule (oneSlot 20)]) t ∧
      t.worker = .advancing "postgres" "cdc" 10 [] [] ∧
      step (.finish .success) t = some t' ∧ t'.scheduled.lsn? "postgres" "cdc" = some 20 := by
  obtain ⟨t, ht, hworker, hlsn, hok⟩ :
      ∃ t ∈ execGuarded step CopiesScheduled (advance ++ [.schedule (oneSlot 20)]) init,
        t.worker = .advancing "postgres" "cdc" 10 [] [] ∧
          t.scheduled.lsn? "postgres" "cdc" = some 20 ∧ (step (.finish .success) t).isSome := by
    decide +kernel
  obtain ⟨t', ht'⟩ := Option.isSome_iff_exists.mp hok
  have run := run_of_execGuarded ht
  refine ⟨t, t', run, hworker, ht', ?_⟩
  refine (no_advance_is_lost run).2.2.2 _ _ _ _ _ _ [.finish .success] t' hworker hlsn (by decide)
    (.cons ?_ ht' (.nil t'))
  intro advanced slots databases h
  rw [hworker] at h
  injection h with _ _ h
  exact ⟨by decide, h ▸ by decide⟩

/-- The schedule is cleaned while the slot is advanced, and then the slot is to be copied:
that raises, and leaves a database without slots, with which the worker never sleeps. -/
theorem late_copy_raises_keyError :
    (∃ t ∈ exec step (advance ++ [.clean]) init, RaisesKeyError (.finish .copy) t) ∧
    (∃ t ∈ exec step (advance ++ [.clean, .finish .copy, .work]) init,
      t.scheduled.keys = ["postgres"] ∧
        (t.scheduled.slotsOf "postgres").isEmpty ∧ t.worker = .loop ∧
        ∃ t' ∈ step .work t, t'.worker = .started) := by
  decide +kernel

end Example

end SlotsAdvanceThread

end Metatroni.Slots
