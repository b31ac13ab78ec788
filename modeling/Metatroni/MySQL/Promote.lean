import Metatroni.AsyncExecutor
import Metatroni.Cluster

/-!
# The promotion of a MySQL replica and its interlock with the HA loop

`MySQL.promote` runs in a worker while the HA loop goes on. When the loop finds
that the leader lock is lost, it cancels the `CriticalTask` of the promotion and
reports `lost leader before promote`.

A worker is the list of the statements that it still has to execute, so that
the HA loop can be interleaved between any two of them.
-/

namespace Metatroni.MySQL

open Runs

/-- The statements of `MySQL.promote`; `set_read_write` is two of them. -/
inductive PromoteStatement
  /-- `before_promote()`. -/
  | beforePromote
  /-- Return if `_is_replica()` is false. -/
  | checkReplica
  /-- `STOP SLAVE` -/
  | stopSlave
  /-- `RESET SLAVE ALL` -/
  | resetSlaveAll
  /-- `set_role(MySQLRole.PRIMARY)` -/
  | setRolePrimary
  | ensureReplicationUser
  /-- `SET GLOBAL super_read_only = OFF` -/
  | superReadOnlyOff
  /-- `SET GLOBAL read_only = OFF` -/
  | readOnlyOff
  | enableSemiSync
  /-- `async_response.complete(result)` -/
  | complete (result : Bool)
  deriving DecidableEq, Repr

/-- `MySQL.promote`, as long as nothing fails. -/
def promote : List PromoteStatement :=
  [.beforePromote, .checkReplica, .stopSlave, .resetSlaveAll, .setRolePrimary,
    .ensureReplicationUser, .superReadOnlyOff, .readOnlyOff, .enableSemiSync, .complete true]

/-- The statement stops replication, makes the instance writable or sets the
role to primary. -/
def PromoteStatement.promotes : PromoteStatement → Bool
  | .stopSlave | .resetSlaveAll | .setRolePrimary | .superReadOnlyOff | .readOnlyOff => true
  | _ => false

/-- How a statement ends. -/
inductive StatementResult
  | ok
  /-- A `MySQLdbError`. -/
  | dbError
  /-- Another exception. -/
  | otherError
  deriving DecidableEq, Repr

/-- A node with its HA loop and the worker of its promotion. -/
structure Promotion where
  hasLock : Bool
  /-- The scheduled action of the executor is `promote`. -/
  scheduled : Bool
  remaining : List PromoteStatement
  asyncResponse : CriticalTask Bool
  isReplica : Bool
  superReadOnly : Bool
  readOnly : Bool
  role : PostgresqlRole
  /-- The HA loop has reported `lost leader before promote` for this promotion. -/
  lostLeader : Bool
  /-- A promoting statement was executed since that report. -/
  promotedSince : Bool

namespace Promotion

/-- A replica without the leader lock. -/
def init : Promotion where
  hasLock := false
  scheduled := false
  remaining := []
  asyncResponse := .reset
  isReplica := true
  superReadOnly := true
  readOnly := true
  role := .replica
  lostLeader := false
  promotedSince := false

/-- What is left to do after a statement. -/
def continuation (isReplica : Bool) (result : StatementResult) (rest : List PromoteStatement) :
    PromoteStatement → List PromoteStatement
  -- an exception before the `try` statement ends the worker
  | .beforePromote => if result = .ok then rest else []
  -- a failed query counts as not being a replica
  | .checkReplica => if result = .ok ∧ isReplica = true then rest else []
  | .stopSlave | .resetSlaveAll =>
      match result with
      | .ok => rest
      | .dbError => [.complete false]
      | .otherError => []
  -- `set_read_write` gives up after its first failure
  | .superReadOnlyOff => if result = .ok then rest else rest.tail
  -- the others handle their exceptions themselves
  | _ => rest

/-- What a statement changes when it succeeds. -/
def effect (self : Promotion) : PromoteStatement → Promotion
  | .resetSlaveAll => { self with isReplica := false }
  | .setRolePrimary => { self with role := .primary }
  | .superReadOnlyOff => { self with superReadOnly := false }
  | .readOnlyOff => { self with readOnly := false }
  | .complete result => { self with asyncResponse := self.asyncResponse.complete result }
  | _ => self

/-- The worker executes its next statement. -/
def execute (self : Promotion) (result : StatementResult) : Option Promotion :=
  match self.remaining with
  | [] => none
  | statement :: rest =>
      let next := if result = .ok then self.effect statement else self
      some { next with
        remaining := continuation self.isReplica result rest statement
        promotedSince := self.promotedSince || (self.lostLeader && statement.promotes) }

/-- The end of `enforce_primary_role`: reset the task and start the worker. -/
def startPromote (self : Promotion) : Option Promotion :=
  if self.hasLock ∧ ¬ self.scheduled ∧ self.remaining = [] ∧ self.role ≠ .primary ∧
      self.role ≠ .promoted then
    some { self with
      asyncResponse := .reset
      scheduled := true
      remaining := promote
      lostLeader := false
      promotedSince := false }
  else none

/-- The worker has returned and the executor resets its slot. -/
def finish (self : Promotion) : Option Promotion :=
  if self.scheduled ∧ self.remaining = [] then some { self with scheduled := false } else none

/-- `handle_long_action_in_progress` without the lock, up to its message
`lost leader before promote`; it goes on with a demotion if `cancel` fails. -/
def handleLongActionInProgress (self : Promotion) : Option Promotion :=
  if self.scheduled ∧ ¬ self.hasLock then
    let (task, cancelled) := self.asyncResponse.cancel
    some { self with asyncResponse := task, lostLeader := self.lostLeader || cancelled }
  else none

/-- The HA loop follows another leader while no action is scheduled. -/
def follow (self : Promotion) : Option Promotion :=
  if ¬ self.scheduled ∧ self.remaining = [] then
    some { self with isReplica := true, superReadOnly := true, readOnly := true, role := .replica }
  else none

/-- The steps of the HA loop, of the worker and of the DCS. -/
inductive Label
  | lock (held : Bool)
  | follow
  | startPromote
  | execute (result : StatementResult)
  | finish
  | handleLongActionInProgress
  deriving DecidableEq, Repr

/-- One step. -/
def step (l : Label) (self : Promotion) : Option Promotion :=
  match l with
  | .lock held => some { self with hasLock := held }
  | .follow => self.follow
  | .startPromote => self.startPromote
  | .execute result => self.execute result
  | .finish => self.finish
  | .handleLongActionInProgress => self.handleLongActionInProgress

/-! ## When the interlock works -/

/-- The worker still has a promoting statement to execute, and will not return
early because the instance is no replica. -/
def promotesAhead (self : Promotion) : Bool :=
  !(self.remaining.contains .checkReplica && !self.isReplica) &&
    self.remaining.any (·.promotes)

/-- The HA loop cancels the task only when no promoting statement is left. -/
def CancelsAfterPromotion (l : Label) (self : Promotion) : Prop :=
  l = .handleLongActionInProgress → self.scheduled = true → self.hasLock = false →
    self.asyncResponse.result = none → self.promotesAhead = false

/-- The worker is somewhere in `promote` or reports its failure. -/
structure Inv (s : Promotion) : Prop where
  remaining : s.remaining <:+ promote ∨ s.remaining = [.complete false]
  ahead : s.lostLeader = true → s.promotesAhead = false
  since : s.promotedSince = false

theorem init_inv : Inv init := ⟨Or.inl List.nil_suffix, by simp [init], rfl⟩

/-- The places where the worker can be, with their next statement. -/
theorem cons_suffix_promote {statement : PromoteStatement} {rest : List PromoteStatement}
    (h : statement :: rest <:+ promote) :
    (statement, rest) ∈ promote.zip (promote.tails.drop 1) := by
  rw [← List.mem_tails] at h
  simp only [promote, List.tails, List.mem_cons, List.cons.injEq, List.not_mem_nil, or_false,
    reduceCtorEq] at h
  rcases h with ⟨rfl, rfl⟩ | ⟨rfl, rfl⟩ | ⟨rfl, rfl⟩ | ⟨rfl, rfl⟩ | ⟨rfl, rfl⟩ | ⟨rfl, rfl⟩ |
    ⟨rfl, rfl⟩ | ⟨rfl, rfl⟩ | ⟨rfl, rfl⟩ | ⟨rfl, rfl⟩
  all_goals decide

/-- After any statement the worker is still somewhere in `promote` or reports its failure. -/
theorem continuation_suffix (isReplica : Bool) (result : StatementResult) :
    ∀ p ∈ promote.zip (promote.tails.drop 1),
      continuation isReplica result p.2 p.1 <:+ promote ∨
        continuation isReplica result p.2 p.1 = [.complete false] := by
  cases isReplica <;> cases result <;> decide

/-- Once no promoting statement is ahead, the next one is none, and none comes into sight. -/
theorem continuation_promotesAhead (s : Promotion) (result : StatementResult) :
    ∀ p ∈ promote.zip (promote.tails.drop 1),
      { s with remaining := p.1 :: p.2 }.promotesAhead = false →
        p.1.promotes = false ∧
          { s with remaining := continuation s.isReplica result p.2 p.1 }.promotesAhead = false := by
  simp only [promotesAhead]
  cases s.isReplica <;> cases result <;> decide

/-- The instance changes its replication only by a promoting statement. -/
theorem effect_isReplica {s : Promotion} {statement : PromoteStatement}
    (h : statement.promotes = false) : (s.effect statement).isReplica = s.isReplica := by
  cases statement <;> first | rfl | simp [PromoteStatement.promotes] at h

theorem promotesAhead_nil {s : Promotion} (h : s.remaining = []) : s.promotesAhead = false := by
  simp [promotesAhead, h]

variable {s s' : Promotion}

theorem effect_lostLeader (statement : PromoteStatement) :
    (s.effect statement).lostLeader = s.lostLeader := by
  cases statement <;> rfl

/-- A statement in `promote` keeps the invariant. -/
theorem execute_inv {result : StatementResult} (h : Inv s) (hs : s.execute result = some s') :
    Inv s' := by
  rw [execute] at hs
  split at hs
  · simp at hs
  · next statement rest hrem =>
      obtain rfl := Option.some.inj hs
      have hlost : (if result = .ok then s.effect statement else s).lostLeader = s.lostLeader := by
        split
        · exact effect_lostLeader statement
        · rfl
      rcases h.remaining with hsuffix | hfailed
      · rw [hrem] at hsuffix
        have hplace := cons_suffix_promote hsuffix
        -- what is known of the statement once the HA loop has given up the lock
        have hnext : s.lostLeader = true → statement.promotes = false ∧
            { s with remaining := continuation s.isReplica result rest statement }.promotesAhead =
              false := by
          intro hl
          refine continuation_promotesAhead s result _ hplace ?_
          rw [← hrem]
          exact h.ahead hl
        refine ⟨continuation_suffix s.isReplica result _ hplace, ?_, ?_⟩
        · intro hl
          obtain ⟨hnot, hahead⟩ := hnext (hlost ▸ hl)
          have hreplica : (if result = .ok then s.effect statement else s).isReplica =
              s.isReplica := by
            split
            · exact effect_isReplica hnot
            · rfl
          simpa only [promotesAhead, hreplica] using hahead
        · cases hl : s.lostLeader with
          | false => simp [h.since]
          | true => simp [h.since, (hnext hl).1]
      · rw [hrem, List.cons.injEq] at hfailed
        obtain ⟨rfl, rfl⟩ := hfailed
        refine ⟨Or.inl List.nil_suffix, fun _ => promotesAhead_nil rfl, ?_⟩
        simp [h.since, PromoteStatement.promotes]

theorem handleLongActionInProgress_inv (h : Inv s)
    (hguard : s.scheduled = true → s.hasLock = false → s.asyncResponse.result = none →
      s.promotesAhead = false)
    (hs : s.handleLongActionInProgress = some s') : Inv s' := by
  rw [handleLongActionInProgress] at hs
  split at hs
  · next hcond =>
      obtain ⟨hscheduled, hlock⟩ := hcond
      cases hr : s.asyncResponse.result with
      | none =>
          simp only [CriticalTask.cancel, hr, Option.isSome_none] at hs
          obtain rfl := Option.some.inj hs
          exact ⟨h.remaining, fun _ => hguard hscheduled (Bool.not_eq_true _ ▸ hlock) hr, h.since⟩
      | some r =>
          simp only [CriticalTask.cancel, hr, Option.isSome_some, if_true, Bool.or_false] at hs
          obtain rfl := Option.some.inj hs
          exact ⟨h.remaining, h.ahead, h.since⟩
  · simp at hs

theorem step_inv {l : Label} (hguard : CancelsAfterPromotion l s) (hs : step l s = some s')
    (h : Inv s) : Inv s' := by
  cases l with
  | lock held =>
      obtain rfl := Option.some.inj hs
      exact ⟨h.remaining, h.ahead, h.since⟩
  | follow =>
      simp only [step, follow, Option.ite_none_right_eq_some, Option.some.injEq] at hs
      obtain ⟨⟨-, hrem⟩, rfl⟩ := hs
      exact ⟨h.remaining, fun _ => promotesAhead_nil hrem, h.since⟩
  | startPromote =>
      simp only [step, startPromote, Option.ite_none_right_eq_some, Option.some.injEq] at hs
      obtain ⟨-, rfl⟩ := hs
      exact ⟨Or.inl (List.suffix_refl promote), fun hl => absurd hl Bool.false_ne_true, rfl⟩
  | execute result => exact execute_inv h hs
  | finish =>
      simp only [step, finish, Option.ite_none_right_eq_some, Option.some.injEq] at hs
      obtain ⟨-, rfl⟩ := hs
      exact ⟨h.remaining, h.ahead, h.since⟩
  | handleLongActionInProgress => exact handleLongActionInProgress_inv h (hguard rfl) hs

/-- No promoting statement follows the report of a lost leader lock, if the
task is cancelled only when none of them is left. -/
theorem no_promotion_after_lost_leader (labels : List Label) (s : Promotion)
    (run : Run step CancelsAfterPromotion init labels s) :
    s.lostLeader = true → s.promotedSince = false := by
  have h : Inv s := run.invariant (fun _ _ _ hguard hs => step_inv hguard hs) init_inv
  exact fun _ => h.since

/-- The lock is lost after the instance was made writable. -/
theorem no_promotion_after_late_cancel :
    let labels : List Label := [.lock true, .startPromote, .execute .ok, .execute .ok, .execute .ok,
      .execute .ok, .execute .ok, .execute .ok, .execute .ok, .execute .ok, .lock false,
      .handleLongActionInProgress, .execute .ok, .execute .ok, .finish]
    ∃ s, Run step CancelsAfterPromotion init labels s ∧ s.lostLeader = true ∧
      s.promotedSince = false := by
  intro labels
  have hguard : Guarded step CancelsAfterPromotion labels init := by
    simp [labels, Guarded, CancelsAfterPromotion, step, startPromote, execute, promote,
      continuation, effect, promotesAhead, PromoteStatement.promotes, init]
  obtain ⟨s, hs, hlost⟩ : ∃ s, exec step labels init = some s ∧ s.lostLeader = true :=
    ⟨_, rfl, rfl⟩
  have run := run_of_exec hs hguard
  exact ⟨s, run, hlost, no_promotion_after_lost_leader labels s run hlost⟩

/-- The lock is lost right after the worker was started: `cancel` succeeds, and
the worker promotes the instance all the same. -/
theorem promotion_goes_on_after_cancel :
    let labels : List Label := [.lock true, .startPromote, .lock false,
      .handleLongActionInProgress, .execute .ok, .execute .ok, .execute .ok, .execute .ok,
      .execute .ok, .execute .ok, .execute .ok, .execute .ok]
    ∃ s, Run step (fun _ _ => True) init labels s ∧ s.lostLeader = true ∧
      s.promotedSince = true ∧ s.role = .primary ∧ s.readOnly = false ∧ s.isReplica = false := by
  intro labels
  obtain ⟨s, hs, h⟩ : ∃ s, exec step labels init = some s ∧ s.lostLeader = true ∧
      s.promotedSince = true ∧ s.role = .primary ∧ s.readOnly = false ∧ s.isReplica = false :=
    ⟨_, rfl, rfl, rfl, rfl, rfl, rfl⟩
  exact ⟨s, run_of_exec hs (guarded_true labels init), h⟩

end Promotion

end Metatroni.MySQL
