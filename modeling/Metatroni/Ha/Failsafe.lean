import Metatroni.AsyncExecutor
import Metatroni.Cluster

/-!
# Failsafe mode

A primary that has lost the DCS asks every other member of the `/failsafe` key
for its consent and keeps running if all of them accept. The question is
answered in an API thread of the member, from the local state and role of its
database, while its HA loop may be on the way to becoming the leader.

## Implementation notes

`update_failsafe` reads the state, then the role, and then updates the cached
failsafe leader under its own lock; the HA loop can run between any two of
these. The HA loop itself is split where the API threads can observe it: the
leader key, the local role and state, and the statements of the promotion.
Starting, stopping, following and demoting only show as changes of the role and
the state, which may happen at any time.
-/

namespace Metatroni

open Runs

/-- The JSON document of a `POST /failsafe` request. -/
structure FailsafeData where
  name : String
  connUrl : String
  apiUrl : String
  slots : Option (List (String × ℤ))
  deriving DecidableEq, Repr

/-- `Failsafe`. -/
structure Failsafe where
  lastUpdate : ℕ
  name : String
  connUrl : Option String
  apiUrl : Option String
  slots : Option (List (String × ℤ))
  deriving DecidableEq, Repr

namespace Failsafe

/-- `_reset_state`. -/
def resetState : Failsafe := ⟨0, "", none, none, none⟩

/-- `update` at a time. -/
def update (now : ℕ) (data : FailsafeData) : Failsafe :=
  ⟨now, data.name, some data.connUrl, some data.apiUrl, data.slots⟩

/-- `set_is_active`. -/
def setIsActive (failsafe : Failsafe) (value : ℕ) : Failsafe :=
  if value = 0 then resetState else { failsafe with lastUpdate := value }

end Failsafe

/-- The result of `update_failsafe`: a reason not to continue, or an LSN. -/
inductive UpdateFailsafeResult
  | reason (message : String)
  | lastWalLsn (lsn : Option ℤ)
  deriving DecidableEq, Repr

/-- The request was accepted. -/
def UpdateFailsafeResult.isAccepted : UpdateFailsafeResult → Bool
  | .reason _ => false
  | .lastWalLsn _ => true

/-- What the caller reads of an HTTP response. -/
structure HttpResponse where
  status : ℕ
  data : String
  lsn : Option ℤ
  deriving DecidableEq, Repr

/-- `do_POST_failsafe` after `update_failsafe` has returned. -/
def doPostFailsafe (ret : UpdateFailsafeResult) : HttpResponse :=
  let message := match ret with
    | .reason message => message
    | .lastWalLsn _ => "Accepted"
  { status := if message = "Accepted" then 200 else 500
    data := message
    lsn := match ret with
      | .reason _ => none
      | .lastWalLsn lsn => lsn }

/-! ## The caller -/

/-- `_FailsafeResponse`. -/
structure FailsafeResponse where
  memberName : String
  accepted : Bool
  lsn : Option ℤ
  deriving DecidableEq, Repr

/-- `call_failsafe_member`; there is no response if the request fails. -/
def callFailsafeMember (memberName : String) (response : Option HttpResponse) :
    FailsafeResponse :=
  match response with
  | none => ⟨memberName, false, none⟩
  | some response =>
      ⟨memberName, response.status = 200 && response.data = "Accepted", response.lsn⟩

/-- `check_failsafe_topology` over the members of the `/failsafe` key, if it is valid. -/
def checkFailsafeTopology (failsafe : Option (List String)) (name : String)
    (response : String → Option HttpResponse) : Bool :=
  match failsafe with
  | none => false
  | some members =>
      members.contains name &&
        (members.filter (· ≠ name)).all fun member =>
          (callFailsafeMember member (response member)).accepted

/-! ## The member -/

/-- How far an API thread has come with a `POST /failsafe` request. -/
inductive RequestPhase
  | idle
  | posted (data : FailsafeData)
  /-- The state was `RUNNING`; the role is still to be read. -/
  | sawRunning (data : FailsafeData)
  /-- The check has let the request pass. -/
  | passed (data : FailsafeData)
  | answered (ret : UpdateFailsafeResult)
  deriving DecidableEq, Repr

/-- How far the worker of `Postgresql.promote` has come. -/
inductive PromotePhase
  | idle
  | started
  /-- The pre-promote script has succeeded and the task is complete. -/
  | completed
  /-- `pg_ctl promote` has succeeded. -/
  | waiting
  deriving DecidableEq, Repr

/-- A member that reaches the DCS. -/
structure FailsafeMember where
  /-- The member has the leader key. -/
  hasLock : Bool
  state : PostgresqlState
  role : PostgresqlRole
  /-- The database is no longer in recovery. -/
  isPrimary : Bool
  asyncResponse : CriticalTask Bool
  promotion : PromotePhase
  failsafe : Failsafe
  lastWalLsn : Option ℤ
  request : ℕ → RequestPhase

namespace FailsafeMember

/-- A running replica. -/
def init : FailsafeMember where
  hasLock := false
  state := .running
  role := .replica
  isPrimary := false
  asyncResponse := .reset
  promotion := .idle
  failsafe := .resetState
  lastWalLsn := none
  request := fun _ => .idle

/-- Move one request on. -/
def setRequest (s : FailsafeMember) (r : ℕ) (phase : RequestPhase) : FailsafeMember :=
  { s with request := Function.update s.request r phase }

/-- `update_failsafe`, first half of the condition. -/
def readState (s : FailsafeMember) (r : ℕ) : Option FailsafeMember :=
  match s.request r with
  | .posted data =>
      some (s.setRequest r (if s.state = .running then .sawRunning data else .passed data))
  | _ => none

/-- `update_failsafe`, second half of the condition. -/
def readRole (s : FailsafeMember) (r : ℕ) : Option FailsafeMember :=
  match s.request r with
  | .sawRunning data =>
      some (s.setRequest r
        (if s.role = .primary then .answered (.reason "Running as a leader") else .passed data))
  | _ => none

/-- `update_failsafe` after its condition. -/
def updateFailsafe (s : FailsafeMember) (r : ℕ) (now : ℕ) : Option FailsafeMember :=
  match s.request r with
  | .passed data =>
      some ({ s with failsafe := Failsafe.update now data }.setRequest r
        (.answered (.lastWalLsn s.lastWalLsn)))
  | _ => none

/-- What `enforce_primary_role` finds besides the state of the member. -/
structure Circumstances where
  isPaused : Bool
  watchdogActive : Bool
  /-- `process_sync_replication_prepromote` succeeds. -/
  prepromote : Bool
  deriving DecidableEq, Repr

/-- `enforce_primary_role`, called with the leader key and no action scheduled. -/
def enforcePrimaryRole (s : FailsafeMember) (c : Circumstances) : Option FailsafeMember :=
  if s.hasLock ∧ s.promotion = .idle then
    if ¬ c.isPaused ∧ ¬ c.watchdogActive then
      if s.isPrimary then some { s with role := .demoted, hasLock := false }
      else some { s with hasLock := false }
    else if ¬ c.isPaused ∧ s.asyncResponse.result = some false then
      some { s with hasLock := false, asyncResponse := .reset }
    else if s.isPrimary then some { s with role := .primary }
    else if s.role = .primary ∨ s.role = .promoted then some s
    else if ¬ c.prepromote then some s
    else some { s with
      failsafe := s.failsafe.setIsActive 0
      asyncResponse := .reset
      promotion := .started }
  else none

/-- `Postgresql.promote` up to the completion of its task, with the result of
the pre-promote script. -/
def prePromote (s : FailsafeMember) (ret : Option Bool) : Option FailsafeMember :=
  if s.promotion = .started then
    if s.role = .promoted ∨ s.role = .primary then some { s with promotion := .idle }
    else if s.asyncResponse.isCancelled then some { s with promotion := .idle }
    else some { s with
      asyncResponse := { s.asyncResponse with result := ret }
      promotion := if ret = some false then .idle else .completed }
  else none

/-- `pg_ctl promote`; it is not reached if the promotion was cancelled. -/
def pgCtlPromote (s : FailsafeMember) (ret : Bool) : Option FailsafeMember :=
  if s.promotion = .completed then
    if ret then some { s with role := .promoted, promotion := .waiting }
    else some { s with promotion := .idle }
  else none

/-- `_wait_promote` ends; the database has left recovery or not. -/
def waitPromote (s : FailsafeMember) (ret : Bool) : Option FailsafeMember :=
  if s.promotion = .waiting then
    some { s with isPrimary := s.isPrimary || ret, promotion := .idle }
  else none

/-- The steps of the HA loop, of its worker and of the API threads. -/
inductive Label
  | acquireLock
  | releaseLeaderKey
  | enforcePrimaryRole (c : Circumstances)
  | prePromote (ret : Option Bool)
  | pgCtlPromote (ret : Bool)
  | waitPromote (ret : Bool)
  /-- The HA loop found that the lock is lost during the promotion. -/
  | cancelPromote
  /-- The end of a cycle in which the member is the leader. -/
  | finishCycle
  | setRole (role : PostgresqlRole)
  | setState (state : PostgresqlState)
  | setIsPrimary (isPrimary : Bool)
  | setLastWalLsn (lsn : Option ℤ)
  | post (r : ℕ) (data : FailsafeData)
  | readState (r : ℕ)
  | readRole (r : ℕ)
  | updateFailsafe (r : ℕ) (now : ℕ)
  deriving DecidableEq, Repr

/-- One step. -/
def step (l : Label) (s : FailsafeMember) : Option FailsafeMember :=
  match l with
  | .acquireLock => if s.hasLock then none else some { s with hasLock := true }
  | .releaseLeaderKey => some { s with hasLock := false }
  | .enforcePrimaryRole c => s.enforcePrimaryRole c
  | .prePromote ret => s.prePromote ret
  | .pgCtlPromote ret => s.pgCtlPromote ret
  | .waitPromote ret => s.waitPromote ret
  | .cancelPromote =>
      if s.promotion ≠ .idle ∧ ¬ s.hasLock then
        some { s with asyncResponse := s.asyncResponse.cancel.1 }
      else none
  | .finishCycle => if s.hasLock then some { s with failsafe := s.failsafe.setIsActive 0 } else none
  | .setRole role => some { s with role := role }
  | .setState state => some { s with state := state }
  | .setIsPrimary isPrimary => some { s with isPrimary := isPrimary }
  | .setLastWalLsn lsn => some { s with lastWalLsn := lsn }
  | .post r data => if s.request r = .idle then some (s.setRequest r (.posted data)) else none
  | .readState r => s.readState r
  | .readRole r => s.readRole r
  | .updateFailsafe r now => s.updateFailsafe r now

/-! ## When a leader refuses -/

/-- A step in which the leader neither accepts a request nor records its sender. -/
def Refuses (s s' : FailsafeMember) : Prop :=
  (∀ r ret, s'.request r = .answered ret → ret.isAccepted = true → s.request r = .answered ret) ∧
    (s'.failsafe = s.failsafe ∨ s'.failsafe = .resetState)

/-- With the leader key, a request finds the state `RUNNING` and the role
`PRIMARY`, and the key is acquired only when no request has passed the check
without being recorded. -/
def ChecksAsLeader (l : Label) (s : FailsafeMember) : Prop :=
  match l with
  | .acquireLock => ∀ r data, s.request r ≠ .passed data
  | .readState _ => s.hasLock = true → s.state = .running
  | .readRole _ => s.hasLock = true → s.role = .primary
  | _ => True

/-- No request of a leader has passed the check. -/
def Inv (s : FailsafeMember) : Prop :=
  s.hasLock = true → ∀ r data, s.request r ≠ .passed data

variable {s s' : FailsafeMember}

/-- A step that leaves the requests alone keeps the invariant, unless it acquires the key. -/
theorem Inv.of_request_eq (h : Inv s) (hreq : s'.request = s.request)
    (hlock : s'.hasLock = true → s.hasLock = true) : Inv s' := by
  intro hl r data
  rw [hreq]
  exact h (hlock hl) r data

/-- A request that moves on must not come to have passed the check of a leader. -/
theorem Inv.setRequest {r : ℕ} {phase : RequestPhase} (h : Inv s)
    (hphase : s.hasLock = true → ∀ data, phase ≠ .passed data) : Inv (s.setRequest r phase) := by
  intro hl r' data
  by_cases hr : r' = r
  · subst hr
    simpa [FailsafeMember.setRequest] using hphase hl data
  · simpa [FailsafeMember.setRequest, hr] using h hl r' data

theorem enforcePrimaryRole_request {c : Circumstances} (hs : s.enforcePrimaryRole c = some s') :
    s'.request = s.request ∧ (s'.hasLock = true → s.hasLock = true) ∧
      (s'.failsafe = s.failsafe ∨ s'.failsafe = .resetState) := by
  rw [enforcePrimaryRole] at hs
  split at hs
  · next hcond =>
      repeat' split at hs
      all_goals
        obtain rfl := Option.some.inj hs
        exact ⟨rfl, fun _ => hcond.1, by simp [Failsafe.setIsActive]⟩
  · simp at hs

theorem prePromote_request {ret : Option Bool} (hs : s.prePromote ret = some s') :
    s'.request = s.request ∧ s'.hasLock = s.hasLock ∧ s'.failsafe = s.failsafe := by
  rw [prePromote] at hs
  split at hs
  · repeat' split at hs
    all_goals
      obtain rfl := Option.some.inj hs
      exact ⟨rfl, rfl, rfl⟩
  · simp at hs

theorem pgCtlPromote_request {ret : Bool} (hs : s.pgCtlPromote ret = some s') :
    s'.request = s.request ∧ s'.hasLock = s.hasLock ∧ s'.failsafe = s.failsafe := by
  rw [pgCtlPromote] at hs
  split at hs
  · repeat' split at hs
    all_goals
      obtain rfl := Option.some.inj hs
      exact ⟨rfl, rfl, rfl⟩
  · simp at hs

/-- The steps that no API thread takes. -/
def Label.isLocal : Label → Bool
  | .post _ _ | .readState _ | .readRole _ | .updateFailsafe _ _ => false
  | _ => true

/-- The HA loop and its worker leave the requests alone and record no leader. -/
theorem step_local {l : Label} (hl : l.isLocal = true) (hs : step l s = some s') :
    s'.request = s.request ∧ (l ≠ .acquireLock → s'.hasLock = true → s.hasLock = true) ∧
      (s'.failsafe = s.failsafe ∨ s'.failsafe = .resetState) := by
  cases l with
  | enforcePrimaryRole c =>
      obtain ⟨hreq, hlock, hfailsafe⟩ := enforcePrimaryRole_request hs
      exact ⟨hreq, fun _ => hlock, hfailsafe⟩
  | prePromote ret =>
      obtain ⟨hreq, hlock, hfailsafe⟩ := prePromote_request hs
      exact ⟨hreq, fun _ => hlock.symm.trans, Or.inl hfailsafe⟩
  | pgCtlPromote ret =>
      obtain ⟨hreq, hlock, hfailsafe⟩ := pgCtlPromote_request hs
      exact ⟨hreq, fun _ => hlock.symm.trans, Or.inl hfailsafe⟩
  | waitPromote ret =>
      simp only [step, waitPromote, Option.ite_none_right_eq_some, Option.some.injEq] at hs
      obtain ⟨-, rfl⟩ := hs
      exact ⟨rfl, fun _ => id, Or.inl rfl⟩
  | acquireLock =>
      simp only [step, Option.ite_none_left_eq_some, Option.some.injEq] at hs
      obtain ⟨-, rfl⟩ := hs
      exact ⟨rfl, fun hne => absurd rfl hne, Or.inl rfl⟩
  | cancelPromote =>
      simp only [step, Option.ite_none_right_eq_some, Option.some.injEq] at hs
      obtain ⟨-, rfl⟩ := hs
      exact ⟨rfl, fun _ => id, Or.inl rfl⟩
  | finishCycle =>
      simp only [step, Option.ite_none_right_eq_some, Option.some.injEq] at hs
      obtain ⟨-, rfl⟩ := hs
      exact ⟨rfl, fun _ => id, Or.inr rfl⟩
  | releaseLeaderKey =>
      obtain rfl := Option.some.inj hs
      exact ⟨rfl, fun _ h => absurd h Bool.false_ne_true, Or.inl rfl⟩
  | setRole role =>
      obtain rfl := Option.some.inj hs
      exact ⟨rfl, fun _ => id, Or.inl rfl⟩
  | setState state =>
      obtain rfl := Option.some.inj hs
      exact ⟨rfl, fun _ => id, Or.inl rfl⟩
  | setIsPrimary isPrimary =>
      obtain rfl := Option.some.inj hs
      exact ⟨rfl, fun _ => id, Or.inl rfl⟩
  | setLastWalLsn lsn =>
      obtain rfl := Option.some.inj hs
      exact ⟨rfl, fun _ => id, Or.inl rfl⟩
  | post | readState | readRole | updateFailsafe => simp [Label.isLocal] at hl

/-- A step of an API thread moves its own request on, and only the update
changes what is recorded. -/
theorem step_request {l : Label} (hl : l.isLocal = false) (hs : step l s = some s') :
    ∃ r phase failsafe, s' = { s with failsafe := failsafe }.setRequest r phase ∧
      ((∃ data, l = .post r data ∧ phase = .posted data ∧ failsafe = s.failsafe) ∨
        (∃ data, l = .readState r ∧ failsafe = s.failsafe ∧
          phase = if s.state = .running then .sawRunning data else .passed data) ∨
        (∃ data, l = .readRole r ∧ failsafe = s.failsafe ∧
          phase = if s.role = .primary then .answered (.reason "Running as a leader")
            else .passed data) ∨
        ∃ data, s.request r = .passed data) := by
  cases l with
  | post r data =>
      simp only [step, Option.ite_none_right_eq_some, Option.some.injEq] at hs
      obtain ⟨-, rfl⟩ := hs
      exact ⟨r, _, s.failsafe, rfl, Or.inl ⟨data, rfl, rfl, rfl⟩⟩
  | readState r =>
      simp only [step, readState] at hs
      split at hs
      · next data _ =>
          obtain rfl := Option.some.inj hs
          exact ⟨r, _, s.failsafe, rfl, Or.inr (Or.inl ⟨data, rfl, rfl, rfl⟩)⟩
      · simp at hs
  | readRole r =>
      simp only [step, readRole] at hs
      split at hs
      · next data _ =>
          obtain rfl := Option.some.inj hs
          exact ⟨r, _, s.failsafe, rfl, Or.inr (Or.inr (Or.inl ⟨data, rfl, rfl, rfl⟩))⟩
      · simp at hs
  | updateFailsafe r now =>
      simp only [step, updateFailsafe] at hs
      split at hs
      · next data hpassed =>
          obtain rfl := Option.some.inj hs
          exact ⟨r, _, _, rfl, Or.inr (Or.inr (Or.inr ⟨data, hpassed⟩))⟩
      · simp at hs
  | _ => simp [Label.isLocal] at hl

theorem init_inv : Inv init := by
  intro hl
  simp [init] at hl

theorem step_inv {l : Label} (hguard : ChecksAsLeader l s) (hs : step l s = some s') (h : Inv s) :
    Inv s' := by
  cases hlocal : l.isLocal with
  | true =>
      obtain ⟨hreq, hlock, -⟩ := step_local hlocal hs
      by_cases hacquire : l = .acquireLock
      · subst hacquire
        intro _ r data
        rw [hreq]
        exact hguard r data
      · exact h.of_request_eq hreq (hlock hacquire)
  | false =>
      obtain ⟨r, phase, failsafe, rfl, hcases⟩ := step_request hlocal hs
      have h' : Inv { s with failsafe := failsafe } := h
      apply h'.setRequest
      intro hl data'
      rcases hcases with ⟨data, -, rfl, -⟩ | ⟨data, rfl, -, rfl⟩ | ⟨data, rfl, -, rfl⟩ |
        ⟨data, hpassed⟩
      · exact RequestPhase.noConfusion
      · simp [show s.state = .running from hguard hl]
      · simp [show s.role = .primary from hguard hl]
      · exact absurd hpassed (h hl r data)

/-- Between the acquisition and the release of the leader key no `POST
/failsafe` request is accepted, if the key is acquired while none is on its way
past the check, and the check finds a running primary whenever the key is held. -/
theorem leader_refuses_failsafe (labels : List Label) (l : Label) (s s' : FailsafeMember)
    (run : Run step ChecksAsLeader init labels s) (hs : step l s = some s')
    (hlock : s.hasLock = true) : Refuses s s' := by
  have h : Inv s := run.invariant (fun _ _ _ hguard hs => step_inv hguard hs) init_inv
  cases hlocal : l.isLocal with
  | true =>
      obtain ⟨hreq, -, hfailsafe⟩ := step_local hlocal hs
      refine ⟨?_, hfailsafe⟩
      intro r ret hret _
      rwa [hreq] at hret
  | false =>
      obtain ⟨r, phase, failsafe, rfl, hcases⟩ := step_request hlocal hs
      have hphase : (∀ ret, phase = .answered ret → ret.isAccepted = false) ∧
          failsafe = s.failsafe := by
        rcases hcases with ⟨data, -, rfl, hf⟩ | ⟨data, -, hf, rfl⟩ | ⟨data, -, hf, rfl⟩ |
          ⟨data, hpassed⟩
        · simp [hf]
        · refine ⟨?_, hf⟩
          intro ret hret
          split at hret <;> simp at hret
        · refine ⟨?_, hf⟩
          intro ret hret
          split at hret
          · obtain rfl := RequestPhase.answered.inj hret
            rfl
          · simp at hret
        · exact absurd hpassed (h hlock r data)
      refine ⟨?_, Or.inl hphase.2⟩
      intro r' ret hret haccepted
      by_cases hr : r' = r
      · subst hr
        simp only [setRequest, Function.update_self] at hret
        simp [hphase.1 ret hret] at haccepted
      · simpa [setRequest, hr] using hret

/-- The document that a primary `p` sends. -/
def dataOfP : FailsafeData :=
  ⟨"p", "postgres://p:5432/postgres", "http://p:8008/patroni", none⟩

/-- Nothing holds up the promotion. -/
def Circumstances.normal : Circumstances := ⟨false, true, true⟩

/-- After the first cycle of the new primary, its role is `PRIMARY`. -/
theorem leader_refuses_failsafe_after_promotion :
    let labels : List Label := [.acquireLock, .enforcePrimaryRole .normal, .prePromote none,
      .pgCtlPromote true, .waitPromote true, .enforcePrimaryRole .normal, .post 0 dataOfP,
      .readState 0]
    ∃ s s', Run step ChecksAsLeader init labels s ∧ s.hasLock = true ∧
      step (.readRole 0) s = some s' ∧ Refuses s s' := by
  intro labels
  have hguard : Guarded step ChecksAsLeader labels init := by
    simp [labels, Guarded, ChecksAsLeader, step, enforcePrimaryRole, prePromote, pgCtlPromote,
      waitPromote, init, Circumstances.normal, CriticalTask.reset, setRequest]
  obtain ⟨s, s', hex, hlock, hs⟩ : ∃ s s', exec step labels init = some s ∧
      s.hasLock = true ∧ step (.readRole 0) s = some s' :=
    ⟨_, _, rfl, rfl, rfl⟩
  have run := run_of_exec hex hguard
  exact ⟨s, s', run, hlock, hs, leader_refuses_failsafe labels _ s s' run hs hlock⟩

/-- The promotion is over and the database writable, but the role is still
`PROMOTED`: the leader accepts, and the old primary `p` continues. -/
theorem promoted_leader_accepts_failsafe :
    let labels : List Label := [.acquireLock, .enforcePrimaryRole .normal, .prePromote none,
      .pgCtlPromote true, .waitPromote true, .post 0 dataOfP, .readState 0, .readRole 0]
    ∃ s s', Run step (fun _ _ => True) init labels s ∧ s.hasLock = true ∧ s.isPrimary = true ∧
      step (.updateFailsafe 0 1) s = some s' ∧ ¬ Refuses s s' ∧
      s'.request 0 = .answered (.lastWalLsn none) ∧ s'.failsafe.name = "p" ∧
      checkFailsafeTopology (some ["p", "q"]) "p"
        (fun _ => some (doPostFailsafe (.lastWalLsn none))) = true := by
  intro labels
  obtain ⟨s, s', hex, hlock, hprimary, hs, hpassed, hanswer, hname⟩ : ∃ s s',
      exec step labels init = some s ∧ s.hasLock = true ∧ s.isPrimary = true ∧
      step (.updateFailsafe 0 1) s = some s' ∧ s.request 0 = .passed dataOfP ∧
      s'.request 0 = .answered (.lastWalLsn none) ∧ s'.failsafe.name = "p" :=
    ⟨_, _, rfl, rfl, rfl, rfl, rfl, rfl, rfl⟩
  refine ⟨s, s', run_of_exec hex (guarded_true labels init), hlock, hprimary, hs, ?_, hanswer,
    hname, by decide⟩
  intro hrefuses
  have hbefore := hrefuses.1 0 _ hanswer rfl
  rw [hpassed] at hbefore
  exact RequestPhase.noConfusion hbefore

end FailsafeMember

end Metatroni
