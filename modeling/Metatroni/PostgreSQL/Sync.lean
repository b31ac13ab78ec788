import Metatroni.Cluster

/-!
# `SyncHandler`

The part of `postgresql/sync.py` that serves quorum commit: it writes
`synchronous_standby_names`, remembers where the primary was when the value
changed, and counts a replica as synchronous once it has reached that point.

## Implementation notes

The setting is kept in the form in which it is written, so that comparing the
texts is comparing the values. The entry `*` stands for every replica and is
not a name of one; the set of members of such a value is empty here. The
versions of PostgreSQL without quorum commit are left out.
-/

namespace Metatroni

variable {ν : Type} [NodeName ν]

/-- A value of `synchronous_standby_names`. -/
inductive StandbyNames (ν : Type)
  | off
  /-- `ANY num (*)` -/
  | star (num : ℤ)
  /-- `ANY num (names)` -/
  | any (num : ℤ) (names : List ν)
  deriving DecidableEq

/-- `_SSN`. -/
structure Ssn (ν : Type) [NodeName ν] where
  hasStar : Bool
  num : ℤ
  members : CaseInsensitiveSet ν
  deriving DecidableEq

/-- `parse_sync_standby_names`. -/
def parseSyncStandbyNames : StandbyNames ν → Ssn ν
  | .off => ⟨false, 0, ∅⟩
  | .star num => ⟨true, num, ∅⟩
  | .any num names => ⟨false, num, .ofList names⟩

/-- `pg_stat_replication.sync_state`. -/
inductive ReplicaSyncState
  | async
  | potential
  | quorum
  | sync
  deriving DecidableEq, Repr

/-- `_Replica`; the priority only orders the list. -/
structure Replica (ν : Type) where
  pid : ℕ
  applicationName : ν
  syncState : ReplicaSyncState
  lsn : ℕ
  nofailover : Bool
  deriving DecidableEq

/-- `_SyncState` of `postgresql/sync.py`, without its type. -/
structure ReplicationState (ν : Type) [NodeName ν] where
  numsync : ℤ
  sync : CaseInsensitiveSet ν
  syncConfirmed : CaseInsensitiveSet ν
  active : CaseInsensitiveSet ν
  deriving DecidableEq

/-- The attributes of `SyncHandler`; the parsed value belongs to the text. -/
structure SyncHandler (ν : Type) [NodeName ν] where
  standbyNames : StandbyNames ν
  ssnData : Ssn ν
  primaryFlushLsn : ℕ
  /-- Names of the replicas that have reached `_primary_flush_lsn`, and the pids. -/
  readyReplicas : List (ν × ℕ)
  parsed : ssnData = parseSyncStandbyNames standbyNames

namespace SyncHandler

/-- `__init__`. -/
def init : SyncHandler ν where
  standbyNames := .off
  ssnData := parseSyncStandbyNames .off
  primaryFlushLsn := 0
  readyReplicas := []
  parsed := rfl

/-- `name in self._ready_replicas`. -/
def isReady (handler : SyncHandler ν) (name : ν) : Bool :=
  handler.readyReplicas.any fun entry => lower entry.1 = lower name

/-- `_handle_synchronous_standby_names_change`. -/
def handleSynchronousStandbyNamesChange (handler : SyncHandler ν) (standbyNames : StandbyNames ν)
    (lastOperation : ℕ) : SyncHandler ν :=
  if standbyNames = handler.standbyNames then handler
  else
    { standbyNames := standbyNames
      ssnData := parseSyncStandbyNames standbyNames
      primaryFlushLsn := lastOperation
      readyReplicas := handler.readyReplicas.filter fun entry =>
        entry.1 ∈ (parseSyncStandbyNames standbyNames).members
      parsed := rfl }

theorem handleSynchronousStandbyNamesChange_ssnData (handler : SyncHandler ν)
    (standbyNames : StandbyNames ν) (lastOperation : ℕ) :
    (handler.handleSynchronousStandbyNamesChange standbyNames lastOperation).ssnData =
      parseSyncStandbyNames standbyNames := by
  rw [handleSynchronousStandbyNamesChange]
  split
  · next h => rw [handler.parsed, h]
  · rfl

/-- One iteration of `_process_replica_readiness`. -/
def processReplica (handler : SyncHandler ν) (replica : Replica ν) : SyncHandler ν :=
  if ¬ handler.isReady replica.applicationName ∧
      replica.applicationName ∈ handler.ssnData.members ∧
      handler.primaryFlushLsn ≤ replica.lsn ∧ replica.syncState = .quorum then
    { handler with
      readyReplicas := handler.readyReplicas ++ [(replica.applicationName, replica.pid)] }
  else handler

/-- `_process_replica_readiness`. -/
def processReplicaReadiness (handler : SyncHandler ν) (replicaList : List (Replica ν)) :
    SyncHandler ν :=
  replicaList.foldl processReplica handler

theorem processReplicaReadiness_ssnData (handler : SyncHandler ν) (replicaList : List (Replica ν)) :
    (handler.processReplicaReadiness replicaList).ssnData = handler.ssnData := by
  rw [processReplicaReadiness]
  induction replicaList generalizing handler with
  | nil => rfl
  | cons replica rest ih =>
      rw [List.foldl_cons, ih, processReplica]
      split <;> rfl

/-- `_ReplicaList.max_lsn`. -/
def maxLsn (replicaList : List (Replica ν)) (lastOperation : ℕ) : ℕ :=
  if 1 < replicaList.length then (replicaList.map (·.lsn)).foldl max 0 else lastOperation

/-- The loop of `current_state` over the replicas, as `(active, sync_confirmed)`. -/
def selectReplicas (handler : SyncHandler ν) (syncNodeCount syncNodeMaxlag : ℤ) (maxLsn : ℕ)
    (replicas : List (Replica ν)) : CaseInsensitiveSet ν × CaseInsensitiveSet ν :=
  replicas.foldl
    (fun (active, confirmed) replica =>
      if (syncNodeMaxlag ≤ 0 ∨ (maxLsn : ℤ) - replica.lsn ≤ syncNodeMaxlag) ∧
          (¬ replica.nofailover ∨ active.len < syncNodeCount) then
        (active.add replica.applicationName,
          if handler.isReady replica.applicationName then confirmed.add replica.applicationName
          else confirmed)
      else (active, confirmed))
    (∅, ∅)

/-- `current_state`. -/
def currentState (handler : SyncHandler ν) (standbyNames : StandbyNames ν) (lastOperation : ℕ)
    (replicaList : List (Replica ν)) (syncNodeCount syncNodeMaxlag : ℤ) :
    SyncHandler ν × ReplicationState ν :=
  let handler := handler.handleSynchronousStandbyNamesChange standbyNames lastOperation
  let handler := handler.processReplicaReadiness replicaList
  -- members without the `nofailover` tag come first
  let replicas := replicaList.filter (¬ ·.nofailover) ++ replicaList.filter (·.nofailover)
  let selected := handler.selectReplicas syncNodeCount syncNodeMaxlag
    (maxLsn replicaList lastOperation) replicas
  (handler,
    { numsync := handler.ssnData.num
      sync := if handler.ssnData.hasStar then ∅ else handler.ssnData.members
      syncConfirmed := selected.2
      active := selected.1 })

/-- The value that `set_synchronous_standby_names` writes. -/
def standbyNamesOf (sync : CaseInsensitiveSet ν) (num : ℤ) : StandbyNames ν :=
  if sync.Truthy then .any num sync.sorted
  else if 1 ≤ num then .star num
  else .off

/-- `set_synchronous_standby_names` on a running primary: the new value and the handler. -/
def setSynchronousStandbyNames (handler : SyncHandler ν) (current : StandbyNames ν)
    (sync : CaseInsensitiveSet ν) (num : ℤ) (lastOperation : ℕ) : StandbyNames ν × SyncHandler ν :=
  let new := standbyNamesOf sync num
  let hasAsterisk := 1 ≤ num ∧ ¬ sync.Truthy
  if new = current ∨ hasAsterisk then (new, handler)
  else (new, handler.handleSynchronousStandbyNamesChange new lastOperation)

end SyncHandler

end Metatroni
