import Metatroni.PostgreSQL.Sync

/-!
# `SyncHandler` without quorum commit

The same handler as it works for `_process_multisync_replication`: on servers of
every version, with the values of `synchronous_standby_names` that any of them
may have, and with the branches that are taken while `synchronous_mode` is not
`quorum`. The branches for `quorum` stay, because the handler asks for the mode
only and not for what the server supports.

## Implementation notes

A value of the setting is kept as its parts. The entry `*` stands for every
replica and is no name of one. That a replica is ready only while it is listed
is part of the handler, since every method that touches either keeps it.
-/

namespace Metatroni

namespace Multisync

variable {ν : Type} [NodeName ν]

/-- `supports_multiple_sync`. -/
def supportsMultipleSync (majorVersion : ℕ) : Bool := 90600 ≤ majorVersion

/-- `supports_quorum_commit`. -/
def supportsQuorumCommit (majorVersion : ℕ) : Bool := 100000 ≤ majorVersion

/-- `_SSN.sync_type`. -/
inductive SyncType
  | off
  | priority
  | quorum
  deriving DecidableEq, Repr

/-- A value of `synchronous_standby_names`. -/
structure Setting (ν : Type) where
  syncType : SyncType
  hasStar : Bool
  num : ℤ
  names : List ν
  deriving DecidableEq

namespace Setting

/-- The setting is empty. -/
def off : Setting ν := ⟨.off, false, 0, []⟩

/-- `*`. -/
def star : Setting ν := ⟨.priority, true, 1, []⟩

/-- `parse_sync_standby_names`. -/
def parse (setting : Setting ν) : Ssn ν := ⟨setting.hasStar, setting.num, .ofList setting.names⟩

/-- The nodes, by their lower-cased names, that the setting is about. -/
def Lists (setting : Setting ν) (key : ν) : Prop :=
  setting.hasStar ∨ key ∈ setting.parse.members.keys

instance (setting : Setting ν) (key : ν) : Decidable (setting.Lists key) :=
  inferInstanceAs (Decidable (_ ∨ _))

theorem lists_of_mem {setting : Setting ν} {name : ν} (h : name ∈ setting.parse.members) :
    setting.Lists (lower name) :=
  .inr ((CaseInsensitiveSet.mem_iff _ _).mp h)

/-- The value that `set_synchronous_standby_names` makes of a set of nodes if it
is called without `num`. A server without several synchronous nodes gets the
first name only. -/
def ofNodes (majorVersion : ℕ) (sync : CaseInsensitiveSet ν) : Setting ν :=
  match sync.sorted with
  | [] => off
  | name :: names =>
      if supportsMultipleSync majorVersion ∧ names ≠ [] then
        ⟨.priority, false, sync.len, name :: names⟩
      else ⟨.priority, false, 1, [name]⟩

/-- The first of the names is always written. -/
theorem ofNodes_lists_head {majorVersion : ℕ} {sync : CaseInsensitiveSet ν} {name : ν}
    (h : sync.sorted.head? = some name) : (ofNodes majorVersion sync).Lists (lower name) := by
  apply lists_of_mem
  rw [CaseInsensitiveSet.mem_iff, ofNodes]
  cases hsorted : sync.sorted with
  | nil => simp [hsorted] at h
  | cons first names =>
      obtain rfl : first = name := by simpa [hsorted] using h
      dsimp only
      split <;> simp [parse]

/-- A server that supports several synchronous nodes gets all of them. -/
theorem ofNodes_lists_of_supports {majorVersion : ℕ} (h : supportsMultipleSync majorVersion)
    {sync : CaseInsensitiveSet ν} {key : ν} (hkey : key ∈ sync.keys) :
    (ofNodes majorVersion sync).Lists key := by
  have hmem : key ∈ sync.sorted.map lower :=
    (sync.sorted_perm.map lower).mem_iff.mpr (List.mem_toFinset.mp hkey)
  right
  rw [ofNodes]
  cases hsorted : sync.sorted with
  | nil => simp [hsorted] at hmem
  | cons name names =>
      rw [hsorted] at hmem
      dsimp only
      split
      · simpa [parse] using hmem
      · next hsingle =>
          obtain rfl : names = [] := by simpa [h] using hsingle
          simpa [parse] using hmem

/-- Of at most one node the first is all. -/
theorem ofNodes_lists_of_card_le {majorVersion : ℕ} {sync : CaseInsensitiveSet ν}
    (h : sync.keys.card ≤ 1) {key : ν} (hkey : key ∈ sync.keys) :
    (ofNodes majorVersion sync).Lists key := by
  obtain ⟨name, hname, rfl⟩ := List.mem_map.mp (List.mem_toFinset.mp hkey)
  have hlength : sync.values.length ≤ 1 := by
    have hlen := sync.len_eq
    rw [CaseInsensitiveSet.len] at hlen
    omega
  have hvalues : sync.values = [name] := by
    obtain ⟨other, hother⟩ := List.length_eq_one_iff.mp
      (le_antisymm hlength (List.length_pos_of_mem hname))
    rw [hother, List.mem_singleton] at hname
    rw [hother, hname]
  apply ofNodes_lists_head
  rw [CaseInsensitiveSet.sorted, hvalues]
  rfl

end Setting

/-- The attributes of `SyncHandler`. -/
structure SyncHandler (ν : Type) [NodeName ν] where
  standbyNames : Setting ν
  primaryFlushLsn : ℕ
  /-- Names of the replicas that have reached `_primary_flush_lsn`, and the pids. -/
  readyReplicas : List (ν × ℕ)
  ready : ∀ entry ∈ readyReplicas, entry.1 ∈ standbyNames.parse.members

namespace SyncHandler

/-- `__init__`. -/
def init : SyncHandler ν where
  standbyNames := .off
  primaryFlushLsn := 0
  readyReplicas := []
  ready := by simp

/-- `_ssn_data`. -/
def ssnData (handler : SyncHandler ν) : Ssn ν := handler.standbyNames.parse

/-- `name in self._ready_replicas`. -/
def isReady (handler : SyncHandler ν) (name : ν) : Bool :=
  handler.readyReplicas.any fun entry => lower entry.1 = lower name

/-- `_handle_synchronous_standby_names_change`. -/
def handleSynchronousStandbyNamesChange (handler : SyncHandler ν) (standbyNames : Setting ν)
    (lastOperation : ℕ) : SyncHandler ν :=
  if standbyNames = handler.standbyNames then handler
  else
    { standbyNames := standbyNames
      primaryFlushLsn := lastOperation
      readyReplicas := handler.readyReplicas.filter fun entry =>
        entry.1 ∈ standbyNames.parse.members
      ready := by
        intro entry hentry
        exact of_decide_eq_true (List.mem_filter.mp hentry).2 }

theorem handleSynchronousStandbyNamesChange_standbyNames (handler : SyncHandler ν)
    (standbyNames : Setting ν) (lastOperation : ℕ) :
    (handler.handleSynchronousStandbyNamesChange standbyNames lastOperation).standbyNames =
      standbyNames := by
  rw [handleSynchronousStandbyNamesChange]
  split
  · next h => exact h.symm
  · rfl

/-- A ready replica is listed. -/
theorem lists_of_isReady {handler : SyncHandler ν} {name : ν} (h : handler.isReady name) :
    handler.standbyNames.Lists (lower name) := by
  obtain ⟨entry, hentry, hname⟩ := List.any_eq_true.mp h
  rw [← of_decide_eq_true hname]
  exact Setting.lists_of_mem (handler.ready entry hentry)

/-- What the loop of `_process_replica_readiness` asks of a listed replica. -/
def CaughtUp (handler : SyncHandler ν) (majorVersion : ℕ) (config : GlobalConfig)
    (cluster : SyncState ν) (replica : Replica ν) : Prop :=
  if config.isQuorumCommitMode then
    handler.primaryFlushLsn ≤ replica.lsn ∧
      (replica.syncState = .quorum ∨ ¬ supportsQuorumCommit majorVersion ∧
        (replica.syncState = .sync ∨ replica.syncState = .potential))
  else
    lower replica.applicationName ∈ cluster.voters.map lower ∨
      replica.syncState = .sync ∧ handler.primaryFlushLsn ≤ replica.lsn

instance (handler : SyncHandler ν) (majorVersion : ℕ) (config : GlobalConfig)
    (cluster : SyncState ν) (replica : Replica ν) :
    Decidable (handler.CaughtUp majorVersion config cluster replica) :=
  inferInstanceAs (Decidable (ite _ _ _))

/-- One iteration of `_process_replica_readiness`. -/
def processReplica (majorVersion : ℕ) (config : GlobalConfig) (cluster : SyncState ν)
    (handler : SyncHandler ν) (replica : Replica ν) : SyncHandler ν :=
  if h : ¬ handler.isReady replica.applicationName ∧
      replica.applicationName ∈ handler.ssnData.members ∧
      handler.CaughtUp majorVersion config cluster replica then
    { handler with
      readyReplicas := handler.readyReplicas ++ [(replica.applicationName, replica.pid)]
      ready := by
        intro entry hentry
        rcases List.mem_append.mp hentry with hentry | hentry
        · exact handler.ready entry hentry
        · rw [List.mem_singleton.mp hentry]
          exact h.2.1 }
  else handler

/-- `_process_replica_readiness`. -/
def processReplicaReadiness (handler : SyncHandler ν) (majorVersion : ℕ) (config : GlobalConfig)
    (cluster : SyncState ν) (replicaList : List (Replica ν)) : SyncHandler ν :=
  replicaList.foldl (processReplica majorVersion config cluster) handler

theorem processReplicaReadiness_standbyNames (handler : SyncHandler ν) (majorVersion : ℕ)
    (config : GlobalConfig) (cluster : SyncState ν) (replicaList : List (Replica ν)) :
    (handler.processReplicaReadiness majorVersion config cluster replicaList).standbyNames =
      handler.standbyNames := by
  rw [processReplicaReadiness]
  induction replicaList generalizing handler with
  | nil => rfl
  | cons replica rest ih =>
      rw [List.foldl_cons, ih, processReplica]
      split <;> rfl

/-- What the loop of `current_state` collects. -/
structure Selection (ν : Type) [NodeName ν] where
  active : CaseInsensitiveSet ν
  confirmed : CaseInsensitiveSet ν

/-- The loop of `current_state` in the quorum mode. -/
def selectQuorum (handler : SyncHandler ν) (syncNodeCount : ℤ) (close : Replica ν → Prop)
    [DecidablePred close] : List (Replica ν) → Selection ν → Selection ν
  | [], selection => selection
  | replica :: rest, selection =>
      if close replica ∧ (¬ replica.nofailover ∨ selection.active.len < syncNodeCount) then
        handler.selectQuorum syncNodeCount close rest
          ⟨selection.active.add replica.applicationName,
            if handler.isReady replica.applicationName then
              selection.confirmed.add replica.applicationName
            else selection.confirmed⟩
      else handler.selectQuorum syncNodeCount close rest selection

/-- The loop of `current_state` otherwise: it ends when enough nodes are found. -/
def selectSync (handler : SyncHandler ν) (syncNodeCount : ℤ) (close : Replica ν → Prop)
    [DecidablePred close] : List (Replica ν) → Selection ν → Selection ν
  | [], selection => selection
  | replica :: rest, selection =>
      if close replica then
        let selection : Selection ν :=
          ⟨selection.active.add replica.applicationName,
            if replica.syncState = .sync ∧ handler.isReady replica.applicationName then
              selection.confirmed.add replica.applicationName
            else selection.confirmed⟩
        if syncNodeCount ≤ selection.active.len then selection
        else handler.selectSync syncNodeCount close rest selection
      else handler.selectSync syncNodeCount close rest selection

/-- Confirmed nodes are active, and the setting lists them. -/
structure Selection.Sound (handler : SyncHandler ν) (selection : Selection ν) : Prop where
  subset : selection.confirmed.keys ⊆ selection.active.keys
  listed : ∀ key ∈ selection.confirmed.keys, handler.standbyNames.Lists key

/-- Adding a node keeps that if the node is confirmed only when it is ready. -/
theorem Selection.Sound.add {handler : SyncHandler ν} {selection : Selection ν}
    (h : selection.Sound handler) (name : ν) {c : Prop} [Decidable c]
    (hc : c → handler.isReady name) :
    Selection.Sound handler ⟨selection.active.add name,
      if c then selection.confirmed.add name else selection.confirmed⟩ := by
  have hsubset : selection.confirmed.keys ⊆ insert (lower name) selection.active.keys :=
    h.subset.trans (Finset.subset_insert _ _)
  by_cases hready : c
  · constructor
    · simp only [if_pos hready, CaseInsensitiveSet.keys_add]
      exact Finset.insert_subset_insert _ h.subset
    · simp only [if_pos hready, CaseInsensitiveSet.keys_add, Finset.mem_insert]
      rintro key (rfl | hkey)
      · exact lists_of_isReady (hc hready)
      · exact h.listed key hkey
  · constructor
    · simpa only [if_neg hready, CaseInsensitiveSet.keys_add] using hsubset
    · simpa only [if_neg hready] using h.listed

theorem selectQuorum_sound {handler : SyncHandler ν} {syncNodeCount : ℤ}
    {close : Replica ν → Prop} [DecidablePred close] (replicas : List (Replica ν))
    {selection : Selection ν} (h : selection.Sound handler) :
    (handler.selectQuorum syncNodeCount close replicas selection).Sound handler := by
  induction replicas generalizing selection with
  | nil => exact h
  | cons replica rest ih =>
      rw [selectQuorum]
      split
      · exact ih (h.add replica.applicationName id)
      · exact ih h

theorem selectSync_sound {handler : SyncHandler ν} {syncNodeCount : ℤ}
    {close : Replica ν → Prop} [DecidablePred close] (replicas : List (Replica ν))
    {selection : Selection ν} (h : selection.Sound handler) :
    (handler.selectSync syncNodeCount close replicas selection).Sound handler := by
  induction replicas generalizing selection with
  | nil => exact h
  | cons replica rest ih =>
      have hadd := h.add replica.applicationName
        (c := replica.syncState = .sync ∧ handler.isReady replica.applicationName) And.right
      simp only [selectSync]
      split
      · split
        · exact hadd
        · exact ih hadd
      · exact ih h

/-- With one node wanted the loop stops at the first one. -/
theorem selectSync_one {handler : SyncHandler ν} {close : Replica ν → Prop} [DecidablePred close]
    (replicas : List (Replica ν)) {selection : Selection ν} (h : selection.active.keys = ∅) :
    (handler.selectSync 1 close replicas selection).active.keys.card ≤ 1 := by
  induction replicas generalizing selection with
  | nil => simp [selectSync, h]
  | cons replica rest ih =>
      have hcard : (selection.active.add replica.applicationName).keys.card = 1 := by
        rw [CaseInsensitiveSet.keys_add, h]
        rfl
      simp only [selectSync]
      split
      · rw [if_pos (by rw [CaseInsensitiveSet.len_eq, hcard]; rfl)]
        exact hcard.le
      · exact ih h

/-- What `current_state` reads besides `synchronous_standby_names`. -/
structure Reading (ν : Type) where
  /-- `last_operation`. -/
  lastOperation : ℕ
  /-- `_ReplicaList`, in its order. -/
  replicaList : List (Replica ν)
  maximumLagOnSyncnode : ℤ

/-- The lag of a replica is tolerated. -/
def Reading.Close (reading : Reading ν) (replica : Replica ν) : Prop :=
  reading.maximumLagOnSyncnode ≤ 0 ∨
    (Metatroni.SyncHandler.maxLsn reading.replicaList reading.lastOperation : ℤ) - replica.lsn ≤
      reading.maximumLagOnSyncnode

instance (reading : Reading ν) : DecidablePred reading.Close :=
  fun _ => inferInstanceAs (Decidable (_ ∨ _))

/-- `current_state`. -/
def currentState (handler : SyncHandler ν) (majorVersion : ℕ) (config : GlobalConfig)
    (cluster : SyncState ν) (standbyNames : Setting ν) (reading : Reading ν) :
    SyncHandler ν × ReplicationState ν :=
  let handler := handler.handleSynchronousStandbyNamesChange standbyNames reading.lastOperation
  let handler := handler.processReplicaReadiness majorVersion config cluster reading.replicaList
  let syncNodeCount :=
    if supportsMultipleSync majorVersion then config.synchronousNodeCount else 1
  -- members without the `nofailover` tag come first
  let replicas := reading.replicaList.filter (¬ ·.nofailover) ++
    reading.replicaList.filter (·.nofailover)
  let selection :=
    if config.isQuorumCommitMode then
      handler.selectQuorum syncNodeCount reading.Close replicas ⟨∅, ∅⟩
    else handler.selectSync syncNodeCount reading.Close replicas ⟨∅, ∅⟩
  (handler,
    { numsync := handler.ssnData.num
      sync := if handler.ssnData.hasStar then ∅ else handler.ssnData.members
      syncConfirmed := selection.confirmed
      active := selection.active })

section CurrentState

variable (handler : SyncHandler ν) (majorVersion : ℕ) (config : GlobalConfig)
  (cluster : SyncState ν) (standbyNames : Setting ν) (reading : Reading ν)

/-- The nodes that `current_state` confirms are active and listed. -/
theorem currentState_sound :
    let state := (handler.currentState majorVersion config cluster standbyNames reading).2
    state.syncConfirmed.keys ⊆ state.active.keys ∧
      ∀ key ∈ state.syncConfirmed.keys, standbyNames.Lists key := by
  intro state
  let ready := (handler.handleSynchronousStandbyNamesChange standbyNames
    reading.lastOperation).processReplicaReadiness majorVersion config cluster reading.replicaList
  have hnames : ready.standbyNames = standbyNames := by
    rw [processReplicaReadiness_standbyNames, handleSynchronousStandbyNamesChange_standbyNames]
  have hempty : Selection.Sound ready (⟨∅, ∅⟩ : Selection ν) := ⟨by simp, by simp⟩
  have hsound : Selection.Sound ready ⟨state.active, state.syncConfirmed⟩ := by
    simp only [state, currentState]
    split
    · exact selectQuorum_sound _ hempty
    · exact selectSync_sound _ hempty
  rw [← hnames]
  exact ⟨hsound.subset, hsound.listed⟩

/-- Outside the quorum mode a server without several synchronous nodes gets one
node at most. -/
theorem currentState_active_card (hserver : ¬ supportsMultipleSync majorVersion)
    (hmode : ¬ config.isQuorumCommitMode) :
    (handler.currentState majorVersion config cluster standbyNames reading).2.active.keys.card ≤
      1 := by
  simp only [currentState, if_neg hserver, if_neg hmode]
  exact selectSync_one _ rfl

end CurrentState

end SyncHandler

end Multisync

end Metatroni
