import Metatroni.Ha.Calls
import Metatroni.Lib.Rounding
import Mathlib.Data.Rat.Floor

/-!
# A cycle of the HA loop

`Ha.run_cycle` and what it calls. A text that is returned says what has been done.

## Implementation notes

A function that returns early is the first of two parts, and what follows is the second one.
-/

namespace Metatroni

namespace HaCycle

open Interaction.Method hiding ask

variable (node : Node) {α : Type}

/-! ## The leader lock -/

/-- `except Exception` -/
def exceptException (x : Method α) (h : PyException → Method α) : Method α :=
  handle x fun e => if e = .systemExit then raise e else h e

/-- `except DCSError: raise` and `except Exception`, which is reported as a bug -/
def exceptBug (x : Method Bool) : Method Bool :=
  handle x fun e => if e = .dcsError ∨ e = .systemExit then raise e else pure false

def isUnlocked : Method Bool := do
  return (← self).cluster.isUnlocked

def hasLock : Method Bool := do
  return (← self).cluster.leader.any fun leader => leader.name = node.name

def isLeader : Method Bool := do
  let now : ℚ ← ask .time
  return now < (← self).leaderExpiry

def setIsLeader (value : Bool) : Method Unit := do
  if value then
    let now : ℚ ← ask .time
    let ttl : ℤ ← ask .ttl
    update fun s => { s with leaderExpiry := now + ttl }
  else
    update fun s => { s with leaderExpiry := 0, promoteTimestamp := 0 }

/-- `load_cluster_from_dcs` -/
def loadClusterFromDcs : Method Unit := do
  let cluster ← ask .getCluster
  update fun s => { s with cluster := cluster }
  when (← both isUnlocked (ask .isFailsafeMode)) do
    let cluster ← ask .failsafeUpdateCluster
    update fun s => { s with cluster := cluster }
  when (!(← hasLock node)) (setIsLeader false)
  update fun s => { s with leaderTimeline := s.cluster.leader.bind Leader.timeline }

/-- `acquire_lock` -/
def acquireLock : Method Bool := do
  let ret ← exceptBug (ask .acquireLeaderLock)
  setIsLeader ret
  return ret

/-- `_failsafe_config` -/
def failsafeConfig : Method (Option (Dict String String)) := do
  if ← ask .isFailsafeMode then return some (← ask .failsafeConfig) else return none

/-- The last LSN and the slots, as far as they are known. -/
def lockStatus : Method (Option ℤ × Option (Dict String ℤ)) :=
  exceptException
    (do
      let lastLsn ← ask .lastOperation
      exceptException
        (do
          let slots ← ask .permanentSlots
          return (some lastLsn, slots))
        fun _ => pure (some lastLsn, none))
    fun _ => pure (none, none)

/-- `update_lock` -/
def updateLock (updateStatus : Bool) : Method Bool := do
  let status ← (if updateStatus then lockStatus else pure (none, none))
  let ret ← exceptBug do
    let failsafe ← failsafeConfig
    ask (.updateLeader status.1 status.2 failsafe)
  setIsLeader ret
  when ret (ask .watchdogKeepalive)
  return ret

/-- `_delete_leader` -/
def deleteLeader (lastLsn : Option ℤ) : Method Unit := do
  setIsLeader false
  ask (.deleteLeader lastLsn)
  ask .resetCluster

/-- `release_leader_key_voluntarily` -/
def releaseLeaderKeyVoluntarily (lastLsn : Option ℤ) : Method Unit := do
  deleteLeader lastLsn
  let _ ← ask .touchMember

/-! ## Stopping -/

/-- The callbacks of `stop`. The last one says whether it has released the leader key. -/
structure StopCallbacks where
  beforeShutdown : Option (Method Unit)
  onSafepoint : Option (Method Unit)
  onShutdown : Option (ℤ × ℤ → Method Bool)

@[reducible] def StopCallbacks.none : StopCallbacks := ⟨.none, .none, .none⟩

/-- The callback `on_shutdown` if the control data say that the database is shut down. -/
def callOnShutdown (callbacks : StopCallbacks) : Method Bool := do
  let locations ← ask .latestCheckpointLocations
  callbacks.onShutdown.elim (pure false) fun onShutdown =>
    locations.1.elim (pure false) fun checkpointLsn =>
      locations.2.elim (pure false) fun prevLsn => onShutdown (checkpointLsn, prevLsn)

/-- `_do_stop` after the postmaster has been told to stop. -/
def awaitStop (mode : String) (callbacks : StopCallbacks) (stopTimeout : Option ℤ) :
    Method Bool := do
  ask .waitForConnectionClose
  callbacks.onSafepoint.elim (pure ()) fun onSafepoint => do
    ask (.waitForUserBackendsToClose stopTimeout)
    onSafepoint
  let wait ← (if callbacks.onShutdown.isSome && (mode = "fast" || mode = "smart") then
    ask (.waitForShutDown stopTimeout) else pure .ended)
  let released ← (if wait = .shutDown then callOnShutdown callbacks else pure false)
  ask (.waitForPostmaster (if wait = .timedOut then some 0 else stopTimeout))
  return released

/-- The result of `_do_stop`, and whether the leader key has been released. -/
structure StopResult where
  success : Bool
  pgSignaled : Bool
  released : Bool

/-- `_do_stop` after `signal_stop`. -/
def concludeStop (mode : String) (callbacks : StopCallbacks) (stopTimeout : Option ℤ)
    (told : Option Bool) : Method StopResult :=
  told.elim
    (do
      let released ← awaitStop mode callbacks stopTimeout
      return ⟨true, true, released⟩)
    fun success => do
      when success (callbacks.onSafepoint.elim (pure ()) id)
      return ⟨success, true, false⟩

/-- `_do_stop` -/
def doStop (mode : String) (checkpoint : Bool) (callbacks : StopCallbacks)
    (stopTimeout : Option ℤ) : Method StopResult := do
  if ← negate (ask .isRunning) then do
    callbacks.onSafepoint.elim (pure ()) id
    return ⟨true, false, false⟩
  else do
    when (← both (pure checkpoint) (negate (ask .isStarting))) (ask (.checkpoint stopTimeout))
    ask (.setState .stopping)
    ask .beforeStop
    callbacks.beforeShutdown.elim (pure ()) id
    let told ← ask (.signalStop mode)
    concludeStop mode callbacks stopTimeout told

/-- `stop` of PostgreSQL: its result, and whether the leader key has been released. -/
def stop (mode : String) (checkpoint : Bool) (callbacks : StopCallbacks)
    (stopTimeout : Option ℤ) : Method (Bool × Bool) := do
  let result ← doStop mode checkpoint callbacks stopTimeout
  if result.success then do
    ask (.setState .stopped)
    when result.pgSignaled (ask .callOnStop)
    return (true, result.released)
  else do
    ask (.setState .stopFailed)
    return (false, result.released)

/-- The call of `stop` when the data directory is of no use. -/
def stopImmediate : Method Unit := do
  let retryTimeout ← ask .retryTimeout
  if node.isMySQL then ask .stopMySQL
  else do
    let _ ← stop "immediate" false .none (some retryTimeout)

/-! ## Demotion -/

/-- `primary_stop_timeout` -/
def primaryStopTimeout : Method (Option ℤ) := do
  let ret ← ask .primaryStopTimeout
  if ← both (pure (0 < ret)) (ask .isSynchronousMode) then return some ret else return none

/-- An entry of `mode_control`. -/
structure ModeControl where
  stop : String
  checkpoint : Bool
  release : Bool
  offline : Bool
  asyncReq : Bool

/-- `mode_control` -/
def DemoteMode.control : DemoteMode → ModeControl
  | offline => ⟨"fast", false, false, true, false⟩
  | graceful => ⟨"fast", true, true, false, false⟩
  | immediate => ⟨"immediate", false, true, false, true⟩
  | immediateNolock => ⟨"immediate", false, false, false, true⟩
  | demoteCluster => ⟨"fast", false, true, false, false⟩

/-- `on_shutdown`: whether the leader key has been released. -/
def onShutdown (mode : DemoteMode) (locations : ℤ × ℤ) : Method Bool := do
  ask (.sleep 1)
  if ← ask (.isFailoverPossible locations.1) then do
    ask (.setRole .demoted)
    releaseLeaderKeyVoluntarily
      (some (if mode = .demoteCluster then locations.1 else locations.2))
    return true
  else return false

/-- The node to follow and the leader after a demotion. -/
def followAfterDemotion (mode : DemoteMode) : Method (Option Target × Option String) :=
  if mode.control.offline then pure (none, none)
  else
    exceptException
      (do
        let cluster ← ask .getCluster
        let nodeToFollow ← ask .getNodeToFollow
        return (nodeToFollow, cluster.leader.map Leader.name))
      fun _ => pure (none, none)

/-- How the database is started again after a demotion. -/
def startAfterDemotion (mode : DemoteMode) (role : PostgresqlRole) : Method (Option Bool) := do
  let found ← followAfterDemotion mode
  when (← ask .isSynchronousMode) (ask (.setSynchronousStandbyNames false))
  if mode.control.asyncReq then do
    let _ ← ask (.tryRunAsync "starting after demotion" (.follow found.1 role none))
    return none
  else if ← ask (.rewindOrReinitializeNeededAndPossible found.2) then return some false
  else ask (.follow found.1 role false)

/-- The callbacks that `demote` gives to `stop`. -/
def demotionCallbacks (mode : DemoteMode) (withArchive isWatchdogRunning : Bool) :
    StopCallbacks where
  beforeShutdown := if mode = .graceful then some (ask .notifyBeforeDemote) else none
  onSafepoint := if isWatchdogRunning then some (ask .watchdogDisable) else none
  onShutdown := if mode.control.release && !withArchive then some (onShutdown mode) else none

/-- The call of `stop` in `demote`, which does not look at its result: whether the leader key has
been released. -/
def stopForDemotion (mode : DemoteMode) (withArchive : Bool) : Method Bool := do
  let isWatchdogRunning ← ask .watchdogIsRunning
  let stopTimeout ← (if withArchive then pure none else primaryStopTimeout)
  let stopped ← stop mode.control.stop mode.control.checkpoint
    (demotionCallbacks mode withArchive isWatchdogRunning) stopTimeout
  return stopped.2

/-- What becomes of the leader lock after `stop`. -/
def lockAfterDemotion (mode : DemoteMode) (withArchive released : Bool) : Method Unit := do
  let locations ← (if mode = .graceful then ask .latestCheckpointLocations else pure (none, none))
  if mode = .demoteCluster ∧ released = false then do
    let failsafe ← failsafeConfig
    let _ ← ask (.updateLeader locations.1 none failsafe)
  else do
    setIsLeader false
    when (mode.control.release && !withArchive) do
      when (!released) (releaseLeaderKeyVoluntarily locations.2)
      ask (.sleep 2)

/-- `demote` of PostgreSQL -/
def demotePostgreSQL (mode : DemoteMode) : Method (Option Bool) := do
  ask .triggerCheckDivergedLsn
  let archiveCommand ← ask .getArchiveCommand
  let withArchive := decide (mode = .demoteCluster) && archiveCommand.isSome
  let released ← stopForDemotion mode withArchive
  ask (.setRole .demoted)
  lockAfterDemotion mode withArchive released
  when (mode = .demoteCluster)
    (archiveCommand.elim (pure ()) fun command => ask (.archiveShutdownCheckpointWal command))
  startAfterDemotion mode
    (if mode = .demoteCluster ∧ released = false then .standbyLeader else .replica)

/-- The cluster after a demotion, from the DCS. -/
def reloadAfterDemotion : Method Unit :=
  exceptException
    (do
      let cluster ← ask .getCluster
      update fun s => { s with cluster := cluster })
    fun _ => loadClusterFromDcs node

/-- How a MySQL replica follows after a demotion. -/
def followMySQL : Method Unit := do
  reloadAfterDemotion node
  let nodeToFollow ← (if (← self).cluster.isEmpty then pure none else ask .getNodeToFollow)
  when (nodeToFollow.any Target.hasConnUrl) do
    let _ ← ask (.follow nodeToFollow .replica false)

/-- `_demote_mysql` -/
def demoteMySQL (mode : DemoteMode) : Method (Option Bool) := do
  exceptException (ask .setReadOnly) fun _ => pure ()
  exceptException (ask .demoteMySQL) fun _ => pure ()
  if mode = .demoteCluster then do
    exceptException
      (do
        let remote ← ask .getRemoteMember
        let _ ← ask (.follow (some remote) .standbyLeader false))
      fun _ => pure ()
    exceptException (do let _ ← ask .touchMember) fun _ => pure ()
    return some true
  else do
    setIsLeader false
    when (mode = .graceful || mode = .immediate) do
      exceptException (releaseLeaderKeyVoluntarily none) fun _ => pure ()
      ask (.sleep 2)
    when (mode ≠ .offline) (exceptException (followMySQL node) fun _ => pure ())
    exceptException (do let _ ← ask .touchMember) fun _ => pure ()
    return some true

def demote (mode : DemoteMode) : Method (Option Bool) :=
  if node.isMySQL then demoteMySQL node mode else demotePostgreSQL mode

/-! ## Following and recovering -/

/-- `_handle_crash_recovery` -/
def handleCrashRecovery : Method (Option String) := do
  if ← both (do return (← self).crashRecoveryStarted = 0) (either isUnlocked (ask .canRewind)) then do
    let now : ℚ ← ask .time
    update fun s => { s with crashRecoveryStarted := now }
    let msg := "doing crash recovery in a single user mode"
    let ret ← ask (.tryRunAsync msg .ensureCleanShutdown)
    return some (ret.getD msg)
  else return none

/-- The name of the node to rewind from. -/
def rewindLeader : Method (Option String) := do
  if ← ask .isStandbyCluster then do
    let remote ← ask .getRemoteMember
    return some remote.name
  else return (← self).cluster.leader.map Leader.name

/-- The rewind, or the crash recovery that goes before it. -/
def runRewind (leader : String) : Method String :=
  orElse
    (do
      if ← both (negate (ask .isRunning))
          (do return (← ask .databaseClusterState) = some "in archive recovery") then
        handleCrashRecovery
      else return none)
    (do
      let msg := "running pg_rewind from " ++ leader
      let ret ← ask (.tryRunAsync msg (.executeRewind leader))
      return ret.getD msg)

/-- `_handle_rewind_or_reinitialize` -/
def handleRewindOrReinitialize : Method (Option String) := do
  let leader ← rewindLeader
  if ← negate (ask (.rewindOrReinitializeNeededAndPossible leader)) then return none
  else
    leader.elim (pure none) fun leader => do
      if ← ask .canRewind then do
        let msg ← runRewind leader
        return some msg
      else if ← both (ask .shouldRemoveDataDirectoryOnDivergedTimelines)
          (negate (ask .isStandbyCluster)) then do
        let msg := "reinitializing due to diverged timelines"
        let ret ← ask (.tryRunAsync msg .reinit)
        return some (ret.getD msg)
      else return none

/-- Demotion of a primary that must not be one. -/
def demoteUnlocked : Method Unit := do
  if ← ask .isStandbyCluster then do
    let _ ← ask (.tryRunAsync "demoting to a standby cluster" (.demote .demoteCluster))
  else do
    let _ ← demote node .immediateNolock

/-- `follow` in maintenance mode -/
def followPaused (isPrimary : Bool) (nodeToFollow : Option Target) : Method (Option String) := do
  if ← either (negate (both (ask .rewindIsNeeded) (ask .canRewindOrReinitializeAllowed)))
      isUnlocked then
    if isPrimary then do
      ask (.setRole .primary)
      return some "continue to run as primary without lock"
    else do
      when ((← ask .role) ≠ .standbyLeader) (ask (.setRole .replica))
      return if nodeToFollow.isNone then some ("no action. I am (" ++ node.name ++ ")") else none
  else return none

/-- The first part of `follow`: no primary gets past it, unless in maintenance mode. -/
def followDemote (isPrimary : Bool) (nodeToFollow : Option Target) (demoteReason : String) :
    Method (Option String) := do
  if ← ask .isPaused then followPaused node isPrimary nodeToFollow
  else if isPrimary then do
    demoteUnlocked node
    return some demoteReason
  else return none

/-- The rewind, unless the database is starting. -/
def rewindUnlessStarting : Method (Option String) := do
  if ← ask .isStarting then return none else handleRewindOrReinitialize

/-- An integer, if it is true. -/
def truthy (n : Option ℤ) : Option ℤ := n.filter fun n => n ≠ 0

/-- Whether the timeline of this node is behind the one of the leader. -/
def isBehindLeader : Method Bool := do
  let last ← ask .lastTimeline
  let leader := (← self).leaderTimeline
  return (truthy last).any fun last => (truthy leader).any fun leader => last < leader

/-- The recovery configuration of a standby. -/
def followChange (nodeToFollow : Option Target) (role : PostgresqlRole) (followReason : String) :
    Method String := do
  let required ← ask (.checkRecoveryConf nodeToFollow)
  if required.1 then do
    if required.2 then do
      let _ ← ask (.tryRunAsync "changing primary_conninfo and restarting"
        (.follow nodeToFollow role none))
      ask .triggerCheckDivergedLsn
      return followReason
    else do
      let _ ← ask (.follow nodeToFollow role true)
      ask .triggerCheckDivergedLsn
      return followReason
  else do
    when (← both (pure (role = .standbyLeader)) (do return (← ask .role) ≠ role)) do
      ask (.setRole role)
      ask .callOnRoleChange
    if ← isBehindLeader then do
      ask .triggerCheckDivergedLsn
      orElse rewindUnlessStarting (pure followReason)
    else return followReason

/-- The second part of `follow`. -/
def followUpstream (nodeToFollow : Option Target) (followReason : String) : Method String := do
  when (← both (ask .isStandbyCluster)
      (do (truthy (← self).leaderTimeline).elim (pure false) fun t => ask (.getHistory (t + 1))))
    (ask .triggerCheckDivergedLsn)
  orElse rewindUnlessStarting do
    when (!(← ask .isPaused)) (ask .handleParameterChange)
    let isStandbyLeader ← both (pure (nodeToFollow.any Target.isRemote)) (hasLock node)
    if ← both (ask .isStandbyCluster)
        (pure (!isStandbyLeader && !(nodeToFollow.any Target.hasConnUrl))) then
      return "continue following the old known standby leader"
    else
      followChange nodeToFollow (if isStandbyLeader then .standbyLeader else .replica) followReason

def follow (demoteReason followReason : String) (refresh : Bool) : Method String := do
  when refresh (loadClusterFromDcs node)
  let isPrimary ← ask .isPrimary
  let nodeToFollow ← ask .getNodeToFollow
  orElse (followDemote node isPrimary nodeToFollow demoteReason)
    (followUpstream node nodeToFollow followReason)

/-- The timeout of a start as primary, `none` without the lock, or the text if the crashed primary
has been demoted. -/
def recoverLock : Method (Option ℤ ⊕ String) := do
  if ← both (hasLock node) (updateLock false) then do
    let timeout : ℤ ← ask .primaryStartTimeout
    if ← both (pure (timeout = 0)) (ask (.isFailoverPossible 0)) then do
      ask .watchdogDisable
      let _ ← demote node .immediate
      return .inr "stopped PostgreSQL to fail over after a crash"
    else return .inl (some timeout)
  else return .inl none

/-- The database is started as primary again after a crash. -/
def startAfterCrash (timeout : Option ℤ) (clusterState : Option String) : Method (Option String) :=
  (truthy timeout).elim (pure none) fun timeout => do
    if ← both (pure (clusterState ∈ [some "in production", some "in crash recovery",
          some "shutting down", some "shut down"]))
        (both (do return (← ask .state) = .crashed)
          (both (do return (← ask .role) = .primary) (negate (ask .recoveryConfExists)))) then do
      let msg := "starting primary after failure"
      let ret ← ask (.tryRunAsync msg (.start timeout))
      if ret.isNone then do
        update fun s => { s with recovering := true }
        return some msg
      else return none
    else return none

/-- The crash recovery of `recover`. -/
def recoverCrash (clusterState : Option String) : Method (Option String) := do
  if clusterState = some "in production" ∨ clusterState = some "shutting down" ∨
      clusterState = some "in crash recovery" then
    if ← ask .wasRestoredFromBackup then return none else handleCrashRecovery
  else return none

/-- The database is started as a standby. -/
def restartAfterFailure (nodeToFollow : Option Target) (role : PostgresqlRole)
    (timeout : Option ℤ) (msg : String) : Method String := do
  let ret ← ask (.tryRunAsync "restarting after failure" (.follow nodeToFollow role timeout))
  when ret.isNone (update fun s => { s with recovering := true })
  return msg

/-- The text, the role and the node to follow of a standby that is started. -/
def recoverTarget : Method (String × PostgresqlRole × Option Target) := do
  if ← hasLock node then do
    let nodeToFollow ← ask .getNodeToFollow
    return ("starting as a standby leader because i had the session lock", .standbyLeader,
      nodeToFollow)
  else if ← both (ask .isStandbyCluster) isUnlocked then do
    let remote ← ask .getRemoteMember
    return ("trying to follow a remote member because standby cluster is unhealthy", .replica,
      some remote)
  else do
    let nodeToFollow ← ask .getNodeToFollow
    return ("starting as a secondary", .replica, nodeToFollow)

/-- The rewind of `recover`. -/
def recoverRewind (needsRewind : Bool) : Method (Option String) :=
  if needsRewind then do
    when (!(← ask .rewindExecuted)) (ask .triggerCheckDivergedLsn)
    handleRewindOrReinitialize
  else pure none

/-- The end of `recover`. -/
def recoverFollow (needsRewind : Bool) (timeout : Option ℤ) : Method String := do
  loadClusterFromDcs node
  if ← both (hasLock node) (negate (ask .isStandbyCluster)) then do
    when needsRewind (ask .rewindResetState)
    restartAfterFailure none .replica timeout
      "starting as readonly because i had the session lock"
  else
    orElse (recoverRewind needsRewind) do
      let target ← recoverTarget node
      when (← ask .isSynchronousMode) (ask (.setSynchronousStandbyNames false))
      restartAfterFailure target.2.2 target.2.1 timeout target.1

/-- `recover` with a timeout, after the lock has been looked at. -/
def recoverDatabase (needsRewind needsCrash : Bool) (timeout : Option ℤ) : Method String := do
  let clusterState ← ask .databaseClusterState
  orElse (if needsCrash then startAfterCrash timeout clusterState else pure none) do
    ask .watchdogDisable
    orElse (if needsCrash then recoverCrash clusterState else pure none)
      (recoverFollow node needsRewind timeout)

def recover : Method String := do
  let needsRewind ← ask .needsRewind
  let needsCrash ← ask .needsCrashRecovery
  let lock ← recoverLock node
  lock.elim (recoverDatabase node needsRewind needsCrash) pure

/-! ## Bootstrap -/

/-- The bootstrap of a new cluster. -/
def bootstrapCluster : Method String := do
  if ← ask (.initializeKey true none) then do
    ask (.setBootstrapping true)
    ask .asyncResponseReset
    if ← ask .isStandbyCluster then do
      let ret ← ask (.tryRunAsync "bootstrap_standby_leader" .bootstrapStandbyLeader)
      return ret.getD "trying to bootstrap a new standby leader"
    else do
      let ret ← ask (.tryRunAsync "bootstrap" .bootstrap)
      return ret.getD "trying to bootstrap a new cluster"
  else return "failed to acquire initialize lock"

/-- The bootstrap of a replica without a leader. -/
def bootstrapWithoutLeader : Method String := do
  let canBootstrap ← ask .canCreateReplicaWithoutReplicationConnection
  if canBootstrap ∧ (← self).cluster.initialize? ≠ some "" then do
    let msg := "bootstrap (without leader)"
    let ret ← ask (.tryRunAsync msg (.clone none))
    return ret.getD ("trying to " ++ msg)
  else
    return if ← ask .isStandbyCluster then "waiting for standby_leader to bootstrap"
      else "waiting for leader to bootstrap"

def bootstrap : Method String := do
  if ← both (do return (← self).cluster.isUnlocked && (← self).cluster.initialize?.isNone)
      (both (negate (ask .nofailover)) (ask .hasBootstrapSection)) then bootstrapCluster
  else do
    let member ← ask .getCloneMember
    (if ← isUnlocked then none else member).elim bootstrapWithoutLeader fun member => do
      let role := if member.2 then "leader" else "replica"
      let msg := "from " ++ role ++ " '" ++ member.1.name ++ "'"
      let ret ← ask (.tryRunAsync ("bootstrap " ++ msg) (.clone (some member.1)))
      return ret.getD ("trying to bootstrap " ++ msg)

/-- `sysid_valid` -/
def Node.sysidValid (sysid : Option String) : Bool :=
  sysid.any fun sysid =>
    if '-' ∈ sysid.toList then 32 ≤ sysid.length
    else 10 ≤ sysid.length && sysid.toList.all node.isdigit

/-- `cancel_initialization`, which never returns. -/
def cancelInitialization : Method Unit := do
  ask .cancelInitialization
  stopImmediate node
  ask .moveDataDirectory
  raise .patroniFatal

/-- `post_bootstrap` before `post_bootstrap` of the database is done. -/
def runPostBootstrap : Method String := do
  if ← negate (ask .isPrimary) then return "waiting for end of recovery after bootstrap"
  else do
    ask (.setRole .primary)
    let ret ← ask (.tryRunAsync "post_bootstrap" .postBootstrap)
    return ret.getD "running post_bootstrap"

/-- The end of `post_bootstrap`. -/
def finishBootstrap : Method String := do
  ask (.setBootstrapping false)
  when (!(← ask .watchdogActivate)) (cancelInitialization node)
  ask .ensureCheckpointAfterPromote
  let sysid ← ask .sysid
  let _ ← ask (.initializeKey (← self).cluster.initialize?.isNone sysid)
  let _ ← ask .setConfigValue
  let _ ← ask .takeLeader
  setIsLeader true
  when (← ask .isSynchronousMode) do
    ask (.setSynchronousStandbyNames (← ask .isSynchronousModeStrict))
  ask .callOnStart
  loadClusterFromDcs node
  return "initialized a new cluster"

/-- `post_bootstrap` -/
def postBootstrap : Method String := do
  let result ← ask .asyncResponseResult
  when (← either (negate (ask .isRunning)) (pure (result = some false))) (cancelInitialization node)
  if result = none then runPostBootstrap else finishBootstrap node

/-! ## The leader -/

/-- `enforce_follow_remote_member` -/
def enforceFollowRemoteMember (message : String) : Method String :=
  follow node "cannot be a real primary in standby cluster" message true

/-- The checks of `enforce_primary_role` that are left out in maintenance mode. -/
def checkWatchdog : Method (Option String) := do
  if ← both (negate (ask .watchdogIsRunning)) (negate (ask .watchdogActivate)) then
    if ← ask .isPrimary then do
      let _ ← demote node .immediate
      return some "Demoting self because watchdog could not be activated"
    else do
      releaseLeaderKeyVoluntarily none
      return some "Not promoting self because watchdog could not be activated"
  else if (← ask .asyncResponseResult) = some false then do
    let now : ℚ ← ask .time
    update fun s => { s with releasedLeaderKeyTimestamp := now }
    releaseLeaderKeyVoluntarily none
    ask .asyncResponseReset
    return some "Promotion cancelled because the pre-promote script failed"
  else return none

/-- The role is `primary` or `promoted`. -/
def hasPrimaryRole : Method Bool :=
  either (do return (← ask .role) = .primary) (do return (← ask .role) = .promoted)

/-- The promotion of `enforce_primary_role`. -/
def promote (promoteMessage : String) : Method String := do
  if ← negate (ask .processSyncReplicationPrepromote) then
    return "Postponing promotion because synchronous replication state was updated by somebody else"
  else do
    when (!(← hasPrimaryRole)) do
      ask (.failsafeSetIsActive 0)
      ask .resetLastTimeline
      ask .asyncResponseReset
      let _ ← ask .loopWait
      let _ ← ask (.tryRunAsync "promote" .promote)
    return promoteMessage

/-- `enforce_primary_role` -/
def enforcePrimaryRole (message promoteMessage : String) : Method String :=
  orElse (do if ← ask .isPaused then return none else checkWatchdog node) do
    if ← ask .isPrimary then do
      when (!(← both (pure node.isMySQL) (ask .roleIsMgrPrimary))) (ask (.setRole .primary))
      ask .processSyncReplication
      ask .updateClusterHistory
      ask .syncMetaData
      return message
    else if ← hasPrimaryRole then do
      ask .processSyncReplication
      return message
    else promote promoteMessage

/-- `should_run_scheduled_action` of a scheduled action -/
def shouldRunScheduledAction (scheduledAt : ScheduledAt) (cleanup : Method Unit) : Method Bool := do
  if ← ask .isPaused then return false
  else do
    let now : ℚ ← ask .time
    if !scheduledAt.hasTimeZone then do
      cleanup
      return false
    else do
      let delta := scheduledAt.timestamp - now
      let loopWait : ℤ ← ask .loopWait
      if (loopWait : ℚ) < delta then return false
      else if delta < -((3 * loopWait).tdiv 2 : ℤ) then do
        cleanup
        return false
      else do
        ask (.sleep (max delta 0))
        return true

/-- The action and the key of `process_manual_failover_from_leader`. -/
def manualFailover (failover : Failover) : Method (Option String) := do
  let action := if failover.leader.isSome then "switchover" else "manual failover"
  let cleanup : Method Unit := ask (.manualFailover none none none (some failover.version))
  if ← both (ask .isPaused) (negate (ask .isPrimary)) then return none
  else if ← failover.scheduledAt.elim (pure false) fun scheduledAt =>
      negate (shouldRunScheduledAction scheduledAt cleanup) then return none
  else if failover.leader.all (· = node.name) ∧ failover.candidate ≠ some node.name then do
    if ← both (pure failover.candidate.isNone) (ask .isPaused) then do
      cleanup
      return none
    else if ← ask (.isFailoverPossible 0) then do
      let ret ← ask (.tryRunAsync (action ++ ": demote") (.demote .graceful))
      return some (ret.getD (action ++ ": demoting myself"))
    else do
      cleanup
      return none
  else do
    cleanup
    return none

/-- `process_manual_failover_from_leader` -/
def processManualFailoverFromLeader : Method (Option String) := do
  (← self).cluster.activeFailover.elim (pure none) (manualFailover node)

/-- The `/failover` key after the lock has been acquired. -/
def cleanUpFailover : Method Unit := do
  (← self).cluster.activeFailover.elim (pure ()) fun failover => do
    if ← both (ask .isPaused) (pure (failover.leader.isSome && failover.candidate.isSome)) then
      ask (.manualFailover none failover.candidate failover.scheduledAt (some failover.version))
    else ask (.manualFailover none none none none)

/-- The new leader. -/
def processAcquired : Method String := do
  cleanUpFailover
  loadClusterFromDcs node
  if ← ask .isStandbyCluster then
    enforceFollowRemoteMember node "promoted self to a standby leader by acquiring session lock"
  else
    enforcePrimaryRole node "acquired session lock as a leader"
      "promoted self to leader by acquiring session lock"

/-- A node that is not the healthiest one. -/
def processNotHealthiest : Method String := do
  when (← either (do return (← self).cluster.failover.any fun failover =>
        failover.candidate.isSome)
      (both (ask .nofailover) (negate (ask .isPaused)))) do
    ask .triggerCheckDivergedLsn
    ask (.sleep 2)
  if ← ask .nofailover then
    follow node "demoting self because I am not allowed to become primary"
      "following a different leader because I am not allowed to promote" true
  else
    follow node "demoting self because i am not the healthiest node"
      "following a different leader because i am not the healthiest node" true

/-- `process_unhealthy_cluster` -/
def processUnhealthyCluster : Method String := do
  if ← ask .isHealthiestNode then
    if ← acquireLock then processAcquired node
    else
      follow node "demoted self after trying and failing to obtain lock"
        "following new leader after trying and failing to obtain lock" true
  else processNotHealthiest node

/-- `_handle_mgr_gtid_fork` -/
def handleMgrGtidFork : Method String := do
  let pauseEnabled ← ask .mgrPauseOnGtidForkEnabled
  when (← both (pure pauseEnabled) (negate (ask .isPaused)))
    (exceptException (do let _ ← ask .setConfigValue) fun _ => pure ())
  exceptException (ask .setReadOnly) fun _ => pure ()
  return if pauseEnabled then "MGR GTID fork detected; cluster paused for manual intervention"
    else "MGR GTID fork detected; automatic bootstrap refused"

/-- The group replication of a leader. -/
def runMgrCycleOfLeader : Method (Option String) := do
  let action ← ask (.runMgrCycle true)
  if action = some "mgr_yield_lock" then do
    releaseLeaderKeyVoluntarily none
    return some "released leader lock; peer has more GTIDs for MGR bootstrap"
  else if action = some "mgr_gtid_fork" then do
    let msg ← handleMgrGtidFork
    return some msg
  else
    (action.filter fun action => action ≠ "").elim
      (do
        ask .runSemiSyncSafetyCheck
        return none)
      fun action => pure (some action)

/-- The group replication of a node without the lock. -/
def runMgrCycleOfReplica : Method (Option String) := do
  let action ← ask (.runMgrCycle false)
  if action = some "mgr_gtid_fork" then do
    let msg ← handleMgrGtidFork
    return some msg
  else
    (action.filter fun action => action ≠ "").elim
      (do
        if ← ask .isMgrConfigured then do
          let status ← ask .getMgrStatus
          return some (status.elim "waiting for MGR group recovery" fun status =>
            "no action. I am (" ++ node.name ++ "), MGR " ++ status.1 ++ "/" ++ status.2)
        else return none)
      fun action => pure (some action)

/-- The leader has updated its lock. -/
def processUpdated : Method String :=
  orElse (processManualFailoverFromLeader node) do
    ask .ensureCheckpointAfterPromote
    if ← ask .isStandbyCluster then do
      let role ← ask .role
      enforceFollowRemoteMember node (if role = .standbyLeader then
          "no action. I am (" ++ node.name ++ "), the standby leader with the lock"
        else "promoted self to a standby leader because i had the session lock")
    else
      orElse (if node.isMySQL then runMgrCycleOfLeader else pure none)
        (enforcePrimaryRole node
          ("no action. I am (" ++ node.name ++ "), the leader with the lock")
          "promoted self to leader because I had the session lock")

/-- The leader has failed to update its lock. -/
def processNotUpdated : Method String := do
  if ← ask .isPrimary then
    if ← ask .isPaused then
      return "continue to run as primary after failing to update leader lock in DCS"
    else do
      let _ ← demote node .immediateNolock
      return "demoted self because failed to update leader lock in DCS"
  else return "not promoting because failed to update leader lock in DCS"

/-- A leader in maintenance mode whose database is not a primary. -/
def checkPausedLeader : Method (Option String) := do
  if ← both (ask .isPaused) (negate (ask .isPrimary)) then
    if (← self).cluster.failover.any (fun failover => failover.candidate = some node.name) then
      return some "waiting to become primary after promote..."
    else if ← negate (ask .isStandbyCluster) then do
      deleteLeader none
      return some "removed leader lock because postgres is not running as primary"
    else return none
  else return none

/-- The owner of the lock. -/
def processLeader : Method String :=
  orElse (checkPausedLeader node) do
    if ← updateLock true then processUpdated node else processNotUpdated node

/-- A node that does not have the lock. -/
def processReplica : Method String :=
  orElse (do
    if ← both (pure node.isMySQL) (negate (ask .isStandbyCluster)) then runMgrCycleOfReplica node
    else return none) do
  let lockOwner := ((← self).cluster.leader.map Leader.name).getD "None"
  if ← ask .isStandbyCluster then
    follow node "cannot be a real primary in a standby cluster"
      ("no action. I am (" ++ node.name ++ "), a secondary, and following a standby leader ("
        ++ lockOwner ++ ")") false
  else
    follow node "demoting self because I do not have the lock and I was a leader"
      ("no action. I am (" ++ node.name ++ "), a secondary, and following a leader (" ++ lockOwner
        ++ ")") false

/-- `process_healthy_cluster` -/
def processHealthyCluster : Method String := do
  if ← hasLock node then processLeader node else processReplica node

/-! ## The cycle -/

/-- The scheduled action in a text. -/
def scheduledActionText : Method String := do
  return (← ask .scheduledAction).getD "None"

/-- The leader updates its lock while an action runs. -/
def handleLongActionOfLeader : Method String := do
  if (← ask .scheduledAction) = some "doing crash recovery in a single user mode" then do
    let timeout : ℤ ← ask .primaryStartTimeout
    let now : ℚ ← ask .time
    let timeLeft : ℚ := timeout - (now - (← self).crashRecoveryStarted)
    if ← both (pure (timeLeft ≤ 0)) (ask (.isFailoverPossible 0)) then do
      ask (.cancellableCancel true)
      let _ ← demote node .immediate
      return "terminated crash recovery because of startup timeout"
    else return "updated leader lock during " ++ (← scheduledActionText)
  else return "updated leader lock during " ++ (← scheduledActionText)

/-- A primary that is started in the background is stopped. -/
def interruptStart : Method Unit := do
  let action ← ask .scheduledAction
  when (action = some "restart" || action = some "starting primary after failure") do
    when (← both (negate (ask .criticalTaskCancel)) (ask .criticalTaskIsPostmaster))
      (ask .terminateStartingPostmaster)

/-- A node without the lock does not become or stay primary in the background. -/
def abortTransition : Method (Option String) :=
  orMaybe
    (do
      if ← both (do return (← ask .scheduledAction) = some "promote")
          (ask .asyncResponseCancel) then do
        ask (.cancellableCancel false)
        return some "lost leader before promote"
      else return none)
    (do
      if (← ask .role) = .primary then do
        interruptStart
        let _ ← demote node .immediateNolock
        return some ("lost leader lock during " ++ (← scheduledActionText))
      else return none)

/-- `handle_long_action_in_progress` -/
def handleLongActionInProgress : Method String := do
  if ← both (hasLock node) (updateLock false) then handleLongActionOfLeader node
  else
    orElse
      (do
        if ← both (negate (ask .bootstrapping)) (negate (ask .isPaused)) then abortTransition node
        else return none)
      (do return (← scheduledActionText) ++ " in progress")

/-- A leader that is starting up. -/
def handleStartingLeader : Method String := do
  if ← negate (updateLock false) then do
    let _ ← demote node .immediateNolock
    return "stopped PostgreSQL while starting up because leader key was lost"
  else do
    let timeout ← (truthy (← self).startTimeout).elim (ask .primaryStartTimeout) pure
    let timeInState : ℚ ← ask .timeInState
    let timeLeft : ℚ := timeout - timeInState
    if timeLeft ≤ 0 then
      if ← ask (.isFailoverPossible 0) then do
        let _ ← demote node .immediate
        return "stopped PostgreSQL because of startup timeout"
      else
        return "primary start has timed out, but continuing to wait because failover is not possible"
    else
      orElse (processManualFailoverFromLeader node)
        (pure ("PostgreSQL is still starting up, " ++ toString (Rounding.roundEven timeLeft) ++
          " seconds until timeout"))

/-- `handle_starting_instance` -/
def handleStartingInstance : Method (Option String) := do
  if ← either (negate (ask .checkForStartup)) (ask .isPaused) then do
    update fun s => { s with startTimeout := none }
    when (← ask .isPaused) do
      let isRunning ← ask .isRunning
      ask (.setState (if isRunning then .running else .stopped))
    return none
  else if ← hasLock node then do
    let msg ← handleStartingLeader node
    return some msg
  else return none

/-- `post_recover` -/
def postRecover : Method (Option String) := do
  if ← negate (ask .isRunning) then do
    ask .watchdogDisable
    if ← hasLock node then do
      when (← either (do return (← ask .role) = .primary)
          (do return (← ask .role) = .standbyLeader)) do
        ask (.setRole .demoted)
        ask .callOnRoleChange
      deleteLeader none
      return some "removed leader key after trying and failing to start postgres"
    else return some "failed to start postgres"
  else return none

/-- What has become of a recovery. -/
def handleRecovering : Method (Option String) := do
  if (← self).recovering then do
    update fun s => { s with recovering := false }
    orMaybe (do if ← ask .rewindIsNeeded then return none else postRecover node) do
      update fun s => { s with crashRecoveryStarted := 0 }
      when (← both (ask .rewindExecuted) (negate (ask .rewindFailed))) (ask .rewindResetState)
      return if (← isUnlocked) && node.isRaft then some "started as a secondary" else none
  else return none

/-- The data directory is empty, or it is not accessible because of an error. -/
def handleNoDataDirectory (error : Option String) : Method String := do
  ask (.setRole .uninitialized)
  stopImmediate node
  ask .watchdogDisable
  if ← hasLock node then do
    releaseLeaderKeyVoluntarily none
    return "released leader key voluntarily as data dir " ++
      (if error.isNone then "empty" else "not accessible") ++ " and currently leader"
  else
    error.elim
      (do if ← ask .isPaused then return "running with empty data directory" else bootstrap)
      fun error => pure ("data directory is not accessible: " ++ error)

/-- The data directory belongs to another cluster. -/
def handleSysidMismatch : Method (Option String) := do
  if ← ask .isPaused then
    if ← hasLock node then do
      releaseLeaderKeyVoluntarily none
      return some "released leader key voluntarily due to the system ID mismatch"
    else return none
  else raise .systemExit

/-- A cluster with a data directory, but without an `initialize` key. -/
def joinUninitialized (dataSysid : Option String) : Method Unit := do
  if ← both (ask .isRunning) (negate (ask .isPrimary)) then do
    update fun s => { s with joinAborted := true }
    raise .systemExit
  else
    when (node.sysidValid dataSysid) do
      let _ ← ask (.initializeKey (← self).cluster.initialize?.isNone dataSysid)

/-- Whether the node is allowed to join. -/
def checkSysid : Method (Option String) := do
  let dataSysid ← ask .sysid
  if node.sysidValid dataSysid = false ∧ node.requiresSysidMatch then
    return some
      "data dir for the cluster is not empty, but system ID is invalid; consider doing reinitialize"
  else do
    let initialize? := (← self).cluster.initialize?
    if node.sysidValid initialize? ∧ node.sysidValid dataSysid then
      if node.requiresSysidMatch ∧ initialize? ≠ dataSysid then handleSysidMismatch node
      else return none
    else if ← both isUnlocked (both (negate (ask .isPaused)) (negate (ask .cbCalled))) then do
      joinUninitialized node dataSysid
      return none
    else return none

/-- The database is not running in maintenance mode. -/
def handleStoppedPaused : Method (Option String) := do
  ask (.setState .stopped)
  if ← hasLock node then do
    deleteLeader none
    return some "removed leader lock because postgres is not running"
  else if ← either (ask .rewindFailed) (both (negate (ask .rewindExecuted))
      (negate (both (ask .rewindIsNeeded) (ask .canRewindOrReinitializeAllowed)))) then
    return some "postgres is not running"
  else return none

/-- The database is not running. -/
def handleStopped : Method String :=
  orElse (do if ← ask .isPaused then handleStoppedPaused node else return none) do
    let state ← ask .state
    when (state = .running || state = .starting) (ask (.setState .crashed))
    recover node

/-- `_sync_replication_slots` -/
def syncReplicationSlots (dcsFailed : Bool) : Method (List String) := do
  if ← either (do return (← self).cluster.isEmpty)
      (both (pure dcsFailed) (negate (ask .isFailsafeMode))) then return []
  else do
    let cluster ← (do
      if ← ask .isFailsafeMode then ask .failsafeUpdateCluster else return (← self).cluster)
    let slots ← (if cluster.isEmpty then pure [] else ask .syncReplicationSlots)
    if ← ask .failsafeIsActive then return [] else return slots

/-- The replication slots and the callbacks at the end of a cycle. -/
def finishCycle (ret : String) : Method String := do
  let isPromoting := decide ((← ask .scheduledAction) = some "promote")
  if ← both (either (negate (ask .busy)) (pure isPromoting)) (negate (ask .isStarting)) then do
    let createSlots ← syncReplicationSlots false
    when (!(← ask .cbCalled)) do
      when (← both (pure !isPromoting) (negate (ask .isPrimary))) (ask .triggerCheckDivergedLsn)
      ask .callOnStart
    if isPromoting = false ∧ createSlots ≠ [] ∧ (← self).cluster.leader.isSome then do
      let err ← ask (.tryRunAsync "copy_logical_slots" (.copyLogicalSlots createSlots))
      return if err.isNone then
        "Copying logical slots ['" ++ "', '".intercalate createSlots ++ "'] from the primary"
      else ret
    else return ret
  else return ret

/-- The database is running. -/
def processCluster : Method String := do
  let ret ← (do
    if ← isUnlocked then processUnhealthyCluster node
    else do
      let msg ← processHealthyCluster node
      return (← ask .evaluateScheduledRestart).getD msg)
  finishCycle ret

/-- There is a data directory. -/
def processDatabase : Method String :=
  orElse (checkSysid node) do
    if ← negate (ask .isHealthy) then handleStopped node else processCluster node

/-- No action is running. -/
def processIdle : Method String := do
  if ← ask .bootstrapping then postBootstrap node
  else
    orElse (handleRecovering node) do
      match ← ask .dataDirectoryEmpty with
      | .error error => handleNoDataDirectory node (some error)
      | .ok true => handleNoDataDirectory node none
      | .ok false => processDatabase node

/-- The cluster, the configuration and the state of the database. -/
def loadState : Method Unit :=
  handle
    (do
      loadClusterFromDcs node
      ask .updateGlobalConfig
      ask (.resetClusterInfoState true))
    fun exc1 =>
      if exc1 = .systemExit then raise exc1
      else do
        ask (.resetClusterInfoState false)
        when (← ask .isFailsafeMode)
          (exceptException (do let _ ← ask .lastOperation) fun _ => pure ())
        raise exc1

/-- Maintenance mode begins or ends. -/
def handlePause : Method Unit := do
  if ← ask .isPaused then do
    ask .watchdogDisable
    update fun s => { s with wasPaused := true }
  else do
    when (← self).wasPaused do
      ask .scheduleSanityChecksAfterPause
      ask .rewindResetState
    update fun s => { s with wasPaused := false }

/-- What is missing in the DCS. -/
def publish : Method Unit := do
  when (!(← self).cluster.hasMember node.name) do
    let _ ← ask .touchMember
  when (← both (hasLock node) (do return !node.sysidValid (← self).cluster.initialize?)) do
    let sysid ← ask .sysid
    let _ ← ask (.initializeKey (← self).cluster.initialize?.isNone sysid)
  when (← both (hasLock node) (do return !(← self).cluster.hasConfig)) do
    let _ ← ask .setConfigValue
    let cluster ← ask .getCluster
    update fun s => { s with cluster := cluster }

/-- The `try` of `_run_cycle` -/
def tryCycle : Method String := do
  loadState node
  handlePause
  publish node
  if ← ask .busy then handleLongActionInProgress node
  else orElse (handleStartingInstance node) (processIdle node)

/-- A primary without a DCS. -/
def handleDcsErrorOfPrimary : Method String := do
  if ← both (ask .isFailsafeMode) (ask .checkFailsafeTopology) then do
    setIsLeader true
    let now : ℚ ← ask .time
    ask (.failsafeSetIsActive now)
    ask .watchdogKeepalive
    let _ ← syncReplicationSlots true
    return "continue to run as a leader because failsafe mode is enabled and " ++
      "all members are accessible"
  else do
    ask (.failsafeSetIsActive 0)
    let _ ← demote node .offline
    return "demoted self because DCS is not accessible and I was a leader"

/-- `_handle_dcs_error` -/
def handleDcsError : Method String := do
  if ← both (negate (ask .isPaused)) (ask .isRunning) then
    if ← ask .isPrimary then handleDcsErrorOfPrimary node
    else do
      let _ ← syncReplicationSlots true
      return "DCS is not accessible"
  else return "DCS is not accessible"

/-- The `finally` of `_run_cycle`, if the DCS has not failed. -/
def finallyCycle : Method Unit := do
  when (← isLeader) (ask (.failsafeSetIsActive 0))
  let _ ← ask .touchMember

/-- The handlers of `_run_cycle`. -/
def concludeCycle (result : Except PyException String) : Method String :=
  match result with
  | .error .dcsError => handleDcsError node
  | .error .postgresError => do
      finallyCycle
      return "Error communicating with PostgreSQL. Will try again later"
  | .error e => do
      finallyCycle
      raise e
  | .ok info => do
      finallyCycle
      return info

/-- `_run_cycle` -/
def runCycleBody : Method String := do
  let result ← attempt (tryCycle node)
  concludeCycle node result

/-- `run_cycle` -/
def runCycle : Method String :=
  handle
    (do
      let info ← runCycleBody node
      return (if ← ask .isPaused then "PAUSE: " else "") ++ info)
    fun e =>
      if e = .patroniFatal ∨ e = .systemExit then raise e
      else pure "Unexpected exception raised, please report it as a BUG"

end HaCycle

end Metatroni
