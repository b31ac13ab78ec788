import Metatroni.Cluster
import Metatroni.Lib.Dict
import Metatroni.Lib.Interaction
import Mathlib.Algebra.Order.Ring.Rat

/-!
# What a cycle of the HA loop calls

The HA loop decides by what the DCS, the database, the watchdog, the executor of asynchronous
actions and the configuration tell it. Each of them may tell anything at any time, and any call may
raise an exception.

## Implementation notes

A part of `Ha` that does not call the leader lock, and that the cycle only asks for its result, is
one call: the leader race, the check of a failover, the synchronous replication and the member key.
-/

namespace Metatroni

namespace HaCycle

/-- What a node does not change while it runs. -/
structure Node where
  name : String
  /-- `db_type` is `mysql`. -/
  isMySQL : Bool
  requiresSysidMatch : Bool
  /-- The DCS is the built-in Raft store. -/
  isRaft : Bool
  /-- `str.isdigit` of one character. -/
  isdigit : Char → Bool

/-- The time of a scheduled switchover in seconds, which may lack a time zone. -/
structure ScheduledAt where
  timestamp : ℚ
  hasTimeZone : Bool
  deriving DecidableEq

/-- The `/failover` key. The code asks for the truth of the names, `none` is an empty name. -/
structure Failover where
  version : ℕ
  leader : Option String
  candidate : Option String
  scheduledAt : Option ScheduledAt
  deriving DecidableEq

/-- The holder of the leader key. -/
structure Leader where
  name : String
  timeline : Option ℤ
  deriving DecidableEq

/-- What the cycle reads of a `Cluster`. -/
structure ClusterView where
  initialize? : Option String
  /-- `config and config.data` -/
  hasConfig : Bool
  leader : Option Leader
  memberNames : List String
  failover : Option Failover
  isEmpty : Bool
  deriving DecidableEq

namespace ClusterView

/-- `Cluster.empty` -/
def empty : ClusterView := ⟨none, false, none, [], none, true⟩

/-- `is_unlocked` -/
def isUnlocked (cluster : ClusterView) : Bool := cluster.leader.all fun leader => leader.name = ""

/-- `has_member` -/
def hasMember (cluster : ClusterView) (name : String) : Bool := cluster.memberNames.contains name

/-- `cluster.failover`, if it is true: it names a leader or a candidate. -/
def activeFailover (cluster : ClusterView) : Option Failover :=
  cluster.failover.filter fun failover => failover.leader.isSome || failover.candidate.isSome

end ClusterView

/-- A node to follow: whether it is a remote member, and whether it has a `conn_url`. -/
structure Target where
  name : String
  isRemote : Bool
  hasConnUrl : Bool
  deriving DecidableEq

/-- The exceptions that the cycle tells apart. -/
inductive PyException
  | dcsError
  /-- `psycopg.Error` or `PostgresConnectionException` -/
  | postgresError
  | patroniFatal
  /-- `sys.exit`, which is no `Exception` -/
  | systemExit
  | other
  deriving DecidableEq

/-- The modes of `demote`. -/
inductive DemoteMode
  | offline
  | graceful
  | immediate
  | immediateNolock
  | demoteCluster
  deriving DecidableEq

/-- The functions that are run by the executor. -/
inductive Task
  | demote (mode : DemoteMode)
  | promote
  | start (timeout : ℤ)
  | follow (target : Option Target) (role : PostgresqlRole) (timeout : Option ℤ)
  | ensureCleanShutdown
  | executeRewind (leader : String)
  | reinit
  | clone (target : Option Target)
  | bootstrap
  | bootstrapStandbyLeader
  | postBootstrap
  | copyLogicalSlots (slots : List String)
  deriving DecidableEq

/-- How the loop of `_do_stop` over the control data ends. -/
inductive ShutDownWait
  /-- `Database cluster state` is `shut down`. -/
  | shutDown
  /-- The postmaster has ended, or the state is another one that begins with `shut down`. -/
  | ended
  | timedOut
  deriving DecidableEq

/-- The calls. -/
inductive Call
  -- the DCS
  | getCluster
  | acquireLeaderLock
  | updateLeader (lastLsn : Option ℤ) (slots : Option (Dict String ℤ))
      (failsafe : Option (Dict String String))
  | deleteLeader (lastLsn : Option ℤ)
  | takeLeader
  | resetCluster
  | initializeKey (createNew : Bool) (sysid : Option String)
  | cancelInitialization
  | setConfigValue
  | manualFailover (leader candidate : Option String) (scheduledAt : Option ScheduledAt)
      (version : Option ℕ)
  | ttl
  | loopWait
  -- parts of `Ha`
  | touchMember
  | isHealthiestNode
  | isFailoverPossible (clusterLsn : ℤ)
  | checkFailsafeTopology
  | failsafeConfig
  | failsafeUpdateCluster
  | failsafeIsActive
  | failsafeSetIsActive (value : ℚ)
  | getNodeToFollow
  | getRemoteMember
  /-- The member, and whether it is the leader. -/
  | getCloneMember
  | processSyncReplication
  | processSyncReplicationPrepromote
  | updateClusterHistory
  | evaluateScheduledRestart
  | notifyBeforeDemote
  | lastTimeline
  | resetLastTimeline
  -- the configuration
  | updateGlobalConfig
  | isPaused
  | isStandbyCluster
  | isSynchronousMode
  | isSynchronousModeStrict
  | isFailsafeMode
  | primaryStartTimeout
  | primaryStopTimeout
  | retryTimeout
  | nofailover
  | hasBootstrapSection
  -- the time
  | time
  | sleep (seconds : ℚ)
  -- the watchdog
  | watchdogIsRunning
  | watchdogActivate
  | watchdogKeepalive
  | watchdogDisable
  -- the executor
  | busy
  | scheduledAction
  | tryRunAsync (action : String) (task : Task)
  | asyncResponseResult
  | asyncResponseReset
  | asyncResponseCancel
  | criticalTaskCancel
  /-- The result of the critical task is a `PostmasterProcess`. -/
  | criticalTaskIsPostmaster
  | terminateStartingPostmaster
  | cancellableCancel (kill : Bool)
  -- the rewind
  | rewindResetState
  | rewindIsNeeded
  | rewindExecuted
  | rewindFailed
  | canRewind
  | canRewindOrReinitializeAllowed
  | rewindOrReinitializeNeededAndPossible (leader : Option String)
  | shouldRemoveDataDirectoryOnDivergedTimelines
  | triggerCheckDivergedLsn
  | ensureCheckpointAfterPromote
  | getArchiveCommand
  | archiveShutdownCheckpointWal (command : String)
  -- the database
  | resetClusterInfoState (known : Bool)
  | scheduleSanityChecksAfterPause
  | isRunning
  | isPrimary
  | isHealthy
  | isStarting
  | checkForStartup
  | bootstrapping
  | setBootstrapping (value : Bool)
  | role
  | setRole (role : PostgresqlRole)
  /-- The role is `mgr_primary`, which is no `PostgresqlRole`. -/
  | roleIsMgrPrimary
  | state
  | setState (state : PostgresqlState)
  | timeInState
  | sysid
  /-- The text of the error if the data directory is not accessible. -/
  | dataDirectoryEmpty
  | moveDataDirectory
  | latestCheckpointLocations
  | checkpoint (timeout : Option ℤ)
  | beforeStop
  /-- `None` if the postmaster has been told to stop, `True` if it was gone, `False` if it could
  not be told. -/
  | signalStop (mode : String)
  | waitForConnectionClose
  | waitForUserBackendsToClose (stopTimeout : Option ℤ)
  | waitForShutDown (stopTimeout : Option ℤ)
  /-- The postmaster has ended, by itself or terminated after the timeout. -/
  | waitForPostmaster (stopTimeout : Option ℤ)
  | callOnStop
  | follow (target : Option Target) (role : PostgresqlRole) (doReload : Bool)
  /-- Whether a change and a restart are required. -/
  | checkRecoveryConf (target : Option Target)
  | handleParameterChange
  | recoveryConfExists
  | needsRewind
  | needsCrashRecovery
  /-- `Database cluster state` of the control data -/
  | databaseClusterState
  | wasRestoredFromBackup
  | getHistory (timeline : ℤ)
  | lastOperation
  | permanentSlots
  | syncReplicationSlots
  /-- All members, or none. -/
  | setSynchronousStandbyNames (all : Bool)
  | canCreateReplicaWithoutReplicationConnection
  | cbCalled
  | callOnStart
  | callOnRoleChange
  | syncMetaData
  -- MySQL
  | stopMySQL
  | setReadOnly
  | demoteMySQL
  | runMgrCycle (hasLock : Bool)
  | isMgrConfigured
  /-- The role and the state, if they are known. -/
  | getMgrStatus
  | mgrPauseOnGtidForkEnabled
  | runSemiSyncSafetyCheck

/-- What a call returns. -/
@[reducible] def Result : Call → Type
  | .getCluster | .failsafeUpdateCluster => ClusterView
  | .acquireLeaderLock | .updateLeader .. | .takeLeader | .initializeKey .. => Bool
  | .setConfigValue => Bool
  | .ttl | .loopWait => ℤ
  | .touchMember | .isHealthiestNode | .isFailoverPossible _ | .checkFailsafeTopology => Bool
  | .failsafeConfig => Dict String String
  | .failsafeIsActive => Bool
  | .getNodeToFollow => Option Target
  | .getCloneMember => Option (Target × Bool)
  | .getRemoteMember => Target
  | .processSyncReplicationPrepromote => Bool
  | .evaluateScheduledRestart => Option String
  | .lastTimeline => Option ℤ
  | .isPaused | .isStandbyCluster | .isSynchronousMode | .isSynchronousModeStrict => Bool
  | .isFailsafeMode | .nofailover | .hasBootstrapSection => Bool
  | .primaryStartTimeout | .primaryStopTimeout | .retryTimeout => ℤ
  | .time => ℚ
  | .watchdogIsRunning | .watchdogActivate => Bool
  | .busy => Bool
  | .scheduledAction => Option String
  | .tryRunAsync .. => Option String
  | .asyncResponseResult => Option Bool
  | .asyncResponseCancel | .criticalTaskCancel | .criticalTaskIsPostmaster => Bool
  | .rewindIsNeeded | .rewindExecuted | .rewindFailed | .canRewind => Bool
  | .canRewindOrReinitializeAllowed | .rewindOrReinitializeNeededAndPossible _ => Bool
  | .shouldRemoveDataDirectoryOnDivergedTimelines => Bool
  | .getArchiveCommand => Option String
  | .isRunning | .isPrimary | .isHealthy | .isStarting | .checkForStartup | .bootstrapping => Bool
  | .role => PostgresqlRole
  | .roleIsMgrPrimary => Bool
  | .state => PostgresqlState
  | .timeInState => ℚ
  | .sysid => Option String
  | .dataDirectoryEmpty => Except String Bool
  | .latestCheckpointLocations => Option ℤ × Option ℤ
  | .signalStop _ => Option Bool
  | .waitForShutDown _ => ShutDownWait
  | .follow .. => Option Bool
  | .checkRecoveryConf _ => Bool × Bool
  | .recoveryConfExists | .needsRewind | .needsCrashRecovery => Bool
  | .databaseClusterState => Option String
  | .wasRestoredFromBackup | .getHistory _ => Bool
  | .lastOperation => ℤ
  | .permanentSlots => Option (Dict String ℤ)
  | .syncReplicationSlots => List String
  | .canCreateReplicaWithoutReplicationConnection | .cbCalled => Bool
  | .runMgrCycle _ => Option String
  | .isMgrConfigured | .mgrPauseOnGtidForkEnabled => Bool
  | .getMgrStatus => Option (String × String)
  | _ => Unit

/-- The attributes of `Ha` that the cycle reads or writes. -/
structure Attributes where
  cluster : ClusterView
  leaderExpiry : ℚ
  promoteTimestamp : ℚ
  wasPaused : Bool
  leaderTimeline : Option ℤ
  recovering : Bool
  crashRecoveryStarted : ℚ
  startTimeout : Option ℤ
  joinAborted : Bool
  releasedLeaderKeyTimestamp : ℚ

/-- `__init__` -/
def init : Attributes where
  cluster := .empty
  leaderExpiry := 0
  promoteTimestamp := 0
  wasPaused := false
  leaderTimeline := none
  recovering := false
  crashRecoveryStarted := 0
  startTimeout := none
  joinAborted := false
  releasedLeaderKeyTimestamp := 0

/-- A method of `Ha`. -/
abbrev Method (α : Type) := Interaction.Method Call Result PyException Attributes α

/-- A call of a method. -/
abbrev ask (call : Call) : Method (Result call) := Interaction.Method.ask call

end HaCycle

end Metatroni
