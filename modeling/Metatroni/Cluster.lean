import Metatroni.Collections

/-!
# The cluster as a node sees it

The `/sync` key as `dcs.SyncState` presents it, members with the tags that
decide over their promotion, and the part of the global configuration that the
synchronous modes depend on.

A leader name of the `/sync` key is `none` where the key has no leader or an
empty one, since the code only asks for its truth value. The comma-separated
`sync_standby` string is kept as the list that `_str_to_list` makes of it.
-/

namespace Metatroni

variable {ν : Type} [NodeName ν]

/-- `SyncState`. -/
structure SyncState (ν : Type) where
  leader : Option ν
  syncStandby : List ν
  quorum : ℤ
  deriving DecidableEq

namespace SyncState

/-- `is_empty`: the `/sync` key doesn't have a leader. -/
def isEmpty (sync : SyncState ν) : Bool := sync.leader.isNone

/-- `voters`. -/
def voters (sync : SyncState ν) : List ν := if sync.isEmpty then [] else sync.syncStandby

/-- `members`: the leader, then the voters. -/
def members (sync : SyncState ν) : List ν :=
  match sync.leader with
  | none => []
  | some leader => leader :: sync.voters

/-- `leader_matches`. -/
def leaderMatches (sync : SyncState ν) (name : ν) : Bool :=
  match sync.leader with
  | none => false
  | some leader => lower name = lower leader

/-- `matches`, with the leader if `checkLeader` is set. -/
def matchesName (sync : SyncState ν) (name : ν) (checkLeader : Bool) : Bool :=
  !sync.isEmpty &&
    ((sync.syncStandby.any fun standby => lower standby = lower name) ||
      checkLeader && sync.leaderMatches name)

end SyncState

/-- The values that `synchronous_mode` is recognised with. -/
inductive SynchronousMode
  | off
  | on
  | quorum
  deriving DecidableEq, Repr

/-- What the synchronous modes read from `GlobalConfig`. -/
structure GlobalConfig where
  synchronousMode : SynchronousMode
  isSynchronousModeStrict : Bool
  isStandbyCluster : Bool
  /-- The configured `synchronous_node_count`, `1` if it is not set or invalid. -/
  configuredNodeCount : ℤ

namespace GlobalConfig

/-- `is_quorum_commit_mode`. -/
def isQuorumCommitMode (config : GlobalConfig) : Bool := config.synchronousMode = .quorum

/-- `is_synchronous_mode`. -/
def isSynchronousMode (config : GlobalConfig) : Bool :=
  (config.synchronousMode = .on || config.isQuorumCommitMode) && !config.isStandbyCluster

/-- `min_synchronous_nodes`. -/
def minSynchronousNodes (config : GlobalConfig) : ℤ :=
  if config.isSynchronousModeStrict then 1 else 0

/-- `synchronous_node_count`. -/
def synchronousNodeCount (config : GlobalConfig) : ℤ :=
  max config.configuredNodeCount config.minSynchronousNodes

end GlobalConfig

/-- `PostgresqlRole`. -/
inductive PostgresqlRole
  | primary
  | master
  | standbyLeader
  | replica
  | demoted
  | uninitialized
  | promoted
  deriving DecidableEq, Repr

/-- `PostgresqlState`. -/
inductive PostgresqlState
  | initdb
  | initdbFailed
  | customBootstrap
  | customBootstrapFailed
  | creatingReplica
  | running
  | starting
  | bootstrapStarting
  | startFailed
  | restarting
  | restartFailed
  | stopping
  | stopped
  | stopFailed
  | crashed
  deriving DecidableEq, Repr

/-- The tags of a member that concern failover: the value of `nofailover` if
it is defined and the integer that `failover_priority` parses to. -/
structure Tags where
  nofailoverTag : Option Bool
  failoverPriorityTag : Option ℤ
  deriving DecidableEq, Repr

namespace Tags

/-- `nofailover`: the boolean tag takes precedence over the priority. -/
def nofailover (tags : Tags) : Bool :=
  match tags.nofailoverTag, tags.failoverPriorityTag with
  | some value, _ => value
  | none, some priority => priority ≤ 0
  | none, none => false

/-- `failover_priority`. -/
def failoverPriority (tags : Tags) : ℤ :=
  if tags.nofailoverTag = some true then 0 else tags.failoverPriorityTag.getD 1

end Tags

/-- `Member`: what the leader race reads of a member in the DCS. -/
structure Member (ν : Type) where
  name : ν
  hasApiUrl : Bool
  tags : Tags
  gtidExecuted : String
  deriving DecidableEq

end Metatroni
