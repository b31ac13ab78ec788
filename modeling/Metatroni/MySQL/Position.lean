import Metatroni.Ha.LeaderRace
import Mathlib.Data.Prod.Lex

/-!
# Binlog positions in the leader race

The MySQL backend feeds the leader race with binlog offsets. A replica reports
`Read_Master_Log_Pos` and `Exec_Master_Log_Pos` in the place of received and
replayed WAL locations; the binlog file that the offset belongs to is not part
of the reported position. Offsets start again in every file, so the order of
the reported integers is not the order of what the nodes have applied.

Binlog files are numbered; a coordinate is ordered by file, then by offset.
-/

namespace Metatroni.MySQL

/-- The columns of `SHOW SLAVE STATUS` that the position is taken from. -/
structure SlaveStatus where
  /-- The number of the file in `Relay_Master_Log_File`. -/
  relayMasterLogFile : ℕ
  execMasterLogPos : ℕ
  readMasterLogPos : ℕ
  deriving DecidableEq, Repr

/-- The columns of `SHOW MASTER STATUS`; there is no row without a binlog. -/
structure MasterStatus where
  file : ℕ
  position : ℕ
  deriving DecidableEq, Repr

/-- A running instance as its status queries present it. -/
structure Instance where
  slaveStatus : Option SlaveStatus
  masterStatus : Option MasterStatus
  executedGtid : String
  deriving DecidableEq, Repr

namespace Instance

/-- `is_primary`: there is no row in `SHOW SLAVE STATUS`. -/
def isPrimary (server : Instance) : Bool := server.slaveStatus.isNone

/-- `Position` of `SHOW MASTER STATUS`, `0` without a row. -/
def binlogPos (server : Instance) : ℕ := (server.masterStatus.map (·.position)).getD 0

/-- `last_operation`. -/
def lastOperation (server : Instance) : ℤ :=
  match server.slaveStatus with
  | none => server.binlogPos
  | some row => row.execMasterLogPos

/-- What the instance has applied: file, then offset. -/
def applied (server : Instance) : ℕ ×ₗ ℕ :=
  match server.slaveStatus with
  | none => toLex ((server.masterStatus.map (·.file)).getD 0, server.binlogPos)
  | some row => toLex (row.relayMasterLogFile, row.execMasterLogPos)

/-- The `binlog` object of `_get_mysql_status`. -/
def binlogData (server : Instance) : WalSection where
  location := .number server.binlogPos
  binlogPosition := .missing
  receivedLocation := .missing
  replayedLocation := .missing
  receiveBinlogPosition :=
    match server.slaveStatus with
    | none => .missing
    | some row => .number row.readMasterLogPos
  replayBinlogPosition :=
    match server.slaveStatus with
    | none => .missing
    | some row => .number row.execMasterLogPos
  gtidSet := server.executedGtid
  gtidExecuted := ""

/-- The offset that the race reads out of the response of a replica. -/
def reportedOffset (server : Instance) : ℤ :=
  match server.slaveStatus with
  | none => 0
  | some row => max row.readMasterLogPos row.execMasterLogPos

/-- The response looks like one of a primary: it has a binlog position or the
role of a primary. -/
def looksLikePrimary (server : Instance) (role : PostgresqlRole) : Bool :=
  server.binlogPos ≠ 0 || role = .master || role = .primary

end Instance

/-- A member's MySQL server and what its Patroni adds to the response. -/
structure Peer where
  server : Instance
  /-- `mysql_handler.role`. -/
  handlerRole : PostgresqlRole
  tags : Tags
  watchdogFailed : Bool

namespace Peer

/-- `role` of the response: a replica of a standby cluster shows the role of
its handler. -/
def role (isStandbyCluster : Bool) (peer : Peer) : PostgresqlRole :=
  if peer.server.isPrimary then .primary
  else if isStandbyCluster then peer.handlerRole
  else .replica

/-- `_get_mysql_status` within the response to `GET /patroni`. -/
def getMysqlStatus (isStandbyCluster : Bool) (peer : Peer) : ApiResponse where
  wal := none
  xlog := none
  binlog := some peer.server.binlogData
  role := some (peer.role isStandbyCluster)
  tags := peer.tags
  watchdogFailed := peer.watchdogFailed
  gtidExecuted := ""

/-- The tags and the watchdog let the member become a leader. -/
def promotable (peer : Peer) : Bool := !peer.tags.nofailover && !peer.watchdogFailed

end Peer

/-! ## What the race makes of a response -/

variable {ν : Type}

/-- The requests of a race: a member that cannot be reached, or whose status
queries fail so that the response has no positions, has no peer. -/
def request (isStandbyCluster : Bool) (peers : Member ν → Option Peer) (m : Member ν) :
    Option ApiResponse :=
  (peers m).map (·.getMysqlStatus isStandbyCluster)

variable {isStandbyCluster : Bool} {peers : Member ν → Option Peer} {m : Member ν} {peer : Peer}

theorem inRecovery_getMysqlStatus (peer : Peer) :
    (peer.getMysqlStatus isStandbyCluster).inRecovery peer.server.binlogData =
      !peer.server.looksLikePrimary (peer.role isStandbyCluster) := by
  simp [ApiResponse.inRecovery, ApiResponse.pgPrimary, Peer.getMysqlStatus, Instance.binlogData,
    JsonNumber.truthy, Instance.looksLikePrimary, Bool.or_assoc]

theorem maxLocation_binlogData (server : Instance) :
    server.binlogData.maxLocation = some server.reportedOffset := by
  cases hs : server.slaveStatus with
  | none =>
      simp [WalSection.maxLocation, Instance.binlogData, hs, JsonNumber.getD,
        Instance.reportedOffset]
  | some row =>
      simp [WalSection.maxLocation, Instance.binlogData, hs, JsonNumber.getD,
        Instance.reportedOffset]

/-- The status of a member that answers. -/
theorem fetchNodeStatus_of_peer (h : peers m = some peer) :
    fetchNodeStatus (request isStandbyCluster peers) m =
      ⟨m, true, some (!peer.server.looksLikePrimary (peer.role isStandbyCluster)),
        if peer.server.looksLikePrimary (peer.role isStandbyCluster) then 0
        else peer.server.reportedOffset,
        some (peer.getMysqlStatus isStandbyCluster)⟩ := by
  have hlsn : (peer.getMysqlStatus isStandbyCluster).lsn peer.server.binlogData =
      some (if peer.server.looksLikePrimary (peer.role isStandbyCluster) then 0
        else peer.server.reportedOffset) := by
    rw [ApiResponse.lsn, inRecovery_getMysqlStatus, maxLocation_binlogData]
    cases peer.server.looksLikePrimary (peer.role isStandbyCluster) <;> rfl
  have hsection : (peer.getMysqlStatus isStandbyCluster).walSection =
      some peer.server.binlogData := rfl
  simp only [fetchNodeStatus, request, h, Option.map_some, Option.bind_some,
    MemberStatus.fromApiResponse, hsection, Option.bind_eq_bind, hlsn,
    inRecovery_getMysqlStatus, Option.pure_def, Option.getD_some]

theorem fetchNodeStatus_of_none (h : peers m = none) :
    fetchNodeStatus (request isStandbyCluster peers) m = .unknown m := by
  simp [fetchNodeStatus, request, h]

theorem failoverLimitation_of_peer (h : peers m = some peer) :
    (fetchNodeStatus (request isStandbyCluster peers) m).failoverLimitation = none ↔
      peer.promotable = true := by
  rw [fetchNodeStatus_of_peer h]
  cases hn : peer.tags.nofailover <;> cases hw : peer.watchdogFailed <;>
    simp [MemberStatus.failoverLimitation, MemberStatus.tags, MemberStatus.watchdogFailed,
      Peer.getMysqlStatus, Peer.promotable, hn, hw]

/-! ## The winner of a race between offsets -/

/-- The member ends the race by its reported offset: it looks like a primary,
its offset is larger, or it is equal and the member has a higher priority. -/
def OffsetDefeats (race : Race ν) (own : Instance) (leader : Option ν) (m : Member ν)
    (peer : Peer) : Prop :=
  peer.promotable = true ∧
    (peer.server.looksLikePrimary (peer.role race.config.isStandbyCluster) = true ∨
      own.lastOperation < peer.server.reportedOffset ∨
      (0 < peer.server.reportedOffset ∧ own.lastOperation = peer.server.reportedOffset ∧
        race.failoverPriority < peer.tags.failoverPriority ∧ leader ≠ some m.name))

theorem defeats_iff {race : Race ν} {own : Instance} {leader : Option ν}
    (hown : race.myWalPosition = own.lastOperation) :
    race.Defeats leader (fetchNodeStatus (request race.config.isStandbyCluster peers) m) ↔
      ∃ peer, peers m = some peer ∧ OffsetDefeats race own leader m peer := by
  cases hp : peers m with
  | none => simp [fetchNodeStatus_of_none hp, Race.Defeats, MemberStatus.failoverLimitation,
      MemberStatus.unknown]
  | some peer =>
      simp only [Option.some.injEq, exists_eq_left', Race.Defeats, OffsetDefeats,
        failoverLimitation_of_peer hp, hown]
      rw [fetchNodeStatus_of_peer hp]
      cases hl : peer.server.looksLikePrimary (peer.role race.config.isStandbyCluster) with
      | true => simp
      | false => simp [MemberStatus.tags, Peer.getMysqlStatus]

variable [NodeName ν]
variable (race : Race ν) (own : Instance) (peers : Member ν → Option Peer)
  (asCompleted : AsCompleted (MemberStatus ν)) (members : List (Member ν))
  (checkReplicationLag : Bool) (leader : Option ν)

/-- No polled member that can be reached and promoted has applied more than this node. -/
def MostAdvanced : Prop :=
  ∀ m ∈ race.polled members, ∀ peer, peers m = some peer → peer.promotable = true →
    ¬ own.applied < peer.server.applied

/-- The race picks a most advanced node exactly when every member that is ahead
is accompanied by one that ends the race by its offset, or the node lags. -/
theorem offset_race_picks_most_advanced_iff (hgtid : race.useGtid = false)
    (htimelines : race.hasTimelines = false) (hmode : race.config.synchronousMode = .off)
    (hown : race.myWalPosition = own.lastOperation) :
    (race.isHealthiestNode (request race.config.isStandbyCluster peers) asCompleted members
        checkReplicationLag leader = true → MostAdvanced race own peers members) ↔
      ∀ m ∈ race.polled members, ∀ peer, peers m = some peer → peer.promotable = true →
        own.applied < peer.server.applied →
        (checkReplicationLag = true ∧ race.isLagging = true) ∨
          ∃ m' ∈ race.polled members, ∃ peer', peers m' = some peer' ∧
            OffsetDefeats race own leader m' peer' := by
  have hquorum : race.quorumCommitModeIsActive = false := by
    simp [Race.quorumCommitModeIsActive, Ha.quorumCommitModeIsActive, Ha.isQuorumCommitMode,
      GlobalConfig.isQuorumCommitMode, hmode]
  have hsync : race.syncModeIsActive = false := by
    simp [Race.syncModeIsActive, GlobalConfig.isSynchronousMode, GlobalConfig.isQuorumCommitMode,
      hmode]
  have htimeline : race.timelineIsBehind = false := by simp [Race.timelineIsBehind, htimelines]
  rw [Race.isHealthiestNode_async_iff hgtid hquorum hsync htimeline]
  simp only [defeats_iff hown]
  constructor
  · intro h m hm peer hp hprom hlt
    by_contra hcon
    obtain ⟨hlag, hnone⟩ := not_or.mp hcon
    refine h ⟨hlag, ?_⟩ m hm peer hp hprom hlt
    rintro m' hm' ⟨peer', hp', hd⟩
    exact hnone ⟨m', hm', peer', hp', hd⟩
  · rintro h ⟨hlag, hnone⟩ m hm peer hp hprom hlt
    rcases h m hm peer hp hprom hlt with hl | ⟨m', hm', peer', hp', hd⟩
    · exact hlag hl
    · exact hnone m' hm' ⟨peer', hp', hd⟩

/-- A node in asynchronous mode without group replication. -/
def asyncRace (name : String) (own : Instance) : Race String where
  name := name
  hasTimelines := false
  clusterTimeline := 0
  myTimeline := none
  myWalPosition := own.lastOperation
  lastLsn := 0
  maximumLagOnFailover := 1048576
  checkTimeline := false
  config := ⟨.off, false, false, 1⟩
  supportsMultipleSync := true
  sync := ⟨none, [], 0⟩
  failoverPriority := 1
  useGtid := false
  myGtid := ""
  gtidRelation := fun _ _ => .incomparable

/-- A replica without a binlog of its own that applied up to an offset of a file. -/
def replicaAt (file offset : ℕ) : Instance := ⟨some ⟨file, offset, offset⟩, none, ""⟩

/-- The peers of a race of two: `c` answers with the given server. -/
def peerC (server : Instance) (m : Member String) : Option Peer :=
  if m.name = "c" then some ⟨server, .replica, ⟨none, none⟩, false⟩ else none

/-- The members of a race of two. -/
def membersBC : List (Member String) :=
  [⟨"b", true, ⟨none, none⟩, ""⟩, ⟨"c", true, ⟨none, none⟩, ""⟩]

/-- The node `b` at offset 900 of file 1 wins against `c`, which has already
applied offset 100 of file 2. -/
theorem rotation_lets_a_lagging_node_win :
    (asyncRace "b" (replicaAt 1 900)).isHealthiestNode (request false (peerC (replicaAt 2 100)))
        ⟨id, fun _ => .rfl⟩ membersBC true none = true ∧
      ¬ MostAdvanced (asyncRace "b" (replicaAt 1 900)) (replicaAt 1 900)
        (peerC (replicaAt 2 100)) membersBC := by
  refine ⟨by decide +kernel, fun h => ?_⟩
  refine h ⟨"c", true, ⟨none, none⟩, ""⟩ (by decide +kernel) _ rfl (by decide) ?_
  exact Prod.Lex.left _ _ (by decide)

/-- Within one file the node with the larger offset wins. -/
theorem offset_race_picks_most_advanced_same_file :
    (asyncRace "b" (replicaAt 2 900)).isHealthiestNode (request false (peerC (replicaAt 2 100)))
        ⟨id, fun _ => .rfl⟩ membersBC true none = true ∧
      MostAdvanced (asyncRace "b" (replicaAt 2 900)) (replicaAt 2 900)
        (peerC (replicaAt 2 100)) membersBC := by
  have hwin : (asyncRace "b" (replicaAt 2 900)).isHealthiestNode
      (request false (peerC (replicaAt 2 100))) ⟨id, fun _ => .rfl⟩ membersBC true none = true := by
    decide +kernel
  refine ⟨hwin, (offset_race_picks_most_advanced_iff (asyncRace "b" (replicaAt 2 900))
    (replicaAt 2 900) (peerC (replicaAt 2 100)) ⟨id, fun _ => .rfl⟩ membersBC true none rfl rfl rfl
    rfl).mpr ?_ hwin⟩
  intro m hm peer hp hprom hlt
  have hserver : peer.server = replicaAt 2 100 := by
    rw [peerC] at hp
    split at hp
    · exact (Option.some.inj hp) ▸ rfl
    · simp at hp
  rw [hserver] at hlt
  exact absurd hlt (by decide)

end Metatroni.MySQL
