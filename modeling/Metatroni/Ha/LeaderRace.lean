import Metatroni.Ha.Prepromote

/-!
# The leader race

`Ha._is_healthiest_node` polls the other members through their REST API and
decides whether this node may take the leader key. Members answer in any order
and some do not answer at all; each answer either ends the race, counts as a
vote, counts as a node ahead, or is ignored.

## Implementation notes

The loop over the statuses is a recursion over the list in the order in which
the answers complete. What a single status does is a function of its own, so
that facts about the race follow from facts about one status by induction.
-/

namespace Metatroni

variable {ν : Type}

/-! ## Statuses -/

/-- An integer of a JSON document: it may be missing or `null`. -/
inductive JsonNumber
  | missing
  | null
  | number (n : ℤ)
  deriving DecidableEq, Repr

namespace JsonNumber

/-- `bool(wal.get(key))`. -/
def truthy : JsonNumber → Bool
  | number n => n ≠ 0
  | _ => false

/-- `wal.get(key, 0)`; `null` can't be compared with an integer. -/
def getD : JsonNumber → Option ℤ
  | missing => some 0
  | null => none
  | number n => some n

end JsonNumber

/-- The `wal`, `xlog` or `binlog` object of a response. -/
structure WalSection where
  location : JsonNumber
  binlogPosition : JsonNumber
  receivedLocation : JsonNumber
  replayedLocation : JsonNumber
  receiveBinlogPosition : JsonNumber
  replayBinlogPosition : JsonNumber
  gtidSet : String
  gtidExecuted : String

/-- The part of a `GET /patroni` response that the race reads. -/
structure ApiResponse where
  wal : Option WalSection
  xlog : Option WalSection
  binlog : Option WalSection
  role : Option PostgresqlRole
  tags : Tags
  watchdogFailed : Bool
  gtidExecuted : String

/-- `_MemberStatus`; `data` is empty when the node could not be reached. -/
structure MemberStatus (ν : Type) where
  member : Member ν
  reachable : Bool
  inRecovery : Option Bool
  walPosition : ℤ
  data : Option ApiResponse

namespace WalSection

/-- The maximum of the four positions of a replica. -/
def maxLocation (wal : WalSection) : Option ℤ := do
  let received ← wal.receivedLocation.getD
  let replayed ← wal.replayedLocation.getD
  let receiveBinlog ← wal.receiveBinlogPosition.getD
  let replayBinlog ← wal.replayBinlogPosition.getD
  pure (max received (max replayed (max receiveBinlog replayBinlog)))

end WalSection

namespace ApiResponse

/-- The section that holds the positions, under one of its three names. -/
def walSection (json : ApiResponse) : Option WalSection := json.wal <|> json.xlog <|> json.binlog

/-- The role is one of a PostgreSQL primary. -/
def pgPrimary (json : ApiResponse) : Bool :=
  json.role = some .master || json.role = some .primary

/-- `in_recovery` of a response: it abuses the difference between the formats
of a primary and of a replica. -/
def inRecovery (json : ApiResponse) (wal : WalSection) : Bool :=
  !(wal.location.truthy || wal.binlogPosition.truthy || json.pgPrimary)

/-- `lsn` of a response. -/
def lsn (json : ApiResponse) (wal : WalSection) : Option ℤ :=
  if json.inRecovery wal then wal.maxLocation else some 0

end ApiResponse

namespace MemberStatus

/-- `from_api_response`; `none` where the code raises. -/
def fromApiResponse (member : Member ν) (json : ApiResponse) : Option (MemberStatus ν) := do
  let wal ← json.walSection
  let lsn ← json.lsn wal
  pure ⟨member, true, some (json.inRecovery wal), lsn, some json⟩

/-- `unknown`. -/
def unknown (member : Member ν) : MemberStatus ν := ⟨member, false, none, 0, none⟩

/-- `tags`. -/
def tags (st : MemberStatus ν) : Tags := (st.data.map (·.tags)).getD ⟨none, none⟩

/-- `watchdog_failed`. -/
def watchdogFailed (st : MemberStatus ν) : Bool := (st.data.map (·.watchdogFailed)).getD false

/-- `failover_limitation`. -/
def failoverLimitation (st : MemberStatus ν) : Option String :=
  if !st.reachable then some "not reachable"
  else if st.tags.nofailover then some "not allowed to promote"
  else if st.watchdogFailed then some "not watchdog capable"
  else none

/-- The GTID set that a peer published, from the first place that has one. -/
def peerGtid (st : MemberStatus ν) : String :=
  let binlog := st.data.bind (·.binlog)
  let places := [(binlog.map (·.gtidSet)).getD "", (binlog.map (·.gtidExecuted)).getD "",
    (st.data.map (·.gtidExecuted)).getD "", st.member.gtidExecuted]
  (places.find? (· ≠ "")).getD ""

end MemberStatus

/-- `fetch_node_status`: a failed request or an unusable response is `unknown`. -/
def fetchNodeStatus (request : Member ν → Option ApiResponse) (member : Member ν) :
    MemberStatus ν :=
  ((request member).bind (MemberStatus.fromApiResponse member)).getD (.unknown member)

theorem fetchNodeStatus_cases (request : Member ν → Option ApiResponse) (m : Member ν) :
    fetchNodeStatus request m = .unknown m ∨
      ∃ json, request m = some json ∧
        MemberStatus.fromApiResponse m json = some (fetchNodeStatus request m) := by
  rw [fetchNodeStatus]
  rcases hr : request m with _ | json
  · exact Or.inl rfl
  · rcases hj : MemberStatus.fromApiResponse m json with _ | st
    · exact Or.inl (by simp [hj])
    · exact Or.inr ⟨json, rfl, by simp [hj]⟩

@[simp] theorem fetchNodeStatus_member (request : Member ν → Option ApiResponse) (m : Member ν) :
    (fetchNodeStatus request m).member = m := by
  rcases fetchNodeStatus_cases request m with h | ⟨json, -, h⟩
  · rw [h]
    rfl
  · simp only [MemberStatus.fromApiResponse, Option.bind_eq_bind, Option.bind_eq_some_iff,
      Option.pure_def, Option.some.injEq] at h
    obtain ⟨wal, -, lsn, -, h⟩ := h
    rw [← h]

/-- Only a node that answered, and said whether it is in recovery, may be promoted. -/
theorem fetchNodeStatus_inRecovery {request : Member ν → Option ApiResponse} {m : Member ν}
    (h : (fetchNodeStatus request m).failoverLimitation = none)
    (hne : (fetchNodeStatus request m).inRecovery ≠ some false) :
    (fetchNodeStatus request m).inRecovery = some true := by
  rcases fetchNodeStatus_cases request m with hu | ⟨json, -, hj⟩
  · rw [hu] at h
    simp [MemberStatus.failoverLimitation, MemberStatus.unknown] at h
  · simp only [MemberStatus.fromApiResponse, Option.bind_eq_bind, Option.bind_eq_some_iff,
      Option.pure_def, Option.some.injEq] at hj
    obtain ⟨wal, -, lsn, -, hj⟩ := hj
    rw [← hj] at hne ⊢
    cases hr : json.inRecovery wal with
    | false => exact absurd (congrArg some hr) hne
    | true => rfl

/-- `concurrent.futures.as_completed`: results arrive in any order. -/
structure AsCompleted (α : Type) where
  reorder : List α → List α
  perm : ∀ xs, (reorder xs).Perm xs

/-- `fetch_nodes_statuses`. -/
def fetchNodesStatuses (request : Member ν → Option ApiResponse)
    (asCompleted : AsCompleted (MemberStatus ν)) (members : List (Member ν)) :
    List (MemberStatus ν) :=
  asCompleted.reorder (members.map (fetchNodeStatus request))

/-! ## The race -/

variable [NodeName ν]

/-- The results of `gtid_relation`. -/
inductive GtidRelation
  | equal
  | aAhead
  | bAhead
  | incomparable
  deriving DecidableEq, Repr

/-- What `_is_healthiest_node` reads from its own node, the cluster view and
the configuration. -/
structure Race (ν : Type) where
  name : ν
  hasTimelines : Bool
  clusterTimeline : ℤ
  /-- `replica_cached_timeline(cluster_timeline)`. -/
  myTimeline : Option ℤ
  /-- `last_operation()`. -/
  myWalPosition : ℤ
  lastLsn : ℤ
  maximumLagOnFailover : ℤ
  checkTimeline : Bool
  config : GlobalConfig
  supportsMultipleSync : Bool
  sync : SyncState ν
  failoverPriority : ℤ
  /-- The backend is MySQL with a configured group replication. -/
  useGtid : Bool
  myGtid : String
  gtidRelation : String → String → GtidRelation

namespace Race

/-- `sync_mode_is_active`. -/
def syncModeIsActive (race : Race ν) : Bool :=
  race.config.isSynchronousMode && !race.sync.isEmpty

/-- `quorum_commit_mode_is_active`. -/
def quorumCommitModeIsActive (race : Race ν) : Bool :=
  Ha.quorumCommitModeIsActive race.config race.supportsMultipleSync race.sync

/-- `is_lagging`. -/
def isLagging (race : Race ν) : Bool :=
  race.maximumLagOnFailover < race.lastLsn - race.myWalPosition

/-- The timeline checks at the start of the race. -/
def timelineIsBehind (race : Race ν) : Bool :=
  race.hasTimelines && !race.config.isStandbyCluster && race.checkTimeline &&
    match race.myTimeline with
    | none => true
    | some timeline => timeline < race.clusterTimeline

/-- `quorum` of the race. -/
def quorum (race : Race ν) : ℤ := if race.quorumCommitModeIsActive then race.sync.quorum else 0

/-- `voting_set` of the race. -/
def votingSet (race : Race ν) : CaseInsensitiveSet ν :=
  if race.quorumCommitModeIsActive then .ofList race.sync.members else ∅

/-- The members that are polled: nodes with a `nofailover` tag only if they vote. -/
def polled (race : Race ν) (members : List (Member ν)) : List (Member ν) :=
  members.filter fun m =>
    m.name ≠ race.name && m.hasApiUrl && (!m.tags.nofailover || m.name ∈ race.votingSet)

/-- `leader_name`: the former leader, whose priority is ignored. -/
def leaderName (race : Race ν) (leader : Option ν) : Option ν :=
  if race.syncModeIsActive then race.sync.leader else leader

/-- A node that is ahead ends the race, unless it is the former leader of an
active synchronous mode. The value holds the votes and the nodes ahead. -/
def nodeAhead (race : Race ν) (st : MemberStatus ν) : Option (ℤ × ℤ) :=
  if !race.syncModeIsActive || !race.sync.leaderMatches st.member.name then none
  else some (0, 1)

/-- A node that is not ahead votes, unless it has a higher priority at an
equal position. -/
def nodeNotAhead (race : Race ν) (leaderName : Option ν) (st : MemberStatus ν)
    (equalPosition : Bool) : Option (ℤ × ℤ) :=
  let quorumVote : Bool := st.member.name ∈ race.votingSet
  let lowPriority := equalPosition && race.failoverPriority < st.tags.failoverPriority &&
    leaderName ≠ some st.member.name
  if lowPriority && (!race.quorumCommitModeIsActive || quorumVote) then none
  else some (if quorumVote then 1 else 0, 0)

/-- The body of the loop over the statuses: `none` ends the race with `False`. -/
def judge (race : Race ν) (leaderName : Option ν) (st : MemberStatus ν) : Option (ℤ × ℤ) :=
  if st.failoverLimitation ≠ none then some (0, 0)
  -- the primary is still alive
  else if st.inRecovery = some false then none
  else
    let peerGtid := if race.useGtid && race.myGtid ≠ "" then st.peerGtid else ""
    let relation :=
      if peerGtid ≠ "" then race.gtidRelation race.myGtid peerGtid else .incomparable
    match relation with
    | .bAhead => race.nodeAhead st
    | .aAhead => race.nodeNotAhead leaderName st false
    | .equal => race.nodeNotAhead leaderName st true
    | .incomparable =>
        if race.myWalPosition < st.walPosition then race.nodeAhead st
        -- votes count only from nodes that are up and running
        else if 0 < st.walPosition then
          race.nodeNotAhead leaderName st (race.myWalPosition = st.walPosition)
        else some (0, 0)

/-- The loop over the statuses with its counters `quorum_votes` and `nodes_ahead`. -/
def poll (race : Race ν) (leaderName : Option ν) :
    List (MemberStatus ν) → ℤ → ℤ → Option (ℤ × ℤ)
  | [], quorumVotes, nodesAhead => some (quorumVotes, nodesAhead)
  | st :: rest, quorumVotes, nodesAhead =>
      match race.judge leaderName st with
      | none => none
      | some (vote, ahead) => race.poll leaderName rest (quorumVotes + vote) (nodesAhead + ahead)

/-- `_is_healthiest_node`. -/
def isHealthiestNode (race : Race ν) (request : Member ν → Option ApiResponse)
    (asCompleted : AsCompleted (MemberStatus ν)) (members : List (Member ν))
    (checkReplicationLag : Bool) (leader : Option ν) : Bool :=
  if checkReplicationLag && race.isLagging then false
  else if race.timelineIsBehind then false
  else
    let statuses := fetchNodesStatuses request asCompleted (race.polled members)
    let ownVote : ℤ := if race.name ∈ race.votingSet then 0 else -1
    match race.poll (race.leaderName leader) statuses ownVote 0 with
    | none => false
    | some (quorumVotes, nodesAhead) =>
        !race.quorumCommitModeIsActive || race.quorum ≤ quorumVotes ||
          nodesAhead = 0 && race.sync.leader = some race.name

/-! ## Votes -/

/-- The status of a voter that may be promoted and is not ahead. -/
def Supports (race : Race ν) (st : MemberStatus ν) : Prop :=
  st.failoverLimitation = none ∧ st.inRecovery ≠ some false ∧
    st.walPosition ≤ race.myWalPosition ∧ st.member.name ∈ race.votingSet

instance (race : Race ν) : DecidablePred race.Supports := fun st =>
  inferInstanceAs (Decidable (st.failoverLimitation = none ∧ st.inRecovery ≠ some false ∧
    st.walPosition ≤ race.myWalPosition ∧ st.member.name ∈ race.votingSet))

variable {race : Race ν} {leaderName : Option ν}

theorem nodeAhead_eq_some {st : MemberStatus ν} {vote ahead : ℤ}
    (h : race.nodeAhead st = some (vote, ahead)) : vote = 0 := by
  rw [nodeAhead] at h
  split at h
  · simp at h
  · simp only [Option.some.injEq, Prod.mk.injEq] at h
    exact h.1.symm

theorem nodeNotAhead_eq_some {st : MemberStatus ν} {equalPosition : Bool} {vote ahead : ℤ}
    (h : race.nodeNotAhead leaderName st equalPosition = some (vote, ahead)) :
    vote = if st.member.name ∈ race.votingSet then 1 else 0 := by
  simp only [nodeNotAhead] at h
  split at h
  · simp at h
  · simp only [Option.some.injEq, Prod.mk.injEq, decide_eq_true_eq] at h
    exact h.1.symm

/-- On the PostgreSQL path only a supporting status adds a vote. -/
theorem judge_vote_le (hpg : race.useGtid = false) {st : MemberStatus ν} {vote ahead : ℤ}
    (h : race.judge leaderName st = some (vote, ahead)) :
    vote ≤ if race.Supports st then 1 else 0 := by
  have hnonneg : (0 : ℤ) ≤ if race.Supports st then 1 else 0 := by split <;> decide
  rw [judge] at h
  split at h
  · simp only [Option.some.injEq, Prod.mk.injEq] at h
    rw [← h.1]
    exact hnonneg
  · next hlimit =>
      split at h
      · simp at h
      · next hrecovery =>
          simp only [hpg, Bool.false_and, Bool.false_eq_true, if_false, ne_eq,
            not_true_eq_false] at h
          split at h
          · rw [nodeAhead_eq_some h]
            exact hnonneg
          · next hle =>
              split at h
              · rw [nodeNotAhead_eq_some h]
                split
                · next hvote =>
                    rw [if_pos ⟨not_not.mp hlimit, hrecovery, not_lt.mp hle, hvote⟩]
                · exact hnonneg
              · simp only [Option.some.injEq, Prod.mk.injEq] at h
                rw [← h.1]
                exact hnonneg

/-- The votes of the whole poll are bounded by the supporting statuses. -/
theorem poll_votes_le (hpg : race.useGtid = false) (statuses : List (MemberStatus ν))
    {quorumVotes nodesAhead votes ahead : ℤ}
    (h : race.poll leaderName statuses quorumVotes nodesAhead = some (votes, ahead)) :
    votes ≤ quorumVotes + (statuses.filter (race.Supports ·)).length := by
  induction statuses generalizing quorumVotes nodesAhead with
  | nil =>
      simp only [poll, Option.some.injEq, Prod.mk.injEq] at h
      simp [h.1]
  | cons st rest ih =>
      rw [poll] at h
      split at h
      · simp at h
      · next vote ahead' hjudge =>
          have hvote := judge_vote_le hpg hjudge
          have hrest := ih h
          rw [List.filter_cons]
          by_cases hs : race.Supports st
          · simp only [hs, decide_true, if_true, List.length_cons]
            rw [if_pos hs] at hvote
            omega
          · simp only [hs, decide_false, Bool.false_eq_true, if_false]
            rw [if_neg hs] at hvote
            omega

end Race

/-! ## Supporters -/

/-- The node itself is not polled, and no node is polled twice. -/
structure DistinctNames (race : Race ν) (members : List (Member ν)) : Prop where
  nodup : (members.map fun m => lower m.name).Nodup
  own : ∀ m ∈ members, lower m.name = lower race.name → m.name = race.name

namespace Race

variable {race : Race ν} {request : Member ν → Option ApiResponse}
  {asCompleted : AsCompleted (MemberStatus ν)} {members : List (Member ν)}

theorem mem_fetchNodesStatuses {st : MemberStatus ν}
    (h : st ∈ fetchNodesStatuses request asCompleted (race.polled members)) :
    ∃ m ∈ members, m.name ≠ race.name ∧ st = fetchNodeStatus request m := by
  rw [fetchNodesStatuses, (asCompleted.perm _).mem_iff, List.mem_map] at h
  obtain ⟨m, hm, rfl⟩ := h
  simp only [polled, List.mem_filter, Bool.and_eq_true, decide_eq_true_eq] at hm
  exact ⟨m, hm.1, hm.2.1.1, rfl⟩

/-- The lower-cased names of the nodes that support this one. -/
def supporters (race : Race ν) (statuses : List (MemberStatus ν)) : Finset ν :=
  ((statuses.filter (race.Supports ·)).map fun st => lower st.member.name).toFinset

theorem card_supporters (hd : DistinctNames race members) :
    (race.supporters (fetchNodesStatuses request asCompleted (race.polled members))).card =
      ((fetchNodesStatuses request asCompleted (race.polled members)).filter
        (race.Supports ·)).length := by
  have hmap : ((race.polled members).map (fetchNodeStatus request)).map
      (fun st => lower st.member.name) = (race.polled members).map fun m => lower m.name := by
    rw [List.map_map]
    exact List.map_congr_left fun m _ => by simp
  have hnodup : ((fetchNodesStatuses request asCompleted (race.polled members)).map
      fun st => lower st.member.name).Nodup := by
    rw [fetchNodesStatuses, ((asCompleted.perm _).map _).nodup_iff, hmap]
    exact hd.nodup.sublist (List.filter_sublist.map _)
  rw [supporters, List.toFinset_card_of_nodup (hnodup.sublist (List.filter_sublist.map _)),
    List.length_map]

theorem mem_supporters {statuses : List (MemberStatus ν)} {k : ν}
    (h : k ∈ race.supporters statuses) :
    ∃ st ∈ statuses, race.Supports st ∧ k = lower st.member.name := by
  simp only [supporters, List.mem_toFinset, List.mem_map, List.mem_filter,
    decide_eq_true_eq] at h
  obtain ⟨st, ⟨hst, hs⟩, rfl⟩ := h
  exact ⟨st, hst, hs, rfl⟩

/-- Winning the race in quorum commit mode, for a node that was not the leader:
the supporters, together with the node if it votes, are more than the quorum. -/
theorem quorum_lt_of_isHealthiestNode {checkReplicationLag : Bool} {leader : Option ν}
    (hpg : race.useGtid = false) (hactive : race.quorumCommitModeIsActive = true)
    (hd : DistinctNames race members) (hne : race.sync.leader ≠ some race.name)
    (h : race.isHealthiestNode request asCompleted members checkReplicationLag leader = true) :
    race.sync.quorum <
      (race.supporters (fetchNodesStatuses request asCompleted (race.polled members))).card +
        if race.name ∈ race.votingSet then 1 else 0 := by
  rw [isHealthiestNode] at h
  split at h
  · simp at h
  · split at h
    · simp at h
    · simp only at h
      split at h
      · simp at h
      · next votes ahead hpoll =>
          have hvotes := poll_votes_le hpg _ hpoll
          rw [← card_supporters hd] at hvotes
          simp only [hactive, hne, Bool.not_true, Bool.false_or, Bool.or_eq_true,
            decide_eq_true_eq, decide_false, Bool.and_false, Bool.false_eq_true, or_false,
            quorum, if_true] at h
          split at hvotes
          · next hv => rw [if_pos hv]; omega
          · next hv => rw [if_neg hv]; omega

theorem keys_votingSet (hactive : race.quorumCommitModeIsActive = true) {leader : ν}
    (hleader : race.sync.leader = some leader) :
    race.votingSet.keys =
      insert (lower leader) (CaseInsensitiveSet.ofList race.sync.voters).keys := by
  rw [votingSet, if_pos hactive]
  exact Ha.keys_members hleader

/-- A response of a node in recovery carries its WAL position. -/
def Truthful (request : Member ν → Option ApiResponse) (position : ν → ℤ) (m : Member ν) : Prop :=
  (fetchNodeStatus request m).inRecovery = some true →
    (fetchNodeStatus request m).walPosition = position (lower m.name)

/-- A supporter votes, is another node, and has no more WAL than this node. -/
theorem supporters_spec {position : ν → ℤ} (hd : DistinctNames race members)
    (htruth : ∀ m ∈ members, Truthful request position m) {k : ν}
    (hk : k ∈ race.supporters (fetchNodesStatuses request asCompleted (race.polled members))) :
    k ∈ race.votingSet.keys ∧ k ≠ lower race.name ∧ position k ≤ race.myWalPosition := by
  obtain ⟨st, hst, hs, rfl⟩ := mem_supporters hk
  obtain ⟨m, hm, hname, rfl⟩ := mem_fetchNodesStatuses hst
  obtain ⟨hlimit, hrecovery, hle, hvote⟩ := hs
  rw [fetchNodeStatus_member] at hvote ⊢
  refine ⟨(CaseInsensitiveSet.mem_iff _ _).mp hvote, fun h => hname (hd.own m hm h), ?_⟩
  rw [← htruth m hm (fetchNodeStatus_inRecovery hlimit hrecovery)]
  exact hle

/-- The nodes that count for this one in the race: its supporters, and itself
if it votes. -/
def backers (race : Race ν) (statuses : List (MemberStatus ν)) : Finset ν :=
  if race.name ∈ race.votingSet then insert (lower race.name) (race.supporters statuses)
  else race.supporters statuses

theorem backers_spec {position : ν → ℤ} (hd : DistinctNames race members)
    (htruth : ∀ m ∈ members, Truthful request position m)
    (hmine : race.myWalPosition = position (lower race.name)) {k : ν}
    (hk : k ∈ race.backers (fetchNodesStatuses request asCompleted (race.polled members))) :
    k ∈ race.votingSet.keys ∧ position k ≤ race.myWalPosition := by
  rw [backers] at hk
  split at hk
  · next hv =>
      rcases Finset.mem_insert.mp hk with rfl | hs
      · exact ⟨(CaseInsensitiveSet.mem_iff _ _).mp hv, hmine.ge⟩
      · exact ⟨(supporters_spec hd htruth hs).1, (supporters_spec hd htruth hs).2.2⟩
  · exact ⟨(supporters_spec hd htruth hk).1, (supporters_spec hd htruth hk).2.2⟩

theorem card_backers {position : ν → ℤ} (hd : DistinctNames race members)
    (htruth : ∀ m ∈ members, Truthful request position m) :
    (race.backers (fetchNodesStatuses request asCompleted (race.polled members))).card =
      (race.supporters (fetchNodesStatuses request asCompleted (race.polled members))).card +
        if race.name ∈ race.votingSet then 1 else 0 := by
  rw [backers]
  split
  · exact Finset.card_insert_of_notMem fun h => (supporters_spec hd htruth h).2.1 rfl
  · rfl

/-- Leader race safety in quorum commit mode: a WAL position that the former
leader and `numsync` other synchronous nodes hold is held by every winner. -/
theorem healthiest_node_holds_acknowledged_wal (race : Race ν)
    (request : Member ν → Option ApiResponse) (asCompleted : AsCompleted (MemberStatus ν))
    (members : List (Member ν)) (checkReplicationLag : Bool) (oldLeader : Option ν)
    (resolver : QuorumStateResolver ν) (position : ν → ℤ) (wal : ℤ)
    (hpg : race.useGtid = false) (hactive : race.quorumCommitModeIsActive = true)
    (hsync : race.sync = ⟨some resolver.leader, resolver.voters.values, resolver.quorum⟩)
    (hwanted : resolver.leaderWanted = resolver.leader)
    (hinv : resolver.checkInvariants = .ok ()) (hvoters : resolver.voters.Truthy)
    (hd : DistinctNames race members) (hne : lower race.name ≠ lower resolver.leader)
    (hmine : race.myWalPosition = position (lower race.name))
    (htruth : ∀ m ∈ members, Truthful request position m)
    (hleader : wal ≤ position (lower resolver.leader))
    (hacks : resolver.numsync ≤ (((resolver.sync.keys.erase (lower resolver.leader)).filter
      fun k => wal ≤ position k).card : ℤ))
    (h : race.isHealthiestNode request asCompleted members checkReplicationLag oldLeader = true) :
    wal ≤ race.myWalPosition := by
  have hc := (QuorumStateResolver.checkInvariants_eq_ok_iff resolver).mp hinv
  let all := resolver.external.voterNodes ∪ resolver.external.syncNodes resolver.leaderWanted
  let backing := race.backers (fetchNodesStatuses request asCompleted (race.polled members))
  let holders := insert (lower resolver.leader)
    ((resolver.sync.keys.erase (lower resolver.leader)).filter fun k => wal ≤ position k)
  have hall : (all.card : ℤ) ≤ resolver.quorum + resolver.numsync + 1 :=
    hc.overlap ((CaseInsensitiveSet.truthy_iff _).mp hvoters)
  have hvoting : race.votingSet.keys = resolver.external.voterNodes := by
    have hv := keys_votingSet hactive (show race.sync.leader = some resolver.leader by rw [hsync])
    rw [hv, hsync]
    simp only [CaseInsensitiveSet.keys_ofList]
    rfl
  have hbacking : backing ⊆ all := by
    intro k hk
    have hk' := (backers_spec hd htruth hmine hk).1
    rw [hvoting] at hk'
    exact Finset.mem_union_left _ hk'
  have hholders : holders ⊆ all := by
    intro k hk
    apply Finset.mem_union_right
    rw [External.syncNodes, hwanted]
    rcases Finset.mem_insert.mp hk with rfl | hk'
    · exact Finset.mem_insert_self _ _
    · exact Finset.mem_insert_of_mem (Finset.mem_of_mem_erase (Finset.mem_filter.mp hk').1)
  have hcard : all.card < backing.card + holders.card := by
    have hq := quorum_lt_of_isHealthiestNode hpg hactive hd
      (by rw [hsync]; exact fun e => hne (congrArg lower (Option.some.inj e)).symm) h
    have hb : backing.card = _ := card_backers hd htruth
    have hh : holders.card = _ := Finset.card_insert_of_notMem (by simp)
    simp only [hsync] at hq
    by_cases hv : race.name ∈ race.votingSet
    · rw [if_pos hv] at hq hb
      omega
    · rw [if_neg hv] at hq hb
      omega
  obtain ⟨k, hk⟩ := Finset.inter_nonempty_of_card_lt_card_add_card hbacking hholders hcard
  obtain ⟨hkb, hkh⟩ := Finset.mem_inter.mp hk
  refine le_trans ?_ (backers_spec hd htruth hmine hkb).2
  rcases Finset.mem_insert.mp hkh with rfl | hk'
  · exact hleader
  · exact (Finset.mem_filter.mp hk').2

/-- Of `a`, `b` and `c`, the former leader `a` is gone and `c` lags behind `b`. -/
theorem healthiest_node_holds_acknowledged_wal_lagging_voter :
    let tags : Tags := ⟨none, none⟩
    let members : List (Member String) :=
      [⟨"a", true, tags, ""⟩, ⟨"b", true, tags, ""⟩, ⟨"c", true, tags, ""⟩]
    let response : ApiResponse :=
      { wal := none
        xlog := some ⟨.missing, .missing, .number 5, .number 5, .missing, .missing, "", ""⟩
        binlog := none
        role := some .replica
        tags := tags
        watchdogFailed := false
        gtidExecuted := "" }
    let request := fun m : Member String => if m.name = "c" then some response else none
    let position := fun k : String => if k = "c" then (5 : ℤ) else 10
    let resolver : QuorumStateResolver String :=
      .init "a" 1 (.ofList ["b", "c"]) 1 (.ofList ["b", "c"]) 0 ∅ 1 "a"
    let race : Race String :=
      { name := "b"
        hasTimelines := true
        clusterTimeline := 1
        myTimeline := some 1
        myWalPosition := 10
        lastLsn := 10
        maximumLagOnFailover := 1048576
        checkTimeline := true
        config := ⟨.quorum, false, false, 1⟩
        supportsMultipleSync := true
        sync := ⟨some "a", ["b", "c"], 1⟩
        failoverPriority := 1
        useGtid := false
        myGtid := ""
        gtidRelation := fun _ _ => .incomparable }
    race.isHealthiestNode request ⟨id, fun _ => .rfl⟩ members true none = true ∧
      resolver.checkInvariants = .ok () ∧ (10 : ℤ) ≤ race.myWalPosition ∧
      position (lower resolver.leader) = 10 := by
  intro tags members response request position resolver race
  have h : race.isHealthiestNode request ⟨id, fun _ => .rfl⟩ members true none = true := by
    decide +kernel
  have hinv : resolver.checkInvariants = .ok () := by decide +kernel
  have htruth : ∀ m ∈ members, Truthful request position m := by
    simp only [Truthful]
    decide +kernel
  have hd : DistinctNames race members := ⟨by decide +kernel, by decide +kernel⟩
  refine ⟨h, hinv, ?_, by decide +kernel⟩
  exact healthiest_node_holds_acknowledged_wal race request ⟨id, fun _ => .rfl⟩ members true none
    resolver position 10 rfl (by decide +kernel) (by decide +kernel) rfl hinv (by decide +kernel)
    hd (by decide +kernel) (by decide +kernel) htruth (by decide +kernel) (by decide +kernel) h

/-! ## The race in asynchronous mode -/

/-- A status that ends the race of a node in asynchronous mode: the primary is
still alive, or the member is ahead, or it is equal and has a higher priority
without being the former leader. -/
def Defeats (race : Race ν) (leader : Option ν) (st : MemberStatus ν) : Prop :=
  st.failoverLimitation = none ∧
    (st.inRecovery = some false ∨ race.myWalPosition < st.walPosition ∨
      (0 < st.walPosition ∧ race.myWalPosition = st.walPosition ∧
        race.failoverPriority < st.tags.failoverPriority ∧ leader ≠ some st.member.name))

theorem poll_eq_none_iff {leader : Option ν} (statuses : List (MemberStatus ν))
    (quorumVotes nodesAhead : ℤ) :
    race.poll leader statuses quorumVotes nodesAhead = none ↔
      ∃ st ∈ statuses, race.judge leader st = none := by
  induction statuses generalizing quorumVotes nodesAhead with
  | nil => simp [poll]
  | cons st rest ih =>
      rw [poll, List.exists_mem_cons_iff]
      cases hj : race.judge leader st with
      | none => simp
      | some counters => simp [ih]

theorem judge_eq_none_iff {leader : Option ν} (hgtid : race.useGtid = false)
    (hquorum : race.quorumCommitModeIsActive = false) (hsync : race.syncModeIsActive = false)
    (st : MemberStatus ν) : race.judge leader st = none ↔ race.Defeats leader st := by
  have hvote : ¬ st.member.name ∈ race.votingSet := by
    rw [votingSet, hquorum, CaseInsensitiveSet.mem_iff]
    simp
  simp only [judge, Defeats, hgtid, Bool.false_and, Bool.false_eq_true, if_false, ne_eq,
    not_true_eq_false]
  by_cases hlimit : st.failoverLimitation = none
  · by_cases hrecovery : st.inRecovery = some false
    · simp [hlimit, hrecovery]
    · by_cases hahead : race.myWalPosition < st.walPosition
      · simp [hlimit, hrecovery, hahead, nodeAhead, hsync]
      · by_cases hup : 0 < st.walPosition
        · simp [hlimit, hrecovery, hahead, hup, nodeNotAhead, hquorum, hvote, and_assoc]
        · simp [hlimit, hrecovery, hahead, hup]
  · simp [hlimit]

/-- In asynchronous mode a node wins unless it lags or a polled member defeats it. -/
theorem isHealthiestNode_async_iff {checkReplicationLag : Bool} {leader : Option ν}
    (hgtid : race.useGtid = false) (hquorum : race.quorumCommitModeIsActive = false)
    (hsync : race.syncModeIsActive = false) (htimeline : race.timelineIsBehind = false) :
    race.isHealthiestNode request asCompleted members checkReplicationLag leader = true ↔
      ¬ (checkReplicationLag = true ∧ race.isLagging = true) ∧
        ∀ m ∈ race.polled members, ¬ race.Defeats leader (fetchNodeStatus request m) := by
  have hname : race.leaderName leader = leader := by rw [leaderName, hsync]; rfl
  have hpoll : race.poll leader (fetchNodesStatuses request asCompleted (race.polled members))
      (if race.name ∈ race.votingSet then 0 else -1) 0 = none ↔
        ∃ m ∈ race.polled members, race.Defeats leader (fetchNodeStatus request m) := by
    rw [poll_eq_none_iff]
    simp only [judge_eq_none_iff hgtid hquorum hsync, fetchNodesStatuses,
      (asCompleted.perm _).mem_iff, List.mem_map, exists_exists_and_eq_and]
  simp only [isHealthiestNode, htimeline, hname, hquorum]
  by_cases hlag : checkReplicationLag = true ∧ race.isLagging = true
  · simp [hlag]
  · have hlag' : (checkReplicationLag && race.isLagging) = false := by
      rw [Bool.and_eq_false_iff, ← Bool.not_eq_true, ← Bool.not_eq_true]
      exact not_and_or.mp hlag
    rw [hlag', if_neg Bool.false_ne_true]
    cases hp : race.poll leader (fetchNodesStatuses request asCompleted (race.polled members))
        (if race.name ∈ race.votingSet then 0 else -1) 0 with
    | none =>
        obtain ⟨m, hm, hd⟩ := hpoll.mp hp
        simp only [Bool.false_eq_true, if_false, false_iff, not_and, not_forall, not_not]
        exact fun _ => ⟨m, hm, hd⟩
    | some counters =>
        have hnone : ¬ ∃ m ∈ race.polled members,
            race.Defeats leader (fetchNodeStatus request m) := by
          rw [← hpoll, hp]
          simp
        simp only [Bool.false_eq_true, if_false, Bool.not_false, Bool.true_or, true_iff]
        exact ⟨hlag, fun m hm hd => hnone ⟨m, hm, hd⟩⟩

end Race

end Metatroni
