import Metatroni.Cluster
import Metatroni.Quorum.External

/-!
# The hand-over of synchronous replication at a promotion

`Ha.process_sync_replication_prepromote` sets `synchronous_standby_names`
before the node is promoted; the `/sync` key still names the old leader then.
Once the node is a primary, the failover branch of the resolver rewrites
`/sync`. Both compute the hand-over, one from the member list of `/sync`, the
other from its voters.
-/

namespace Metatroni

open Generators

variable {ν : Type} [NodeName ν]

namespace Ha

/-- `is_quorum_commit_mode`: requested and supported by the state handler. -/
def isQuorumCommitMode (config : GlobalConfig) (supportsMultipleSync : Bool) : Bool :=
  config.isQuorumCommitMode && supportsMultipleSync

/-- `quorum_commit_mode_is_active`. -/
def quorumCommitModeIsActive (config : GlobalConfig) (supportsMultipleSync : Bool)
    (sync : SyncState ν) : Bool :=
  isQuorumCommitMode config supportsMultipleSync && !sync.isEmpty

/-- The ways in which `process_sync_replication_prepromote` ends. -/
inductive PrepromoteOutcome (ν : Type) [NodeName ν]
  /-- `disable_synchronous_replication()`, then `True`. -/
  | disabled
  /-- The DCS refused to write `/sync`: `False`. -/
  | syncStateNotWritten
  /-- `set_synchronous_standby_names(sync, numsync)`, then `True`; the flag
  says that `/sync` was reset to the node alone before. -/
  | standbyNamesSet (syncStateReset : Bool) (sync : CaseInsensitiveSet ν) (numsync : ℤ)
  deriving DecidableEq

/-- The first values of `sync` and `numsync` in `process_sync_replication_prepromote`. -/
def prepromoteNames (config : GlobalConfig) (supportsMultipleSync : Bool) (name : ν)
    (sync : SyncState ν) : CaseInsensitiveSet ν × ℤ :=
  if quorumCommitModeIsActive config supportsMultipleSync sync then
    let nodes := CaseInsensitiveSet.ofList sync.members
    let numsync := nodes.len - sync.quorum - 1
    -- a node outside voters achieved quorum and got leader
    if name ∉ nodes then (nodes, numsync + 1)
    else (nodes.discard name, numsync)
  else (∅, config.minSynchronousNodes)

/-- `process_sync_replication_prepromote` on the node `name`; `written` is the
answer of `write_sync_state`. -/
def processSyncReplicationPrepromote (config : GlobalConfig) (supportsMultipleSync : Bool)
    (name : ν) (sync : SyncState ν) (written : Bool) : PrepromoteOutcome ν :=
  if !config.isSynchronousMode then .disabled
  else
    let (nodes, numsync) := prepromoteNames config supportsMultipleSync name sync
    if !isQuorumCommitMode config supportsMultipleSync || !supportsMultipleSync && 1 < numsync then
      if !written then .syncStateNotWritten
      else .standbyNamesSet true ∅ config.minSynchronousNodes
    else .standbyNamesSet false nodes numsync

/-! ## Both paths compute the same hand-over -/

variable {config : GlobalConfig} {supportsMultipleSync : Bool} {name leader : ν}
  {sync : SyncState ν}

/-- While quorum commit is active, the computed names are passed on unchanged. -/
theorem processSyncReplicationPrepromote_active (hmode : config.isSynchronousMode = true)
    (hactive : quorumCommitModeIsActive config supportsMultipleSync sync = true) (written : Bool) :
    processSyncReplicationPrepromote config supportsMultipleSync name sync written =
      .standbyNamesSet false (prepromoteNames config supportsMultipleSync name sync).1
        (prepromoteNames config supportsMultipleSync name sync).2 := by
  simp only [quorumCommitModeIsActive, isQuorumCommitMode, Bool.and_eq_true] at hactive
  obtain ⟨⟨hquorum, hsupports⟩, -⟩ := hactive
  simp [processSyncReplicationPrepromote, isQuorumCommitMode, hmode, hquorum, hsupports]

theorem keys_members (hleader : sync.leader = some leader) :
    (CaseInsensitiveSet.ofList sync.members).keys =
      insert (lower leader) (CaseInsensitiveSet.ofList sync.voters).keys := by
  rw [SyncState.members, hleader, CaseInsensitiveSet.keys_ofList, CaseInsensitiveSet.keys_ofList,
    List.map_cons, List.toFinset_cons]

/-- The names are those of the failover branch, and one node less is subtracted
from their number where the promoted node was among them. -/
theorem prepromoteNames_eq
    (hactive : quorumCommitModeIsActive config supportsMultipleSync sync = true)
    (hleader : sync.leader = some leader) (hne : lower name ≠ lower leader) :
    let voters := CaseInsensitiveSet.ofList sync.voters
    let handOver := (voters \ CaseInsensitiveSet.ofList [name]) ∪ CaseInsensitiveSet.ofList [leader]
    let names := prepromoteNames config supportsMultipleSync name sync
    names.1.keys = handOver.keys ∧ names.2 = handOver.len - sync.quorum := by
  intro voters handOver names
  have hhand : handOver.keys = insert (lower leader) (voters.keys.erase (lower name)) := by
    rw [QuorumStateResolver.keys_union_singleton, CaseInsensitiveSet.keys_sdiff,
      CaseInsensitiveSet.keys_ofList]
    simp [Finset.sdiff_singleton_eq_erase]
  have hmembers := keys_members hleader
  have hmem : name ∈ CaseInsensitiveSet.ofList sync.members ↔ lower name ∈ voters.keys := by
    rw [CaseInsensitiveSet.mem_iff, hmembers, Finset.mem_insert, or_iff_right hne]
  simp only [names, prepromoteNames, hactive, if_true]
  by_cases hv : lower name ∈ voters.keys
  · rw [if_neg (not_not.mpr (hmem.mpr hv))]
    have hkeys : ((CaseInsensitiveSet.ofList sync.members).discard name).keys = handOver.keys := by
      rw [CaseInsensitiveSet.keys_discard, hmembers, hhand, Finset.erase_insert_of_ne hne.symm]
    refine ⟨hkeys, ?_⟩
    have hcard := Finset.card_erase_of_mem
      ((CaseInsensitiveSet.mem_iff _ name).mp (hmem.mpr hv))
    have hpos := Finset.card_pos.mpr ⟨_, (CaseInsensitiveSet.mem_iff _ name).mp (hmem.mpr hv)⟩
    rw [← CaseInsensitiveSet.keys_discard, hkeys] at hcard
    simp only [CaseInsensitiveSet.len_eq]
    omega
  · rw [if_pos (fun h => hv (hmem.mp h))]
    have hkeys : (CaseInsensitiveSet.ofList sync.members).keys = handOver.keys := by
      rw [hmembers, hhand, Finset.erase_eq_of_notMem hv]
    refine ⟨hkeys, ?_⟩
    simp only [CaseInsensitiveSet.len_eq, hkeys]
    omega

/-- The resolver that the promoted node builds from the old `/sync` key while
`synchronous_standby_names` is still empty. -/
def failoverResolver (sync : SyncState ν) (leader name : ν) (numsyncConfirmed : ℤ)
    (active : CaseInsensitiveSet ν) (syncWanted : ℤ) : QuorumStateResolver ν :=
  .init leader sync.quorum (.ofList sync.voters) 0 ∅ numsyncConfirmed active syncWanted name

/-- The quorum of `/sync` leaves at least one node to wait for. -/
theorem quorum_le_failoverVoters_len (s : QuorumStateResolver ν)
    (hq : s.quorum = 0 ∨ s.quorum < s.voters.len) : s.quorum ≤ s.failoverVoters.len := by
  have hcard := Finset.card_le_card (Finset.subset_insert (lower s.leader)
    (s.voters.keys \ {lower s.leaderWanted}))
  have hsdiff := Finset.le_card_sdiff {lower s.leaderWanted} s.voters.keys
  rw [← QuorumStateResolver.failoverVoters_keys] at hcard
  rw [Finset.card_singleton] at hsdiff
  rw [CaseInsensitiveSet.len_eq] at hq ⊢
  omega

/-- The first transition of a failover sets `synchronous_standby_names`. -/
theorem generateTransitions_failover_yielded {s : QuorumStateResolver ν}
    (hne : s.leaderWanted ≠ s.leader) (hsync : s.sync = ∅) (h₀ : 0 ≤ s.quorum)
    (hq : s.quorum = 0 ∨ s.quorum < s.voters.len) :
    ([⟨.sync, s.leader, s.failoverVoters.len - s.quorum, s.failoverVoters⟩] :
      List (Transition ν)) <+: (QuorumStateResolver.generateTransitions s).yielded := by
  have hempty : ¬ s.sync.Truthy := by
    rw [CaseInsensitiveSet.truthy_iff, hsync, CaseInsensitiveSet.keys_empty]
    exact fun h => h rfl
  have hrun : QuorumStateResolver.syncUpdate (s.failoverVoters.len - s.quorum) s.failoverVoters s =
      ⟨[s.assignHandOver.syncTransition], s.assignHandOver, .ok ()⟩ := by
    have hle := quorum_le_failoverVoters_len s hq
    exact QuorumStateResolver.handOver_run_of_range s (by omega) (by omega)
  have hfirst : [s.assignHandOver.syncTransition] <+: (QuorumStateResolver.failover s).yielded := by
    have h := Gen.yielded_prefix_bind
      (Gen.when (¬ s.sync.Truthy)
        (QuorumStateResolver.syncUpdate (s.failoverVoters.len - s.quorum) s.failoverVoters))
      (fun _ => do
        let self ← Gen.self
        QuorumStateResolver.quorumUpdate self.quorum s.failoverVoters (some self.leaderWanted) true
        let self ← Gen.self
        pure (decide (¬ (self.sync ∩ self.active).Truthy))) s
    rw [Gen.when, if_pos hempty, hrun] at h
    rw [QuorumStateResolver.failover, Gen.self_bind, Gen.when, if_pos hempty]
    exact h
  have htry : QuorumStateResolver.tryBody s = QuorumStateResolver.failover s := by
    rw [QuorumStateResolver.tryBody, Gen.self_bind, if_pos hne]
  rw [← htry] at hfirst
  exact (hfirst.trans (Gen.yielded_prefix_handle _ _ _)).trans (Gen.yielded_prefix_bind _ _ _)

/-- The hand-over before the promotion is the one of the failover branch, and
it is safe for the old `/sync` key as well as for the one written afterwards. The new leader is
another node than the old one, up to case. The set and the number are the same for every quorum; the
resolver yields them as a transition only for a quorum that is not negative. -/
theorem prepromote_agrees_with_failover (config : GlobalConfig) (supportsMultipleSync : Bool)
    (leader name : ν) (sync : SyncState ν) (written : Bool) (numsyncConfirmed : ℤ)
    (active : CaseInsensitiveSet ν) (syncWanted : ℤ) (hmode : config.isSynchronousMode = true)
    (hactive : quorumCommitModeIsActive config supportsMultipleSync sync = true)
    (hleader : sync.leader = some leader) (hne : lower name ≠ lower leader)
    (hq : sync.quorum = 0 ∨ sync.quorum < (CaseInsensitiveSet.ofList sync.voters).len) :
    let resolver := failoverResolver sync leader name numsyncConfirmed active syncWanted
    let voters := resolver.failoverVoters
    let numsync := voters.len - sync.quorum
    ∃ nodes, processSyncReplicationPrepromote config supportsMultipleSync name sync written =
        .standbyNamesSet false nodes numsync ∧
      nodes.Same voters ∧
      (0 ≤ sync.quorum → ([⟨.sync, leader, numsync, voters⟩] : List (Transition ν)) <+:
        (QuorumStateResolver.generateTransitions resolver).yielded) ∧
      ({ resolver with numsync := numsync, sync := nodes } :
        QuorumStateResolver ν).checkInvariants = .ok () ∧
      ({ resolver with
        leader := name, voters := voters, numsync := numsync, sync := nodes } :
        QuorumStateResolver ν).checkInvariants = .ok () := by
  intro resolver voters numsync
  have hnames := prepromoteNames_eq hactive hleader hne
  have hkeys : (prepromoteNames config supportsMultipleSync name sync).1.keys = voters.keys :=
    hnames.1
  have hnum : (prepromoteNames config supportsMultipleSync name sync).2 = numsync := hnames.2
  refine ⟨(prepromoteNames config supportsMultipleSync name sync).1, ?_, ?_, ?_, ?_, ?_⟩
  · rw [processSyncReplicationPrepromote_active hmode hactive written, hnum]
  · exact (CaseInsensitiveSet.same_iff _ _).mpr hkeys
  · intro h₀
    have hlne : name ≠ leader := fun h => hne (congrArg lower h)
    exact generateTransitions_failover_yielded (s := resolver) hlne rfl h₀ hq
  · rw [QuorumStateResolver.checkInvariants_eq_ok_iff]
    have hweaker : External.Weaker resolver.assignHandOver.external
        { resolver.assignHandOver.external with
          sync := (prepromoteNames config supportsMultipleSync name sync).1 } :=
      ⟨rfl, rfl, rfl, le_rfl, hkeys⟩
    exact hweaker.consistent resolver.assignHandOver_consistent
  · rw [QuorumStateResolver.checkInvariants_eq_ok_iff]
    have hnodes := resolver.assignHandOver_nodes
    have hnew := QuorumStateResolver.assign_failover_consistent (s := resolver.assignHandOver)
      (QuorumStateResolver.insert_failoverVoters_keys resolver) hnodes.2 (Or.inl hnodes.1)
    have hweaker : External.Weaker
        (resolver.assignHandOver.assignQuorum resolver.quorum voters (some name) true).external
        { resolver.external with
          leader := name, voters := voters, numsync := numsync,
          sync := (prepromoteNames config supportsMultipleSync name sync).1 } :=
      ⟨rfl, rfl, rfl, le_rfl, hkeys⟩
    exact hweaker.consistent hnew

/-- A node outside the voters takes over from `a`. -/
theorem prepromote_agrees_with_failover_outsider :
    let sync : SyncState String := ⟨some "a", ["b", "c"], 1⟩
    let config : GlobalConfig := ⟨.quorum, false, false, 1⟩
    let voters := (failoverResolver sync "a" "d" 0 ∅ 1).failoverVoters
    quorumCommitModeIsActive config true sync = true ∧ voters.len - sync.quorum = 2 ∧
      ∃ nodes, processSyncReplicationPrepromote config true "d" sync true =
        .standbyNamesSet false nodes (voters.len - sync.quorum) ∧ nodes.Same voters := by
  intro sync config voters
  refine ⟨by decide, by decide +kernel, ?_⟩
  obtain ⟨nodes, hset, hsame, -⟩ := prepromote_agrees_with_failover config true "a" "d" sync true 0
    ∅ 1 (by decide) (by decide) rfl (by decide +kernel) (by decide +kernel)
  exact ⟨nodes, hset, hsame⟩

end Ha

end Metatroni
