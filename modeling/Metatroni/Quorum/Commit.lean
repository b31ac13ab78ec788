import Metatroni.Lib.Quorums
import Metatroni.Lib.Runs
import Metatroni.PostgreSQL.Sync
import Metatroni.Quorum.External

/-!
# Acknowledged commits under quorum commit

The leader, its replicas, `SyncHandler` and the resolver as one system. A
commit is a WAL position; a node holds it when its own position has reached
it. The leader acknowledges a commit according to the value of
`synchronous_standby_names` in effect, the `/sync` key tells a later leader race
how many nodes it may miss, and the resolver changes both in turns.

Every acknowledged commit should be found by a race that sees all but
`quorum` nodes. The invariants of the resolver give that for the commits that
were acknowledged under the current setting. For the earlier ones the code
relies on the replicas that `SyncHandler` has once seen to be ready.
-/

namespace Metatroni

open Runs Quorums

variable {ν : Type} [NodeName ν]

/-- The leader of a cluster with quorum commit, and the nodes around it. -/
structure QuorumCommit (ν : Type) [NodeName ν] where
  /-- The name of the leader. -/
  name : ν
  /-- The `/sync` key. -/
  sync : SyncState ν
  /-- `synchronous_standby_names` in effect. -/
  standbyNames : StandbyNames ν
  handler : SyncHandler ν
  config : GlobalConfig
  maximumLagOnSyncnode : ℤ
  /-- What `_ReplicaList` finds. -/
  replicaList : List (Replica ν)
  /-- How far each node has come in the WAL. -/
  position : ν → ℕ
  committed : List ℕ
  acknowledged : List ℕ
  /-- The transitions that `_process_quorum_replication` has still to apply. -/
  pending : List (Transition ν)
  /-- The position of the leader when `standbyNames` last changed. -/
  changedAt : ℕ

namespace QuorumCommit

/-- The state after `_maybe_enable_synchronous_mode`. -/
def init (name : ν) (position : ν → ℕ) (config : GlobalConfig) (maximumLagOnSyncnode : ℤ) :
    QuorumCommit ν where
  name := name
  sync := ⟨some name, [], 0⟩
  standbyNames := .off
  handler := .init
  config := config
  maximumLagOnSyncnode := maximumLagOnSyncnode
  replicaList := []
  position := position
  committed := []
  acknowledged := []
  pending := []
  changedAt := 0

/-- `last_operation`. -/
def lastOperation (w : QuorumCommit ν) : ℕ := w.position (lower w.name)

/-- The leader commits a transaction. -/
def commit (w : QuorumCommit ν) (lsn : ℕ) : Option (QuorumCommit ν) :=
  if w.lastOperation < lsn then
    some { w with
      position := Function.update w.position (lower w.name) lsn
      committed := lsn :: w.committed }
  else none

/-- Some other nodes have what `synchronous_standby_names` asks for. -/
def Confirms (w : QuorumCommit ν) (lsn : ℕ) (nodes : List ν) : Prop :=
  let ssn := parseSyncStandbyNames w.standbyNames
  ssn.num ≤ nodes.length ∧ (nodes.map lower).Nodup ∧
    (∀ node ∈ nodes, lower node ≠ lower w.name ∧ lsn ≤ w.position (lower node)) ∧
    (ssn.hasStar ∨ ∀ node ∈ nodes, node ∈ ssn.members)

instance (w : QuorumCommit ν) (lsn : ℕ) (nodes : List ν) : Decidable (w.Confirms lsn nodes) :=
  inferInstanceAs (Decidable (_ ∧ _))

/-- The leader acknowledges a commit that these nodes have received. -/
def acknowledge (w : QuorumCommit ν) (lsn : ℕ) (nodes : List ν) : Option (QuorumCommit ν) :=
  if lsn ∈ w.committed ∧ w.Confirms lsn nodes then
    some { w with acknowledged := lsn :: w.acknowledged }
  else none

/-- A replica receives WAL. -/
def receive (w : QuorumCommit ν) (node : ν) (lsn : ℕ) : Option (QuorumCommit ν) :=
  if lower node ≠ lower w.name ∧ w.position (lower node) ≤ lsn ∧ lsn ≤ w.lastOperation then
    some { w with position := Function.update w.position (lower node) lsn }
  else none

/-- Replicas appear, disappear or report another position. -/
def setReplicaList (w : QuorumCommit ν) (replicaList : List (Replica ν)) :
    Option (QuorumCommit ν) :=
  if ∀ replica ∈ replicaList, lower replica.applicationName ≠ lower w.name ∧
      replica.lsn ≤ w.position (lower replica.applicationName) then
    some { w with replicaList := replicaList }
  else none

/-- The resolver that `_process_quorum_replication` builds. -/
def resolver (w : QuorumCommit ν) (leader : ν) (state : ReplicationState ν) :
    QuorumStateResolver ν :=
  .init leader w.sync.quorum (.ofList w.sync.voters) state.numsync state.sync
    state.syncConfirmed.len state.active w.config.synchronousNodeCount w.name

/-- `_process_quorum_replication` up to its inner loop; an exception of the
resolver leaves nothing to apply. -/
def refresh (w : QuorumCommit ν) : Option (QuorumCommit ν) :=
  match w.sync.leader with
  | none => none
  | some leader =>
      let (handler, state) := w.handler.currentState w.standbyNames w.lastOperation w.replicaList
        w.config.synchronousNodeCount w.maximumLagOnSyncnode
      some { w with
        handler := handler
        pending := match (w.resolver leader state).iter with
          | .ok transitions => transitions
          | .error _ => [] }

/-- `write_sync_state`. -/
def writeSyncState (leader : ν) (syncStandby : CaseInsensitiveSet ν) (quorum : ℤ) : SyncState ν :=
  ⟨some leader, syncStandby.sorted, quorum⟩

/-- Write a `sync` transition, with at least the minimal number of nodes. -/
def applySync (w : QuorumCommit ν) (num : ℤ) (nodes : CaseInsensitiveSet ν) : QuorumCommit ν :=
  let (standbyNames, handler) := w.handler.setSynchronousStandbyNames w.standbyNames nodes
    (max num w.config.minSynchronousNodes) w.lastOperation
  { w with
    standbyNames := standbyNames
    handler := handler
    changedAt := if standbyNames = w.standbyNames then w.changedAt else w.lastOperation }

/-- One iteration of the inner loop of `_process_quorum_replication`. -/
def applyNext (w : QuorumCommit ν) : Option (QuorumCommit ν) :=
  match w.pending with
  | [] => none
  | t :: rest =>
      match t.transitionType with
      | .quorum => some { w with sync := writeSyncState t.leader t.names t.num, pending := rest }
      | .sync => some { w.applySync t.num t.names with pending := rest }
      | .restart => some { w with pending := rest }

/-- The steps of the nodes, of the operator and of the HA loop. -/
inductive Label (ν : Type)
  | commit (lsn : ℕ)
  | acknowledge (lsn : ℕ) (nodes : List ν)
  | receive (node : ν) (lsn : ℕ)
  | setReplicaList (replicaList : List (Replica ν))
  | configure (config : GlobalConfig)
  | refresh
  | applyNext
  /-- The loop ends, because of a timeout or a failed write. -/
  | stop

/-- One step. -/
def step (l : Label ν) (w : QuorumCommit ν) : Option (QuorumCommit ν) :=
  match l with
  | .commit lsn => w.commit lsn
  | .acknowledge lsn nodes => w.acknowledge lsn nodes
  | .receive node lsn => w.receive node lsn
  | .setReplicaList replicaList => w.setReplicaList replicaList
  | .configure config =>
      if config.isQuorumCommitMode then some { w with config := config } else none
  | .refresh => w.refresh
  | .applyNext => w.applyNext
  | .stop => some { w with pending := [] }

/-- The leader and the voters of the `/sync` key. -/
def voterNodes (w : QuorumCommit ν) : Finset ν := (w.sync.members.map lower).toFinset

/-- A node has received a commit. -/
def Holds (w : QuorumCommit ν) (lsn : ℕ) (node : ν) : Prop := lsn ≤ w.position node

instance (w : QuorumCommit ν) (lsn : ℕ) : DecidablePred (w.Holds lsn) :=
  fun node => inferInstanceAs (Decidable (lsn ≤ w.position node))

/-- Every choice of `quorum + 1` nodes from the `/sync` key holds every acknowledged commit. -/
def NoCommitLost (w : QuorumCommit ν) : Prop :=
  ∀ lsn ∈ w.acknowledged, Survives w.voterNodes w.sync.quorum (w.Holds lsn)

/-! ## The pair that the resolver works on -/

/-- The nodes that `current_state` reports as synchronous. -/
def syncMembers (standbyNames : StandbyNames ν) : CaseInsensitiveSet ν :=
  let ssn := parseSyncStandbyNames standbyNames
  if ssn.hasStar then ∅ else ssn.members

/-- The `/sync` key and `synchronous_standby_names`, as the resolver reads them. -/
def external (w : QuorumCommit ν) : External ν where
  leader := w.sync.leader.getD w.name
  quorum := w.sync.quorum
  voters := .ofList w.sync.voters
  numsync := min (parseSyncStandbyNames w.standbyNames).num (syncMembers w.standbyNames).len
  sync := syncMembers w.standbyNames

variable {w w' : QuorumCommit ν}

theorem voterNodes_eq (h : w.sync.leader = some w.name) :
    w.voterNodes = w.external.voterNodes := by
  simp only [voterNodes, SyncState.members, h, External.voterNodes, external, Option.getD_some,
    CaseInsensitiveSet.keys_ofList, List.map_cons, List.toFinset_cons]

theorem currentState_eq (handler : SyncHandler ν) (standbyNames : StandbyNames ν)
    (lastOperation : ℕ) (replicaList : List (Replica ν)) (syncNodeCount syncNodeMaxlag : ℤ) :
    let state := (handler.currentState standbyNames lastOperation replicaList syncNodeCount
      syncNodeMaxlag).2
    state.numsync = (parseSyncStandbyNames standbyNames).num ∧
      state.sync = syncMembers standbyNames := by
  simp only [SyncHandler.currentState, SyncHandler.processReplicaReadiness_ssnData,
    SyncHandler.handleSynchronousStandbyNamesChange_ssnData, syncMembers, and_self]

/-- The resolver starts from the external pair. -/
theorem resolver_external {leader : ν} (hl : w.sync.leader = some leader)
    {state : ReplicationState ν}
    (hnum : state.numsync = (parseSyncStandbyNames w.standbyNames).num)
    (hsync : state.sync = syncMembers w.standbyNames) :
    (w.resolver leader state).external = w.external := by
  simp only [resolver, QuorumStateResolver.init, QuorumStateResolver.external, external, hnum,
    hsync, hl, Option.getD_some]

theorem keys_ofList_sorted (s : CaseInsensitiveSet ν) :
    (CaseInsensitiveSet.ofList s.sorted).keys = s.keys := by
  rw [CaseInsensitiveSet.keys_ofList, CaseInsensitiveSet.sorted, CaseInsensitiveSet.keys]
  exact List.toFinset_eq_of_perm _ _ ((List.perm_insertionSort _ _).map lower)

/-- Writing a `quorum` transition moves the pair as the resolver does. -/
theorem applyQuorum_weaker {t : Transition ν} (ht : t.transitionType = .quorum) :
    External.Weaker (w.external.apply t)
      ({ w with sync := writeSyncState t.leader t.names t.num } : QuorumCommit ν).external := by
  rw [External.apply, ht]
  refine ⟨rfl, rfl, ?_, le_rfl, rfl⟩
  exact keys_ofList_sorted t.names

theorem standbyNamesOf_external {nodes : CaseInsensitiveSet ν} {num num' : ℤ} (hle : num ≤ num')
    (hlen : num ≤ nodes.len) :
    let standbyNames := SyncHandler.standbyNamesOf nodes num'
    num ≤ min (parseSyncStandbyNames standbyNames).num (syncMembers standbyNames).len ∧
      (syncMembers standbyNames).keys = nodes.keys := by
  simp only [SyncHandler.standbyNamesOf]
  by_cases hnodes : nodes.Truthy
  · rw [if_pos hnodes]
    simp only [syncMembers, parseSyncStandbyNames, Bool.false_eq_true, if_false,
      CaseInsensitiveSet.len_eq, keys_ofList_sorted]
    rw [CaseInsensitiveSet.len_eq] at hlen
    exact ⟨le_min hle hlen, trivial⟩
  · have hkeys : nodes.keys = ∅ := by
      rw [CaseInsensitiveSet.truthy_iff] at hnodes
      exact not_not.mp hnodes
    have hnum : num ≤ 0 := by
      rw [CaseInsensitiveSet.len_eq, hkeys] at hlen
      exact hlen
    rw [if_neg hnodes, hkeys]
    split
    · exact ⟨le_min hle hnum, rfl⟩
    · exact ⟨le_min hnum hnum, rfl⟩

theorem applySync_standbyNames (num : ℤ) (nodes : CaseInsensitiveSet ν) :
    (w.applySync num nodes).standbyNames =
      SyncHandler.standbyNamesOf nodes (max num w.config.minSynchronousNodes) := by
  simp only [applySync, SyncHandler.setSynchronousStandbyNames]
  split <;> rfl

/-- Writing a `sync` transition makes at least as many nodes synchronous as the resolver asks. -/
theorem applySync_weaker {t : Transition ν} (ht : t.transitionType = .sync)
    (hlen : t.num ≤ t.names.len) :
    External.Weaker (w.external.apply t) (w.applySync t.num t.names).external := by
  obtain ⟨hnum, hkeys⟩ := standbyNamesOf_external
    (le_max_left t.num w.config.minSynchronousNodes) hlen
  rw [← applySync_standbyNames] at hnum hkeys
  rw [External.apply, ht]
  exact ⟨rfl, rfl, rfl, hnum, hkeys⟩

/-! ## The invariant -/

/-- The synchronous nodes in effect hold a commit in the number that is asked for. -/
def SyncHolds (w : QuorumCommit ν) (lsn : ℕ) : Prop :=
  ∃ nodes ⊆ w.external.sync.keys, lower w.name ∉ nodes ∧ w.external.numsync ≤ nodes.card ∧
    ∀ node ∈ nodes, w.Holds lsn node

/-- What holds along every run that narrows `/sync` only over nodes that have caught up. -/
structure Inv (w : QuorumCommit ν) : Prop where
  leader : w.sync.leader = some w.name
  quorum : 0 ≤ w.sync.quorum
  pending : ∀ t ∈ w.pending, t.leader = w.name ∧ QuorumStateResolver.InRange t
  /-- The run may stop after any of the pending transitions. -/
  consistent : ∀ k, (w.external.applyAll (w.pending.take k)).Consistent w.name
  committed : ∀ lsn ∈ w.committed, lsn ≤ w.lastOperation
  acknowledged : ∀ lsn ∈ w.acknowledged, lsn ∈ w.committed
  /-- Acknowledged under the setting in effect. -/
  recent : ∀ lsn ∈ w.acknowledged, w.changedAt < lsn → w.SyncHolds lsn
  found : ∀ lsn ∈ w.acknowledged, ((missing w.voterNodes (w.Holds lsn)).card : ℤ) ≤ w.sync.quorum

/-- A `quorum` transition asks a race for no more nodes than before, or enough
of its voters have reached the position at which the setting was changed. -/
def NarrowsWhenCaughtUp (l : Label ν) (w : QuorumCommit ν) : Prop :=
  match l with
  | .applyNext => ∀ t ∈ w.pending.head?, t.transitionType = .quorum →
      w.sync.quorum + (t.names.keys \ (CaseInsensitiveSet.ofList w.sync.voters).keys).card ≤ t.num ∨
        (t.names.keys.card : ℤ) - t.num ≤ (t.names.keys.filter (w.Holds w.changedAt)).card
  | _ => True

instance (w : QuorumCommit ν) : (l : Label ν) → Decidable (NarrowsWhenCaughtUp l w)
  | .applyNext => inferInstanceAs (Decidable (∀ t ∈ w.pending.head?, _))
  | .commit _ | .acknowledge _ _ | .receive _ _ | .setReplicaList _ | .configure _ | .refresh
  | .stop => .isTrue trivial

/-- The overlap of voters and synchronous nodes: what enough of the latter
hold, a race among the former does not miss. -/
theorem card_missing_le_of_overlap {e : External ν} {name : ν} {p : ν → Prop} [DecidablePred p]
    {nodes : Finset ν} (hc : e.Consistent name) (hl : e.leader = name) (hq : 0 ≤ e.quorum)
    (hleader : p (lower name)) (hsub : nodes ⊆ e.sync.keys) (hname : lower name ∉ nodes)
    (hnum : e.numsync ≤ nodes.card) (hp : ∀ node ∈ nodes, p node) :
    ((missing e.voterNodes p).card : ℤ) ≤ e.quorum := by
  by_cases hv : e.voters.keys = ∅
  · -- only the leader is left
    have hnone : missing e.voterNodes p = ∅ := by
      rw [missing, External.voterNodes, hv, hl, Finset.filter_eq_empty_iff]
      intro node hnode
      obtain rfl := Finset.mem_singleton.mp hnode
      exact not_not.mpr hleader
    rw [hnone, Finset.card_empty]
    exact hq
  · have hgood : ∀ node ∈ insert (lower name) nodes, p node := by
      intro node hnode
      rcases Finset.mem_insert.mp hnode with rfl | hnode
      · exact hleader
      · exact hp node hnode
    have hcard := card_missing_add_card_le e.voterNodes hgood
    have hunion : (e.voterNodes ∪ insert (lower name) nodes).card ≤
        (e.voterNodes ∪ e.syncNodes name).card :=
      Finset.card_le_card (Finset.union_subset_union_right (Finset.insert_subset_insert _ hsub))
    have hoverlap := hc.overlap hv
    rw [Finset.card_insert_of_notMem hname] at hcard
    omega

theorem Inv.external_consistent (h : Inv w) : w.external.Consistent w.name := h.consistent 0

theorem Inv.external_leader (h : Inv w) : w.external.leader = w.name := by
  simp only [external, h.leader, Option.getD_some]

theorem Inv.leader_holds (h : Inv w) {lsn : ℕ} (hlsn : lsn ∈ w.acknowledged) :
    w.Holds lsn (lower w.name) :=
  h.committed lsn (h.acknowledged lsn hlsn)

theorem init_inv (name : ν) (position : ν → ℕ) (config : GlobalConfig)
    (maximumLagOnSyncnode : ℤ) : Inv (init name position config maximumLagOnSyncnode) where
  leader := rfl
  quorum := le_rfl
  pending := by simp [init]
  consistent := by
    intro k
    have hnil : (init name position config maximumLagOnSyncnode).pending.take k = [] :=
      List.take_nil
    rw [hnil, External.applyAll_nil]
    refine ⟨fun hv => absurd rfl hv, Or.inl ?_⟩
    exact Finset.insert_subset_insert _ (Finset.empty_subset _)
  committed := by simp [init]
  acknowledged := by simp [init]
  recent := by simp [init]
  found := by simp [init]

/-- Positions only grow, and with them what a node holds. -/
theorem Inv.of_position {position : ν → ℕ} {committed : List ℕ} (h : Inv w)
    (hgrow : ∀ node, w.position node ≤ position node)
    (hsub : ∀ lsn ∈ w.committed, lsn ∈ committed)
    (hcommitted : ∀ lsn ∈ committed, lsn ≤ position (lower w.name)) :
    Inv { w with position := position, committed := committed } where
  leader := h.leader
  quorum := h.quorum
  pending := h.pending
  consistent := h.consistent
  committed := hcommitted
  acknowledged lsn hlsn := hsub lsn (h.acknowledged lsn hlsn)
  recent := by
    intro lsn hlsn hrecent
    obtain ⟨nodes, hnodes, hname, hnum, hholds⟩ := h.recent lsn hlsn hrecent
    exact ⟨nodes, hnodes, hname, hnum, fun node hnode => (hholds node hnode).trans (hgrow node)⟩
  found := by
    intro lsn hlsn
    have hmono : (missing w.voterNodes fun node => lsn ≤ position node).card ≤
        (missing w.voterNodes (w.Holds lsn)).card :=
      card_missing_mono fun node _ hholds => hholds.trans (hgrow node)
    have hfound := h.found lsn hlsn
    calc (((missing w.voterNodes fun node => lsn ≤ position node).card : ℕ) : ℤ)
        ≤ (missing w.voterNodes (w.Holds lsn)).card := by exact_mod_cast hmono
      _ ≤ w.sync.quorum := hfound

theorem commit_inv {lsn : ℕ} (h : Inv w) (hs : w.commit lsn = some w') : Inv w' := by
  simp only [commit, Option.ite_none_right_eq_some, Option.some.injEq] at hs
  obtain ⟨hlt, rfl⟩ := hs
  apply h.of_position
  · intro node
    by_cases hnode : node = lower w.name
    · subst hnode
      rw [Function.update_self]
      exact hlt.le
    · rw [Function.update_of_ne hnode]
  · intro old hold
    exact List.mem_cons_of_mem lsn hold
  · intro old hold
    rw [Function.update_self]
    rcases List.mem_cons.mp hold with rfl | hold
    · exact le_rfl
    · exact (h.committed old hold).trans hlt.le

theorem receive_inv {node : ν} {lsn : ℕ} (h : Inv w) (hs : w.receive node lsn = some w') :
    Inv w' := by
  simp only [receive, Option.ite_none_right_eq_some, Option.some.injEq] at hs
  obtain ⟨⟨hne, hle, -⟩, rfl⟩ := hs
  refine h.of_position ?_ (fun _ hold => hold) ?_
  · intro other
    by_cases hother : other = lower node
    · subst hother
      rw [Function.update_self]
      exact hle
    · rw [Function.update_of_ne hother]
  · intro old hold
    rw [Function.update_of_ne hne.symm]
    exact h.committed old hold

/-- The nodes that confirm a commit are synchronous nodes in effect. -/
theorem syncHolds_of_confirms {lsn : ℕ} {nodes : List ν} (h : w.Confirms lsn nodes) :
    w.SyncHolds lsn := by
  obtain ⟨hnum, hnodup, hnodes, hmembers⟩ := h
  cases hstar : (parseSyncStandbyNames w.standbyNames).hasStar with
  | true =>
      refine ⟨∅, Finset.empty_subset _, Finset.notMem_empty _, ?_, by simp⟩
      simp only [external, syncMembers, hstar, if_true]
      exact min_le_right _ _
  | false =>
      have hmembers : ∀ node ∈ nodes, node ∈ (parseSyncStandbyNames w.standbyNames).members := by
        rcases hmembers with hstar' | hmembers
        · exact absurd (hstar'.symm.trans hstar) Bool.noConfusion
        · exact hmembers
      refine ⟨(nodes.map lower).toFinset, ?_, ?_, ?_, ?_⟩
      · intro node hnode
        obtain ⟨name, hname, rfl⟩ := List.mem_map.mp (List.mem_toFinset.mp hnode)
        simp only [external, syncMembers, hstar]
        exact (CaseInsensitiveSet.mem_iff _ _).mp (hmembers name hname)
      · intro hname
        obtain ⟨node, hnode, heq⟩ := List.mem_map.mp (List.mem_toFinset.mp hname)
        exact (hnodes node hnode).1 heq
      · rw [List.toFinset_card_of_nodup hnodup, List.length_map]
        exact (min_le_left _ _).trans hnum
      · intro node hnode
        obtain ⟨name, hname, rfl⟩ := List.mem_map.mp (List.mem_toFinset.mp hnode)
        exact (hnodes name hname).2

theorem acknowledge_inv {lsn : ℕ} {nodes : List ν} (h : Inv w)
    (hs : w.acknowledge lsn nodes = some w') : Inv w' := by
  simp only [acknowledge, Option.ite_none_right_eq_some, Option.some.injEq] at hs
  obtain ⟨⟨hcommitted, hconfirms⟩, rfl⟩ := hs
  have hsync := syncHolds_of_confirms hconfirms
  refine ⟨h.leader, h.quorum, h.pending, h.consistent, h.committed, ?_, ?_, ?_⟩
  · intro old hold
    rcases List.mem_cons.mp hold with rfl | hold
    · exact hcommitted
    · exact h.acknowledged old hold
  · intro old hold hrecent
    rcases List.mem_cons.mp hold with rfl | hold
    · exact hsync
    · exact h.recent old hold hrecent
  · intro old hold
    rcases List.mem_cons.mp hold with rfl | hold
    · obtain ⟨holders, hsub, hname, hnum, hholds⟩ := hsync
      change ((missing w.voterNodes (w.Holds old)).card : ℤ) ≤ _
      rw [voterNodes_eq h.leader]
      exact card_missing_le_of_overlap h.external_consistent h.external_leader h.quorum
        (h.committed old hcommitted) hsub hname hnum hholds
    · exact h.found old hold

/-- What the resolver makes of the current state starts a new list of transitions. -/
theorem refresh_inv (h : Inv w) (hs : w.refresh = some w') : Inv w' := by
  simp only [refresh, h.leader] at hs
  obtain ⟨hnum, hsync⟩ := currentState_eq w.handler w.standbyNames w.lastOperation w.replicaList
    w.config.synchronousNodeCount w.maximumLagOnSyncnode
  generalize w.handler.currentState w.standbyNames w.lastOperation w.replicaList
    w.config.synchronousNodeCount w.maximumLagOnSyncnode = current at hs hnum hsync
  have hexternal := resolver_external h.leader hnum hsync
  have hcheck : (w.resolver w.name current.2).checkInvariants = .ok () := by
    rw [QuorumStateResolver.checkInvariants_eq_ok_iff, hexternal]
    exact h.external_consistent
  obtain rfl := Option.some.inj hs
  cases hiter : (w.resolver w.name current.2).iter with
  | ok transitions =>
      refine ⟨h.leader, h.quorum, ?_, ?_, h.committed, h.acknowledged, h.recent, h.found⟩
      · exact QuorumStateResolver.iter_keepsLeader rfl hcheck hiter
      · intro k
        have hpre := QuorumStateResolver.iter_take_consistent hcheck hiter k
        rw [hexternal] at hpre
        exact hpre
  | error e =>
      refine ⟨h.leader, h.quorum, by simp, ?_, h.committed, h.acknowledged, h.recent, h.found⟩
      intro k
      rw [List.take_nil]
      exact h.external_consistent

/-- After a transition the rest of the list starts from where the resolver expects it. -/
theorem Inv.consistent_rest {t : Transition ν} {rest : List (Transition ν)} {e : External ν}
    (h : Inv w) (hpending : w.pending = t :: rest) (he : External.Weaker (w.external.apply t) e)
    (k : ℕ) : (e.applyAll (rest.take k)).Consistent w.name := by
  have hnext := h.consistent (k + 1)
  rw [hpending, List.take_succ_cons, External.applyAll_cons] at hnext
  exact (he.applyAll (rest.take k)).consistent hnext

/-- Voters that have reached a position hold every commit up to it. -/
theorem card_missing_le_of_reached {e : External ν} {name : ν} {position lsn : ℕ}
    (hl : e.leader = name) (hle : lsn ≤ position) (hleader : w.Holds lsn (lower name))
    (hreached : (e.voters.keys.card : ℤ) - e.quorum ≤
      (e.voters.keys.filter (w.Holds position)).card) :
    ((missing e.voterNodes (w.Holds lsn)).card : ℤ) ≤ e.quorum := by
  have hsub : missing e.voterNodes (w.Holds lsn) ⊆
      e.voters.keys.filter fun node => ¬ w.Holds position node := by
    intro node hnode
    obtain ⟨hmem, hnot⟩ := Finset.mem_filter.mp hnode
    rw [External.voterNodes, hl] at hmem
    rcases Finset.mem_insert.mp hmem with rfl | hmem
    · exact absurd hleader hnot
    · exact Finset.mem_filter.mpr ⟨hmem, fun hreach => hnot (hle.trans hreach)⟩
  have hcard := Finset.card_le_card hsub
  have hsum := Finset.card_filter_add_card_filter_not (s := e.voters.keys) (w.Holds position)
  omega

/-- A `quorum` transition keeps every acknowledged commit in reach. -/
theorem applyQuorum_found {t : Transition ν} {e : External ν} (h : Inv w)
    (he : External.Weaker (w.external.apply t) e) (ht : t.transitionType = .quorum)
    (hleader : t.leader = w.name) (hrange : 0 ≤ t.num) (hc : e.Consistent w.name)
    (hsync : e.sync = w.external.sync) (hnum : e.numsync = w.external.numsync)
    (hguard : w.sync.quorum +
        (t.names.keys \ (CaseInsensitiveSet.ofList w.sync.voters).keys).card ≤ t.num ∨
      (t.names.keys.card : ℤ) - t.num ≤ (t.names.keys.filter (w.Holds w.changedAt)).card)
    {lsn : ℕ} (hlsn : lsn ∈ w.acknowledged) :
    ((missing e.voterNodes (w.Holds lsn)).card : ℤ) ≤ e.quorum := by
  have heleader : e.leader = w.name := by
    rw [he.leader, External.apply, ht, hleader]
  have hequorum : e.quorum = t.num := by
    rw [he.quorum, External.apply, ht]
  have hevoters : e.voters.keys = t.names.keys := by
    rw [he.voters, External.apply, ht]
  rcases hguard with hwiden | hreached
  · -- the new voters are the only ones that may lack a commit that was in reach before
    have hnew : e.voterNodes \ w.external.voterNodes ⊆
        t.names.keys \ (CaseInsensitiveSet.ofList w.sync.voters).keys := by
      intro node hnode
      simp only [External.voterNodes, heleader, h.external_leader, hevoters, Finset.mem_sdiff,
        Finset.mem_insert, not_or] at hnode ⊢
      obtain ⟨hmem, hne, hold⟩ := hnode
      exact ⟨hmem.resolve_left hne, hold⟩
    have hadd := card_missing_le_add (p := w.Holds lsn) w.external.voterNodes e.voterNodes
    have hcard := Finset.card_le_card hnew
    have hfound := h.found lsn hlsn
    rw [voterNodes_eq h.leader] at hfound
    omega
  · by_cases hrecent : w.changedAt < lsn
    · obtain ⟨nodes, hsub, hname, hnodes, hholds⟩ := h.recent lsn hlsn hrecent
      rw [← hsync] at hsub
      rw [← hnum] at hnodes
      exact card_missing_le_of_overlap hc heleader (hequorum ▸ hrange) (h.leader_holds hlsn) hsub
        hname hnodes hholds
    · refine card_missing_le_of_reached heleader (not_lt.mp hrecent) (h.leader_holds hlsn) ?_
      rw [hevoters, hequorum]
      exact hreached

theorem applyNext_inv (h : Inv w) (hguard : NarrowsWhenCaughtUp .applyNext w)
    (hs : w.applyNext = some w') : Inv w' := by
  cases hpending : w.pending with
  | nil => simp [applyNext, hpending] at hs
  | cons t rest =>
      have hrest : ∀ u ∈ rest, u.leader = w.name ∧ QuorumStateResolver.InRange u := by
        intro u hu
        exact h.pending u (hpending ▸ List.mem_cons_of_mem t hu)
      obtain ⟨hleader, hrange⟩ := h.pending t (hpending ▸ List.mem_cons_self)
      simp only [applyNext, hpending] at hs
      cases ht : t.transitionType with
      | quorum =>
          simp only [ht, Option.some.injEq] at hs
          simp only [QuorumStateResolver.InRange, ht] at hrange
          have hguard := hguard t (by rw [hpending, List.head?_cons, Option.mem_some])
          have hweaker := applyQuorum_weaker (w := w) ht
          have hcons := h.consistent_rest hpending hweaker
          subst hs
          refine ⟨congrArg some hleader, hrange, hrest, hcons, h.committed, h.acknowledged,
            h.recent, ?_⟩
          intro lsn hlsn
          rw [voterNodes_eq (congrArg some hleader)]
          exact applyQuorum_found h hweaker ht hleader hrange (hcons 0) rfl rfl (hguard ht) hlsn
      | sync =>
          simp only [ht, Option.some.injEq] at hs
          simp only [QuorumStateResolver.InRange, ht] at hrange
          have hcons := h.consistent_rest hpending (applySync_weaker (w := w) ht hrange)
          subst hs
          refine ⟨h.leader, h.quorum, hrest, hcons, h.committed, h.acknowledged, ?_, h.found⟩
          intro lsn hlsn hrecent
          by_cases hsame : (w.applySync t.num t.names).standbyNames = w.standbyNames
          · have hchanged : (w.applySync t.num t.names).changedAt = w.changedAt := if_pos hsame
            have hexternal : (w.applySync t.num t.names).external = w.external := by
              rw [external, hsame]
              rfl
            obtain ⟨nodes, hsub, hname, hnum, hholds⟩ := h.recent lsn hlsn (hchanged ▸ hrecent)
            rw [← hexternal] at hsub hnum
            exact ⟨nodes, hsub, hname, hnum, hholds⟩
          · -- nothing has been acknowledged under the new setting yet
            have hchanged : (w.applySync t.num t.names).changedAt = w.lastOperation :=
              if_neg hsame
            have hlt : w.lastOperation < lsn := hchanged ▸ hrecent
            exact absurd (h.leader_holds hlsn) (not_le.mpr hlt)
      | restart =>
          simp only [ht, Option.some.injEq] at hs
          subst hs
          refine ⟨h.leader, h.quorum, hrest, ?_, h.committed, h.acknowledged, h.recent, h.found⟩
          refine h.consistent_rest hpending ?_
          rw [External.apply_restart w.external ht]
          exact ⟨rfl, rfl, rfl, le_rfl, rfl⟩

theorem step_inv {l : Label ν} (hguard : NarrowsWhenCaughtUp l w) (hs : step l w = some w')
    (h : Inv w) : Inv w' := by
  cases l with
  | commit lsn => exact commit_inv h hs
  | acknowledge lsn nodes => exact acknowledge_inv h hs
  | receive node lsn => exact receive_inv h hs
  | setReplicaList replicaList =>
      simp only [step, setReplicaList, Option.ite_none_right_eq_some, Option.some.injEq] at hs
      obtain ⟨-, rfl⟩ := hs
      exact ⟨h.leader, h.quorum, h.pending, h.consistent, h.committed, h.acknowledged, h.recent,
        h.found⟩
  | configure config =>
      simp only [step, Option.ite_none_right_eq_some, Option.some.injEq] at hs
      obtain ⟨-, rfl⟩ := hs
      exact ⟨h.leader, h.quorum, h.pending, h.consistent, h.committed, h.acknowledged, h.recent,
        h.found⟩
  | refresh => exact refresh_inv h hs
  | applyNext => exact applyNext_inv h hguard hs
  | stop =>
      obtain rfl := Option.some.inj hs
      refine ⟨h.leader, h.quorum, by simp, ?_, h.committed, h.acknowledged, h.recent, h.found⟩
      intro k
      rw [List.take_nil]
      exact h.external_consistent

/-- No acknowledged commit is lost in a run that narrows `/sync` only when
enough of its voters have reached the position at which
`synchronous_standby_names` was last changed. -/
theorem no_commit_lost (name : ν) (position : ν → ℕ) (config : GlobalConfig)
    (maximumLagOnSyncnode : ℤ) (labels : List (Label ν)) (w : QuorumCommit ν)
    (run : Run step NarrowsWhenCaughtUp (init name position config maximumLagOnSyncnode) labels w) :
    w.NoCommitLost := by
  have h : Inv w := run.invariant (fun _ _ _ hguard hs => step_inv hguard hs)
    (init_inv name position config maximumLagOnSyncnode)
  intro lsn hlsn
  exact survives_of_card_missing_le (h.found lsn hlsn)

/-- Quorum commit with a number of synchronous nodes. -/
def quorumConfig (synchronousNodeCount : ℤ) : GlobalConfig :=
  ⟨.quorum, false, false, synchronousNodeCount⟩

/-- Two replicas at their positions. -/
def replicasBC (syncState : ReplicaSyncState) (lsnB lsnC : ℕ) : List (Replica String) :=
  [⟨1, "b", syncState, lsnB, false⟩, ⟨2, "c", syncState, lsnC, false⟩]

/-- A leader `a` gets two synchronous replicas, of which one is enough, and commits. -/
def commitOnC : List (Label String) :=
  [.setReplicaList (replicasBC .async 0 0), .refresh, .applyNext, .applyNext,
    .setReplicaList (replicasBC .quorum 0 0), .refresh, .applyNext, .commit 1, .receive "c" 1,
    .acknowledge 1 ["c"]]

/-- The second replica catches up before both of them are asked for. -/
theorem no_commit_lost_when_caught_up :
    let labels := commitOnC ++ [.receive "b" 1, .configure (quorumConfig 2), .refresh, .applyNext,
      .applyNext]
    ∃ w, Run step NarrowsWhenCaughtUp (init "a" (fun _ => 0) (quorumConfig 1) 0) labels w ∧
      (w.acknowledged = [1] ∧ w.sync = ⟨some "a", ["b", "c"], 0⟩) ∧ w.NoCommitLost := by
  intro labels
  have hexec : (execGuarded step NarrowsWhenCaughtUp labels
      (init "a" (fun _ => 0) (quorumConfig 1) 0)).any (fun w =>
        w.acknowledged = [1] ∧ w.sync = ⟨some "a", ["b", "c"], 0⟩) = true := by
    decide +kernel
  obtain ⟨w, hw, hresult⟩ := (Option.any_eq_true _ _).mp hexec
  have run := run_of_execGuarded hw
  exact ⟨w, run, of_decide_eq_true hresult, no_commit_lost _ _ _ _ labels w run⟩

/-- The second replica has been ready before, so the number of synchronous
nodes is raised and the quorum lowered at once; the commit is not on `b`. -/
theorem raised_factor_loses_commit :
    let labels := commitOnC ++ [.configure (quorumConfig 2), .refresh, .applyNext, .applyNext]
    ∃ w, Run step (fun _ _ => True) (init "a" (fun _ => 0) (quorumConfig 1) 0) labels w ∧
      ¬ w.NoCommitLost := by
  intro labels
  have hexec : (exec step labels (init "a" (fun _ => 0) (quorumConfig 1) 0)).any (fun w =>
      w.acknowledged = [1] ∧ w.sync = ⟨some "a", ["b", "c"], 0⟩ ∧ w.position "b" = 0) = true := by
    decide +kernel
  obtain ⟨w, hw, hresult⟩ := (Option.any_eq_true _ _).mp hexec
  obtain ⟨hacknowledged, hsync, hposition⟩ := of_decide_eq_true hresult
  refine ⟨w, run_of_exec hw (guarded_true labels _), ?_⟩
  intro hfound
  have hnode : ({"b"} : Finset String) ⊆ w.voterNodes := by
    rw [voterNodes, hsync]
    decide +kernel
  have hcard : ((({"b"} : Finset String).card : ℕ) : ℤ) = w.sync.quorum + 1 := by
    rw [hsync, Finset.card_singleton]
    rfl
  obtain ⟨node, hmem, hholds⟩ :=
    hfound 1 (hacknowledged ▸ List.mem_cons_self) {"b"} hnode hcard
  obtain rfl := Finset.mem_singleton.mp hmem
  rw [Holds, hposition] at hholds
  omega

end QuorumCommit

end Metatroni
