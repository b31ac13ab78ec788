import Metatroni.Ha.LeaderRace
import Metatroni.Lib.Dict
import Metatroni.Lib.Runs

/-!
# The cluster views of the HA loop

`Ha` has two views of the cluster, the one that it has just loaded from the DCS
and the last one with a leader. A view refers to the list of its members, and
two views may refer to the same list. `is_healthiest_node` puts together all
members that it knows of, and does that in the list of the old view.

## Implementation notes

Lists are objects: a reference is an index into the lists that have been created
so far. Every view carries the members that were loaded for it beside the
reference, for comparison.
-/

namespace Metatroni

namespace Ha

open Runs

variable {ν : Type} [NodeName ν]

/-- What `get_cluster` returns. -/
structure LoadedCluster (ν : Type) where
  /-- The name of the leader, if there is one. -/
  leader : Option ν
  /-- All attributes other than the members are unpopulated. -/
  attributesEmpty : Bool
  members : List (Member ν)

/-- A `Cluster` object. -/
structure View (ν : Type) where
  leader : Option ν
  attributesEmpty : Bool
  /-- The list object of the members. -/
  members : ℕ
  /-- The members as they were loaded. -/
  loaded : List (Member ν)

/-- `cluster` and `old_cluster`, and the list objects. -/
structure Views (ν : Type) where
  lists : List (List (Member ν))
  cluster : View ν
  oldCluster : View ν

/-- What `is_healthiest_node` finds when it is called. -/
structure Turn (ν : Type) where
  /-- The leader key was released voluntarily less than a `ttl` ago. -/
  backoff : Bool
  isPaused : Bool
  /-- The tag of this node. -/
  nofailover : Bool
  /-- The failover key: whether it has a time, and whether it names a leader. -/
  failover : Option (Bool × Bool)
  /-- What `manual_failover_process_no_leader` returns. -/
  manualFailover : Option Bool
  isStarting : Bool
  isPrimary : Bool
  /-- There is no `initialize` key, or it holds the `sysid` of this node. -/
  sysidMatches : Bool
  primaryTimeline : Option ℤ
  watchdogIsHealthy : Bool
  isFailsafeMode : Bool
  /-- The `/failsafe` key, `none` if it is not a dictionary. -/
  failsafe : Option (Dict ν String)
  race : Race ν
  request : Member ν → Option ApiResponse
  asCompleted : AsCompleted (MemberStatus ν)

namespace Turn

/-- The timeline of a running primary is unknown or behind. -/
def primaryIsBehind (turn : Turn ν) : Bool :=
  turn.race.hasTimelines &&
    match turn.primaryTimeline with
    | none => true
    | some timeline => timeline < turn.race.clusterTimeline

/-- The failsafe mode is on and the node is missing in the `/failsafe` key. -/
def isDisqualified (turn : Turn ν) : Bool :=
  turn.isFailsafeMode &&
    match turn.failsafe with
    | none => false
    | some members => !members.isEmpty && turn.race.name ∉ members

/-- The node does not take part in a switchover of the synchronous mode. -/
def isExcluded (turn : Turn ν) : Bool :=
  turn.race.syncModeIsActive && !turn.race.sync.matchesName turn.race.name true

/-- The result of `is_healthiest_node` where it returns before it looks at the members. -/
def early (turn : Turn ν) : Option Bool :=
  if turn.backoff then some false
  else if turn.isPaused && !turn.nofailover && turn.failover.any (fun f => !f.1) &&
      turn.manualFailover.isSome then turn.manualFailover
  else if turn.isStarting then some false
  else if turn.isPrimary then
    if turn.isPaused then some turn.sysidMatches else some !turn.primaryIsBehind
  else if turn.isPaused then some false
  else if turn.nofailover then some false
  else
    match turn.failover with
    | some (_, leader) =>
        if leader && turn.isExcluded then some false else some (turn.manualFailover.getD false)
    | none =>
        if !turn.watchdogIsHealthy then some false
        else if turn.isDisqualified then some false
        else none

/-- `RemoteMember` objects for the `/failsafe` key. -/
def failsafeMembers (turn : Turn ν) : List (Member ν) :=
  if turn.isFailsafeMode then
    match turn.failsafe with
    | none => []
    | some members => members.entries.map fun e => ⟨e.1, e.2 ≠ "", ⟨none, none⟩, ""⟩
  else []

/-- `{m.name: m for m in members}.values()`. -/
def byName (members : List (Member ν)) : List (Member ν) :=
  (members.foldl (fun (d : Dict ν (Member ν)) m => d.set m.name m) ∅).entries.map fun e => e.2

/-- The end of `is_healthiest_node`, with all known members. -/
def finish (turn : Turn ν) (allKnownMembers : List (Member ν)) (leader : Option ν) : Bool :=
  if turn.race.syncModeIsActive then
    if !turn.race.config.isQuorumCommitMode &&
        !turn.race.sync.matchesName turn.race.name true then false
    else
      turn.race.isHealthiestNode turn.request turn.asCompleted
        (byName (allKnownMembers.filter fun m => turn.race.sync.matchesName m.name true)) true
        leader
  else
    turn.race.isHealthiestNode turn.request turn.asCompleted (byName allKnownMembers) true leader

end Turn

namespace Views

/-- The contents of a list object. -/
def read (s : Views ν) (list : ℕ) : List (Member ν) := s.lists.getD list []

/-- `list += members`. -/
def extend (s : Views ν) (list : ℕ) (members : List (Member ν)) : Views ν :=
  { s with lists := s.lists.set list (s.read list ++ members) }

/-- `Cluster.is_empty`. -/
def isEmpty (s : Views ν) (view : View ν) : Bool :=
  view.attributesEmpty && (s.read view.members).isEmpty

/-- Two empty clusters. -/
def init : Views ν := ⟨[[], []], ⟨none, true, 0, []⟩, ⟨none, true, 1, []⟩⟩

/-- `load_cluster_from_dcs`. In failsafe mode the leader that was last heard of is put into
the view, which refers to the same list. -/
def loadClusterFromDcs (s : Views ν) (loaded : LoadedCluster ν) (isFailsafeMode : Bool)
    (failsafeLeader : Option ν) : Views ν :=
  let cluster : View ν := ⟨loaded.leader, loaded.attributesEmpty, s.lists.length, loaded.members⟩
  { lists := s.lists ++ [loaded.members]
    oldCluster := if cluster.leader.isSome || s.isEmpty s.oldCluster then cluster else s.oldCluster
    cluster :=
      match failsafeLeader with
      | some leader =>
          if cluster.leader.isNone && isFailsafeMode then
            { cluster with leader := some leader, attributesEmpty := false }
          else cluster
      | none => cluster }

/-- The two assignments to `all_known_members`, which is the list of the old view. -/
def combine (s : Views ν) (failsafeMembers : List (Member ν)) : Views ν :=
  let allKnownMembers := s.oldCluster.members
  let s := s.extend allKnownMembers failsafeMembers
  s.extend allKnownMembers (s.read s.cluster.members)

/-- `is_healthiest_node`. -/
def isHealthiestNode (s : Views ν) (turn : Turn ν) : Views ν × Bool :=
  match turn.early with
  | some result => (s, result)
  | none =>
      let s := s.combine turn.failsafeMembers
      (s, turn.finish (s.read s.oldCluster.members) s.oldCluster.leader)

inductive Label (ν : Type)
  | load (loaded : LoadedCluster ν) (isFailsafeMode : Bool) (failsafeLeader : Option ν)
  | race (turn : Turn ν)

def step (l : Label ν) (s : Views ν) : Option (Views ν) :=
  match l with
  | .load loaded isFailsafeMode failsafeLeader =>
      some (s.loadClusterFromDcs loaded isFailsafeMode failsafeLeader)
  | .race turn => some (s.isHealthiestNode turn).1

/-- The members of both views are those that were loaded. -/
def Intact (s : Views ν) : Prop :=
  s.read s.cluster.members = s.cluster.loaded ∧ s.read s.oldCluster.members = s.oldCluster.loaded

instance (s : Views ν) : Decidable s.Intact := inferInstanceAs (Decidable (_ ∧ _))

/-- A race is over before it looks at the members, or finds no members besides those of the
old view. -/
def AddsNothing (l : Label ν) (s : Views ν) : Prop :=
  match l with
  | .load .. => True
  | .race turn => turn.early ≠ none ∨ turn.failsafeMembers = [] ∧ s.read s.cluster.members = []

/-! ## One call -/

/-- The views refer to lists that were created. -/
def Allocated (s : Views ν) : Prop :=
  s.cluster.members < s.lists.length ∧ s.oldCluster.members < s.lists.length

variable {s : Views ν}

omit [NodeName ν] in
theorem read_extend {list : ℕ} (h : list < s.lists.length) (members : List (Member ν))
    (list' : ℕ) :
    (s.extend list members).read list' =
      if list' = list then s.read list ++ members else s.read list' := by
  unfold extend read
  by_cases heq : list' = list
  · subst heq
    rw [if_pos rfl, List.getD_eq_getElem?_getD, List.getElem?_set_self h, Option.getD_some]
  · rw [if_neg heq, List.getD_eq_getElem?_getD, List.getElem?_set_ne (fun he => heq he.symm),
      List.getD_eq_getElem?_getD]

omit [NodeName ν] in
theorem read_append {list : ℕ} (h : list < s.lists.length) (lists : List (List (Member ν)))
    (cluster oldCluster : View ν) :
    read ⟨s.lists ++ lists, cluster, oldCluster⟩ list = s.read list := by
  unfold read
  rw [List.getD_eq_getElem?_getD, List.getD_eq_getElem?_getD, List.getElem?_append_left h]

omit [NodeName ν] in
theorem read_append_length (members : List (Member ν)) (cluster oldCluster : View ν) :
    read ⟨s.lists ++ [members], cluster, oldCluster⟩ s.lists.length = members := by
  simp [read]

omit [NodeName ν] in
theorem init_allocated : (init : Views ν).Allocated := ⟨Nat.zero_lt_two, Nat.one_lt_two⟩

omit [NodeName ν] in
theorem init_intact : (init : Views ν).Intact := ⟨rfl, rfl⟩

omit [NodeName ν] in
/-- A view that is loaded has a list of its own, and the old view is that or what it was. -/
theorem load_spec (s : Views ν) (loaded : LoadedCluster ν) (isFailsafeMode : Bool)
    (failsafeLeader : Option ν) :
    let s' := s.loadClusterFromDcs loaded isFailsafeMode failsafeLeader
    s'.lists = s.lists ++ [loaded.members] ∧
      (s'.cluster.members = s.lists.length ∧ s'.cluster.loaded = loaded.members) ∧
      (s'.oldCluster = s.oldCluster ∨
        s'.oldCluster.members = s.lists.length ∧ s'.oldCluster.loaded = loaded.members) := by
  refine ⟨rfl, ?_, ?_⟩
  · unfold loadClusterFromDcs
    cases failsafeLeader with
    | none => exact ⟨rfl, rfl⟩
    | some leader =>
        dsimp only
        split <;> exact ⟨rfl, rfl⟩
  · unfold loadClusterFromDcs
    dsimp only
    split
    · exact .inr ⟨rfl, rfl⟩
    · exact .inl rfl

theorem step_allocated {l : Label ν} {s' : Views ν} (hstep : step l s = some s')
    (h : s.Allocated) : s'.Allocated := by
  cases l with
  | load loaded isFailsafeMode failsafeLeader =>
      obtain rfl := Option.some.inj hstep
      obtain ⟨hlists, ⟨hcluster, -⟩, hold⟩ := load_spec s loaded isFailsafeMode failsafeLeader
      have hlength : s.lists.length < (s.lists ++ [loaded.members]).length := by simp
      unfold Allocated
      rw [hlists, hcluster]
      refine ⟨hlength, ?_⟩
      rcases hold with hold | ⟨hold, -⟩
      · rw [hold]
        exact h.2.trans hlength
      · rw [hold]
        exact hlength
  | race turn =>
      obtain rfl := Option.some.inj hstep
      unfold isHealthiestNode
      split
      · exact h
      · simpa [Allocated, combine, extend] using h

omit [NodeName ν] in
/-- Loading a cluster leaves the lists of the old view alone. -/
theorem load_intact (hallocated : s.Allocated) (h : s.Intact) (loaded : LoadedCluster ν)
    (isFailsafeMode : Bool) (failsafeLeader : Option ν) :
    (s.loadClusterFromDcs loaded isFailsafeMode failsafeLeader).Intact := by
  obtain ⟨hlists, ⟨hcluster, hloaded⟩, hold⟩ := load_spec s loaded isFailsafeMode failsafeLeader
  generalize s.loadClusterFromDcs loaded isFailsafeMode failsafeLeader = s' at *
  obtain ⟨lists, cluster, oldCluster⟩ := s'
  dsimp only at hlists hcluster hloaded hold
  subst hlists
  constructor
  · dsimp only
    rw [hcluster, hloaded, read_append_length]
  · rcases hold with rfl | ⟨hmembers, hloaded'⟩
    · dsimp only
      rw [read_append hallocated.2, h.2]
    · dsimp only
      rw [hmembers, hloaded', read_append_length]

omit [NodeName ν] in
theorem read_combine (h : s.oldCluster.members < s.lists.length)
    (failsafeMembers : List (Member ν)) (list : ℕ) :
    (s.combine failsafeMembers).read list =
      if list = s.oldCluster.members then
        s.read s.oldCluster.members ++ failsafeMembers ++
          (if s.cluster.members = s.oldCluster.members then
            s.read s.oldCluster.members ++ failsafeMembers else s.read s.cluster.members)
      else s.read list := by
  have h' : s.oldCluster.members <
      (s.extend s.oldCluster.members failsafeMembers).lists.length := by
    simpa [extend] using h
  unfold combine
  rw [read_extend h', read_extend h, read_extend h, read_extend h, if_pos rfl]
  split <;> rfl

omit [NodeName ν] in
theorem combine_intact_iff (hallocated : s.Allocated) (h : s.Intact)
    (failsafeMembers : List (Member ν)) :
    (s.combine failsafeMembers).Intact ↔
      failsafeMembers = [] ∧ s.read s.cluster.members = [] := by
  have hread := read_combine hallocated.2 failsafeMembers
  constructor
  · rintro ⟨-, hold⟩
    -- something was appended to the list, and it is what it was
    have hsame := ((hread s.oldCluster.members).symm.trans hold).trans h.2.symm
    rw [if_pos rfl, List.append_assoc, List.append_right_eq_self] at hsame
    obtain ⟨hfailsafe, hmembers⟩ := List.append_eq_nil_iff.mp hsame
    refine ⟨hfailsafe, ?_⟩
    rw [hfailsafe, List.append_nil] at hmembers
    split at hmembers
    · next heq => rw [heq, hmembers]
    · exact hmembers
  · rintro ⟨hfailsafe, hmembers⟩
    have hall (list : ℕ) : (s.combine failsafeMembers).read list = s.read list := by
      rw [hread, hfailsafe, List.append_nil]
      split
      · next heq =>
          rw [heq]
          split
          · next heq' => rw [← heq', hmembers, List.append_nil]
          · rw [hmembers, List.append_nil]
      · rfl
    exact ⟨(hall _).trans h.1, (hall _).trans h.2⟩

/-- A race leaves the lists as they are exactly if it adds nothing. -/
theorem race_intact_iff (hallocated : s.Allocated) (h : s.Intact) (turn : Turn ν) :
    (s.isHealthiestNode turn).1.Intact ↔ AddsNothing (.race turn) s := by
  simp only [AddsNothing, isHealthiestNode]
  cases hearly : turn.early with
  | some result => simp [h]
  | none => simpa using combine_intact_iff hallocated h turn.failsafeMembers

theorem step_intact_iff (hallocated : s.Allocated) (h : s.Intact) (l : Label ν) :
    (∀ s', step l s = some s' → s'.Intact) ↔ AddsNothing l s := by
  cases l with
  | load loaded isFailsafeMode failsafeLeader =>
      simpa [step, AddsNothing] using load_intact hallocated h loaded isFailsafeMode failsafeLeader
  | race turn => simpa [step] using race_intact_iff hallocated h turn

/-- In a run of HA cycles both views always have the members that were loaded from the DCS
exactly if no race adds to the members of the old view. -/
theorem views_are_intact_iff (ls : List (Label ν)) :
    Guarded step (fun l s => ∀ s', step l s = some s' → s'.Intact) ls init ↔
      Guarded step AddsNothing ls init := by
  have hrun (s : Views ν) (hallocated : s.Allocated) (hintact : s.Intact) :
      Guarded step (fun l s => ∀ s', step l s = some s' → s'.Intact) ls s ↔
        Guarded step AddsNothing ls s := by
    induction ls generalizing s with
    | nil => rfl
    | cons l ls ih =>
        simp only [Guarded, step_intact_iff hallocated hintact l]
        refine and_congr_right fun hadds => forall₂_congr fun s' hs' => ?_
        exact ih s' (step_allocated hs' hallocated)
          ((step_intact_iff hallocated hintact l).mpr hadds s' hs')
  exact hrun init init_allocated init_intact

section Example

/-- A member. -/
def known (name : String) : Member String := ⟨name, true, ⟨none, none⟩, ""⟩

/-- A replica without synchronous mode. -/
def replica : Race String where
  name := "a"
  hasTimelines := true
  clusterTimeline := 1
  myTimeline := some 1
  myWalPosition := 10
  lastLsn := 10
  maximumLagOnFailover := 0
  checkTimeline := false
  config := ⟨.off, false, false, 1⟩
  supportsMultipleSync := true
  sync := ⟨none, [], 0⟩
  failoverPriority := 1
  useGtid := false
  myGtid := ""
  gtidRelation := fun _ _ => .incomparable

/-- Nothing keeps the replica from the race. -/
def turn : Turn String where
  backoff := false
  isPaused := false
  nofailover := false
  failover := none
  manualFailover := none
  isStarting := false
  isPrimary := false
  sysidMatches := true
  primaryTimeline := none
  watchdogIsHealthy := true
  isFailsafeMode := false
  failsafe := none
  race := replica
  request := fun _ => none
  asCompleted := ⟨id, fun _ => .refl _⟩

/-- The leader `b` goes away, and the replica races. -/
def leaderLost : List (Label String) :=
  [.load ⟨some "b", false, [known "a", known "b"]⟩ false none,
    .load ⟨none, false, [known "a"]⟩ false none, .race turn]

/-- The replica is twice in the old view afterwards. -/
theorem race_changes_old_cluster :
    ∃ s ∈ exec step leaderLost init, ¬s.Intact ∧
      s.read s.oldCluster.members = [known "a", known "b", known "a"] ∧
      s.oldCluster.loaded = [known "a", known "b"] := by
  decide +kernel

end Example

end Views

end Ha

end Metatroni
