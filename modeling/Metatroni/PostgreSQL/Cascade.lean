import Metatroni.CaseInsensitiveDict
import Metatroni.PostgreSQL.Sync
import Metatroni.Lib.Chain
import Metatroni.Lib.Fuel
import Mathlib.Data.Prod.Lex

/-!
# Cascading standbys

`_ReplicaList` of `postgresql/sync.py` leaves out the standbys that are supposed
to stream from another standby. `_should_cascade` follows the tag `replicatefrom`
from member to member, and nothing keeps users from tagging members in a circle.

## Implementation notes

A recursion that may not end takes a bound on its depth, and is `none` where the
bound is too small. It ends if there is a bound that is large enough.
-/

namespace Metatroni

variable {ν : Type} [NodeName ν]

/-- `Member`: what `_ReplicaList` needs of a member. A tag `replicatefrom` that is empty is
`none`. -/
structure StandbyMember (ν : Type) where
  name : ν
  isRunning : Bool
  nosync : Bool
  nofailover : Bool
  syncPriority : ℤ
  replicatefrom : Option ν
  deriving DecidableEq

/-- A row of `pg_stat_replication`, with the LSN of the column that counts. -/
structure ReplicationRow (ν : Type) where
  pid : ℕ
  applicationName : ν
  syncState : ReplicaSyncState
  lsn : Option ℕ
  deriving DecidableEq

/-- `_should_cascade`, to a depth of at most so many members. -/
def shouldCascade (members : CaseInsensitiveDict ν (StandbyMember ν))
    (replication : CaseInsensitiveDict ν (ReplicationRow ν)) :
    ℕ → StandbyMember ν → Option Bool
  | 0, _ => none
  | n + 1, member =>
      match member.replicatefrom.bind members.getItem? with
      | none => some false
      | some member =>
          if member.replicatefrom.isNone then some (replication.contains member.name)
          else shouldCascade members replication n member

namespace ReplicaList

/-- The members that are eligible. -/
def eligible (name : ν) (members : List (StandbyMember ν)) :
    CaseInsensitiveDict ν (StandbyMember ν) :=
  .ofDict ((members.filter fun m => m.isRunning && !m.nosync && lower m.name ≠ lower name).foldl
    (fun (data : Dict ν (StandbyMember ν)) m => data.set m.name m) ∅)

/-- The rows of the eligible members that are streaming. -/
def streaming (members : CaseInsensitiveDict ν (StandbyMember ν))
    (rows : List (ReplicationRow ν)) : CaseInsensitiveDict ν (ReplicationRow ν) :=
  .ofDict ((rows.filter fun row => row.lsn.isSome && members.contains row.applicationName).foldl
    (fun (data : Dict ν (ReplicationRow ν)) row => data.set row.applicationName row) ∅)

/-- The `_Replica` of a row with its priority, unless the member should cascade. -/
def replica? (members : CaseInsensitiveDict ν (StandbyMember ν))
    (replication : CaseInsensitiveDict ν (ReplicationRow ν)) (depth : ℕ)
    (row : ReplicationRow ν) : Option (Option (ℤ × Replica ν)) :=
  match members.getItem? row.applicationName, row.lsn with
  | some member, some lsn => do
      let cascades ← shouldCascade members replication depth member
      if cascades then pure none
      else
        pure (some (member.syncPriority,
          ⟨row.pid, row.applicationName, row.syncState, lsn, member.nofailover⟩))
  | _, _ => some none

/-- The place of a state in the alphabet. -/
def rank : ReplicaSyncState → ℕ
  | .async => 0
  | .potential => 1
  | .quorum => 2
  | .sync => 3

/-- The key that the replicas are sorted by. -/
def sortKey (r : ℤ × Replica ν) : ℤ ×ₗ ℕ ×ₗ ℕ := toLex (r.1, toLex (rank r.2.syncState, r.2.lsn))

/-- `_ReplicaList.__init__` on the node with a name. -/
def replicaList (name : ν) (members : List (StandbyMember ν)) (rows : List (ReplicationRow ν))
    (depth : ℕ) : Option (List (Replica ν)) := do
  let members := eligible name members
  let replication := streaming members rows
  let items ← replication.items?
  let replicas ← items.mapM fun item => replica? members replication depth item.2
  let sorted := (replicas.filterMap id).mergeSort fun r s => sortKey s ≤ sortKey r
  pure (sorted.map Prod.snd)

end ReplicaList

/-- `current_state` with the `_ReplicaList` that it computes. -/
def SyncHandler.currentStateOf (handler : SyncHandler ν) (standbyNames : StandbyNames ν)
    (lastOperation : ℕ) (name : ν) (members : List (StandbyMember ν))
    (rows : List (ReplicationRow ν)) (syncNodeCount syncNodeMaxlag : ℤ) (depth : ℕ) :
    Option (SyncHandler ν × ReplicationState ν) :=
  (ReplicaList.replicaList name members rows depth).map fun replicaList =>
    handler.currentState standbyNames lastOperation replicaList syncNodeCount syncNodeMaxlag

/-! ## Termination -/

section Termination

variable (members : CaseInsensitiveDict ν (StandbyMember ν))
  (replication : CaseInsensitiveDict ν (ReplicationRow ν))

/-- The member that a member replicates from. -/
def upstreamOf (member : StandbyMember ν) : Option (StandbyMember ν) :=
  member.replicatefrom.bind members.getItem?

/-- Following the tags from a member comes to the same member twice. -/
def ReachesCycle (member : StandbyMember ν) : Prop :=
  Chain.Repeats (upstreamOf members) id member

variable {members replication} {member : StandbyMember ν}

theorem upstreamOf_of_isNone (h : member.replicatefrom.isNone) :
    upstreamOf members member = none := by
  rw [upstreamOf, Option.isNone_iff_eq_none.mp h]
  rfl

theorem exists_endsAt_of_shouldCascade {depth : ℕ} {cascades : Bool}
    (h : shouldCascade members replication depth member = some cascades) :
    ∃ x, Chain.EndsAt (upstreamOf members) member x := by
  induction depth generalizing member with
  | zero => cases h
  | succ depth ih =>
      cases hnext : upstreamOf members member with
      | none => exact ⟨member, (Chain.endsAt_of_none hnext).mpr rfl⟩
      | some next =>
          simp only [Chain.endsAt_of_some hnext]
          by_cases hlast : next.replicatefrom.isNone = true
          · exact ⟨next, (Chain.endsAt_of_none (upstreamOf_of_isNone hlast)).mpr rfl⟩
          · rw [upstreamOf] at hnext
            simp only [shouldCascade, hnext, if_neg hlast] at h
            exact ih h

theorem terminates_shouldCascade_of_endsAt {x : StandbyMember ν}
    (h : Chain.EndsAt (upstreamOf members) member x) :
    Fuel.Terminates (shouldCascade members replication) member := by
  obtain ⟨k, _, hk, rfl, hnone⟩ := h
  refine Fuel.terminates_iff.mpr ⟨k + 1, ?_⟩
  induction k generalizing member with
  | zero =>
      obtain rfl := Option.some.inj hk
      rw [upstreamOf] at hnone
      simp [shouldCascade, hnone]
  | succ k ih =>
      cases hnext : upstreamOf members member with
      | none => rw [Chain.node_succ_of_none hnext] at hk; cases hk
      | some next =>
          rw [Chain.node_succ_of_some hnext] at hk
          rw [upstreamOf] at hnext
          rw [shouldCascade]
          simp only [hnext]
          split
          · rfl
          · exact ih hk

theorem finite_range_getItem? (d : CaseInsensitiveDict ν (StandbyMember ν)) :
    {m | ∃ key, d.getItem? key = some m}.Finite := by
  refine (d.values.entries.map fun e => e.2.2).finite_toSet.subset fun m hm => ?_
  obtain ⟨e, he, rfl⟩ := CaseInsensitiveDict.exists_getItem?_iff.mp hm
  exact List.mem_map.mpr ⟨e, he, rfl⟩

/-- The check of a member ends if and only if the tags do not lead into a circle. -/
theorem terminates_shouldCascade_iff :
    Fuel.Terminates (shouldCascade members replication) member ↔
      ¬ReachesCycle members member := by
  constructor
  · rintro ⟨cascades, depth, h⟩
    obtain ⟨x, hx⟩ := exists_endsAt_of_shouldCascade h
    exact hx.not_repeats
  · intro h
    have hstored : ∀ m next, True → upstreamOf members m = some next →
        id next ∈ {m | ∃ key, members.getItem? key = some m} ∧ True := by
      intro m next _ hnext
      obtain ⟨key, -, hkey⟩ := Option.bind_eq_some_iff.mp hnext
      exact ⟨⟨key, hkey⟩, trivial⟩
    obtain ⟨x, hx⟩ := Chain.exists_endsAt (finite_range_getItem? members) trivial hstored h
    exact terminates_shouldCascade_of_endsAt hx

theorem mono_shouldCascade : Fuel.Mono (shouldCascade members replication) := by
  intro depth
  induction depth with
  | zero => exact fun member cascades h => by cases h
  | succ depth ih =>
      intro member cascades h
      rw [shouldCascade] at h ⊢
      cases hnext : member.replicatefrom.bind members.getItem? with
      | none => simpa only [hnext] using h
      | some next =>
          simp only [hnext] at h ⊢
          by_cases hlast : next.replicatefrom.isNone = true
          · rwa [if_pos hlast] at h ⊢
          · rw [if_neg hlast] at h ⊢
            exact ih next cascades h

end Termination

namespace ReplicaList

section Computed

variable (members : CaseInsensitiveDict ν (StandbyMember ν))
  (replication : CaseInsensitiveDict ν (ReplicationRow ν))

/-- The check of the member of a row, if it is made, is not led into a circle. -/
def RowIsAcyclic (row : ReplicationRow ν) : Prop :=
  row.lsn.isSome → ∀ member, members.getItem? row.applicationName = some member →
    ¬ReachesCycle members member

variable {members replication}

theorem terminates_replica?_iff {row : ReplicationRow ν} :
    Fuel.Terminates (replica? members replication) row ↔ RowIsAcyclic members row := by
  rw [Fuel.terminates_iff]
  unfold replica? RowIsAcyclic
  cases hmember : members.getItem? row.applicationName with
  | none => simp
  | some member =>
      cases hlsn : row.lsn with
      | none => simp
      | some lsn =>
          have hmember : Fuel.Terminates (shouldCascade members replication) member ↔
              ¬ReachesCycle members member := terminates_shouldCascade_iff
          simp only [Option.isSome_some, Option.some.injEq, forall_eq', forall_const, ← hmember,
            Fuel.terminates_iff]
          refine exists_congr fun depth => ?_
          cases shouldCascade members replication depth member with
          | none => rfl
          | some cascades => cases cascades <;> exact iff_of_true rfl rfl

theorem mono_replica? : Fuel.Mono (replica? members replication) := by
  intro depth row replica h
  unfold replica? at h ⊢
  cases hmember : members.getItem? row.applicationName with
  | none => simpa only [hmember] using h
  | some member =>
      cases hlsn : row.lsn with
      | none => simpa only [hmember, hlsn] using h
      | some lsn =>
          simp only [hmember, hlsn] at h ⊢
          obtain ⟨cascades, hcascades, h⟩ := Option.bind_eq_some_iff.mp h
          rw [mono_shouldCascade depth member cascades hcascades]
          exact h

/-- The list is computed if and only if no check is led into a circle. -/
theorem exists_replicaList_iff (name : ν) (members : List (StandbyMember ν))
    (rows : List (ReplicationRow ν)) :
    (∃ depth, (replicaList name members rows depth).isSome) ↔
      ∀ row, (∃ key, (streaming (eligible name members) rows).getItem? key = some row) →
        RowIsAcyclic (eligible name members) row := by
  set eligible := eligible name members
  set replication := streaming eligible rows
  have hmono : Fuel.Mono fun depth (item : ν × ReplicationRow ν) =>
      replica? eligible replication depth item.2 := fun depth item => mono_replica? depth item.2
  have hitems := CaseInsensitiveDict.items?_eq replication
  have hcomputed : (∃ depth, (replicaList name members rows depth).isSome) ↔
      ∀ item ∈ replication.values.entries.map fun e => e.2,
        RowIsAcyclic eligible item.2 := by
    have hrow : ∀ row, Fuel.Terminates (replica? eligible replication) row ↔
        RowIsAcyclic eligible row := fun row => terminates_replica?_iff
    simp only [← hrow]
    refine Iff.trans ?_ (Fuel.terminates_mapM_iff hmono _)
    rw [Fuel.terminates_iff]
    refine exists_congr fun depth => ?_
    change ((replication.items?.bind _)).isSome ↔ _
    rw [hitems, Option.bind_some]
    cases List.mapM (fun item => replica? eligible replication depth item.2)
        (replication.values.entries.map fun e => e.2) with
    | none => rfl
    | some replicas => exact iff_of_true rfl rfl
  rw [hcomputed, List.forall_mem_map]
  simp only [CaseInsensitiveDict.exists_getItem?_iff]
  constructor
  · rintro h row ⟨e, he, rfl⟩
    exact h e he
  · exact fun h e he => h e.2.2 ⟨e, he, rfl⟩

end Computed

end ReplicaList

/-- The check of every member ends, and the state can be computed, exactly as long as no
member that is checked leads into a circle of tags. -/
theorem cascadeCheck_terminates_iff (handler : SyncHandler ν) (standbyNames : StandbyNames ν)
    (lastOperation : ℕ) (name : ν) (members : List (StandbyMember ν))
    (rows : List (ReplicationRow ν)) (syncNodeCount syncNodeMaxlag : ℤ) :
    let eligible := ReplicaList.eligible name members
    let replication := ReplicaList.streaming eligible rows
    (∀ member, Fuel.Terminates (shouldCascade eligible replication) member ↔
      ¬ReachesCycle eligible member) ∧
    ((∃ depth, (handler.currentStateOf standbyNames lastOperation name members rows syncNodeCount
        syncNodeMaxlag depth).isSome) ↔
      ∀ row, (∃ key, replication.getItem? key = some row) →
        ReplicaList.RowIsAcyclic eligible row) := by
  intro eligible replication
  refine ⟨fun member => terminates_shouldCascade_iff, ?_⟩
  simp only [SyncHandler.currentStateOf, Option.isSome_map]
  exact ReplicaList.exists_replicaList_iff name members rows

/-- A running standby without other tags. -/
def standby (name : String) (replicatefrom : Option String) : StandbyMember String :=
  ⟨name, true, false, false, 1, replicatefrom⟩

/-- A row of a streaming standby. -/
def streamingRow (name : String) : ReplicationRow String := ⟨1, name, .async, some 100⟩

/-- Two standbys that are tagged to replicate from each other: no depth is enough. -/
theorem not_terminates_cascadeCheck_circle :
    ¬∃ depth, ((SyncHandler.init : SyncHandler String).currentStateOf .off 0 "p"
      [standby "a" (some "b"), standby "b" (some "a")] [streamingRow "a"] 1 (-1) depth).isSome := by
  simp only [SyncHandler.currentStateOf, Option.isSome_map, ReplicaList.exists_replicaList_iff]
  intro h
  refine h (streamingRow "a") ⟨"a", by decide +kernel⟩ rfl (standby "a" (some "b"))
    (by decide +kernel) ⟨0, 2, _, standby "a" (some "b"), by decide, rfl, ?_, rfl⟩
  decide +kernel

end Metatroni
