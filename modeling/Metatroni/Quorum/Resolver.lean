import Metatroni.Lib.Generator
import Metatroni.Collections

/-!
# `QuorumStateResolver`

The state machine of `patroni/quorum.py` that moves `synchronous_standby_names`
and the `/sync` key to the desired state. The generator methods of the class
become generator bodies over the object's attributes: an update assigns the
attributes first, then checks the invariants, then yields, so an update that
fails has already changed the object.

`numsync` and `quorum` are integers because the code subtracts before it
checks for negative values.
-/

namespace Metatroni

open Generators

variable {ν : Type} [NodeName ν]

/-- `Transition.transition_type`. -/
inductive TransitionType
  | sync
  | quorum
  | restart
  deriving DecidableEq, Repr

/-- `Transition`: the new state of `/sync` or of `synchronous_standby_names`. -/
structure Transition (ν : Type) [NodeName ν] where
  transitionType : TransitionType
  leader : ν
  num : ℤ
  names : CaseInsensitiveSet ν
  deriving DecidableEq

/-- `QuorumError`, with the values that its message is formatted from. -/
inductive QuorumError (ν : Type) [NodeName ν]
  | negativeQuorum (quorum : ℤ) (voters : CaseInsensitiveSet ν)
  | quorumNotBelowVoters (quorum : ℤ) (voters : CaseInsensitiveSet ν)
  | negativeSync (numsync : ℤ) (sync : CaseInsensitiveSet ν)
  | syncAboveNodes (numsync : ℤ) (sync : CaseInsensitiveSet ν)
  | noOverlap (nodes quorum : ℤ) (sync : CaseInsensitiveSet ν)
  | mismatchedSets (votersOnly syncOnly : CaseInsensitiveSet ν)
  deriving DecidableEq

/-- What iterating the resolver can raise. -/
inductive ResolverError (ν : Type) [NodeName ν]
  | quorumError (e : QuorumError ν)
  | assertionError
  deriving DecidableEq

/-- The attributes of `QuorumStateResolver`. -/
structure QuorumStateResolver (ν : Type) [NodeName ν] where
  leader : ν
  quorum : ℤ
  voters : CaseInsensitiveSet ν
  numsync : ℤ
  sync : CaseInsensitiveSet ν
  numsyncConfirmed : ℤ
  active : CaseInsensitiveSet ν
  syncWanted : ℤ
  leaderWanted : ν

namespace QuorumStateResolver

/-- `__init__`: `numsync` can't be bigger than the number of listed nodes. -/
def init (leader : ν) (quorum : ℤ) (voters : CaseInsensitiveSet ν) (numsync : ℤ)
    (sync : CaseInsensitiveSet ν) (numsyncConfirmed : ℤ) (active : CaseInsensitiveSet ν)
    (syncWanted : ℤ) (leaderWanted : ν) : QuorumStateResolver ν where
  leader := leader
  quorum := quorum
  voters := voters
  numsync := min numsync sync.len
  sync := sync
  numsyncConfirmed := numsyncConfirmed
  active := active
  syncWanted := syncWanted
  leaderWanted := leaderWanted

/-- `check_invariants`. -/
def checkInvariants (self : QuorumStateResolver ν) : Except (ResolverError ν) Unit :=
  let voters := self.voters ∪ CaseInsensitiveSet.ofList [self.leader]
  let sync := self.sync ∪ CaseInsensitiveSet.ofList [self.leaderWanted]
  if self.voters.Truthy ∧ ¬ (voters ∪ sync).len ≤ self.quorum + self.numsync + 1 then
    .error (.quorumError (.noOverlap (voters ∪ sync).len self.quorum self.sync))
  else if ¬ (voters ≤ sync ∨ sync ≤ voters) then
    .error (.quorumError (.mismatchedSets (voters \ sync) (sync \ voters)))
  else .ok ()

/-- A generator method of the resolver. -/
abbrev Method (ν : Type) [NodeName ν] :=
  Gen (QuorumStateResolver ν) (Transition ν) (ResolverError ν) Unit

/-- `self.quorum = quorum; self.voters = voters; self.check_invariants()` and
the transition that follows. -/
def writeQuorum (quorum : ℤ) (voters : CaseInsensitiveSet ν) : Method ν := do
  Gen.update fun self => { self with quorum := quorum, voters := voters }
  Gen.check checkInvariants
  let self ← Gen.self
  Gen.yield ⟨.quorum, self.leader, self.quorum, self.voters⟩

/-- The `quorum` and `voters` that `quorum_update` ends up with. -/
def adjustedQuorum (self : QuorumStateResolver ν) (quorum : ℤ) (voters : CaseInsensitiveSet ν)
    (leader : Option ν) (adjustQuorum : Bool) : ℤ × CaseInsensitiveSet ν :=
  match leader with
  | some _ => (quorum, voters)
  | none =>
      if self.numsyncConfirmed = 0 ∧ ¬ self.voters.Truthy then (0, ∅)
      else if adjustQuorum then (quorum + max (self.numsync - self.numsyncConfirmed) 0, voters)
      else (quorum, voters)

/-- `quorum_update`. -/
def quorumUpdate (quorum : ℤ) (voters : CaseInsensitiveSet ν) (leader : Option ν)
    (adjustQuorum : Bool) : Method ν := do
  if quorum < 0 then
    Gen.raise (.quorumError (.negativeQuorum quorum voters))
  else if 0 < quorum ∧ voters.len ≤ quorum then
    Gen.raise (.quorumError (.quorumNotBelowVoters quorum voters))
  else
    let old ← Gen.self
    Gen.update fun self => { self with leader := leader.getD self.leader }
    let self ← Gen.self
    let (quorum, voters) := self.adjustedQuorum quorum voters leader adjustQuorum
    if self.leader = old.leader ∧ quorum = self.quorum ∧ voters.Same self.voters then
      if self.voters.Truthy then
        pure ()
      else
        Gen.yield ⟨.restart, self.leader, self.quorum, self.voters⟩
        writeQuorum quorum voters
    else writeQuorum quorum voters

/-- `sync_update`. -/
def syncUpdate (numsync : ℤ) (sync : CaseInsensitiveSet ν) : Method ν := do
  if numsync < 0 then
    Gen.raise (.quorumError (.negativeSync numsync sync))
  else if sync.len < numsync then
    Gen.raise (.quorumError (.syncAboveNodes numsync sync))
  else
    Gen.update fun self => { self with numsync := numsync, sync := sync }
    Gen.check checkInvariants
    let self ← Gen.self
    Gen.yield ⟨.sync, self.leader, self.numsync, self.sync⟩

/-- A Python `assert` on the attributes. -/
def assertSelf (p : QuorumStateResolver ν → Prop) [DecidablePred p] : Method ν :=
  Gen.check fun self => if p self then .ok () else .error .assertionError

/-- `__handle_non_steady_cases`, case 1: `sync` is a subset of `voters`. -/
def evictVoters : Method ν := do
  let self ← Gen.self
  let removeFromVoters := self.voters \ (self.sync ∪ self.active)
  Gen.when removeFromVoters.Truthy <|
    quorumUpdate (self.voters.len - removeFromVoters.len - self.numsync)
      (self.voters \ removeFromVoters) none (¬ (self.sync \ self.active).Truthy)
  let self ← Gen.self
  let addToSync := (self.voters ∩ self.active) \ self.sync
  Gen.when addToSync.Truthy <|
    syncUpdate self.numsync (self.sync ∪ addToSync)

/-- `__handle_non_steady_cases`, case 2: `sync` is a superset of `voters`. -/
def extendVoters : Method ν := do
  let self ← Gen.self
  let removeFromSync := self.sync \ self.active
  let sync := self.sync \ removeFromSync
  -- sync and voters must keep a common node
  Gen.when (removeFromSync.Truthy ∧ sync.Truthy ∧
      (¬ self.voters.Truthy ∨ (sync ∩ self.voters).Truthy)) <|
    syncUpdate (min self.numsync (self.sync.len - removeFromSync.len)) sync
  let self ← Gen.self
  let addToVoters := (self.sync \ self.voters) ∩ self.active
  let voters := self.voters ∪ addToVoters
  Gen.when addToVoters.Truthy <|
    quorumUpdate (voters.len - self.numsync) voters none true
  let self ← Gen.self
  let removeFromSync := self.sync \ self.voters
  Gen.when removeFromSync.Truthy <|
    syncUpdate (min self.numsync (self.sync.len - removeFromSync.len)) (self.sync \ removeFromSync)

/-- `__handle_non_steady_cases`, cases 3 and 4: the replication factor or the
quorum is bigger than needed. -/
def trimMargin : Method ν := do
  let self ← Gen.self
  let safetyMargin :=
    self.quorum + min self.numsync self.numsyncConfirmed - (self.voters ∪ self.sync).len
  if 0 < safetyMargin then
    if self.syncWanted < self.numsync then
      syncUpdate (max self.syncWanted (self.voters.len - self.quorum)) self.sync
    else
      quorumUpdate (self.sync.len - self.numsync) self.voters none true
  else
    let safetyMargin := self.quorum + self.numsync - (self.voters ∪ self.sync).len
    Gen.when (self.numsync = self.syncWanted ∧ 0 < safetyMargin ∧
        self.numsyncConfirmed < self.numsync) <|
      quorumUpdate (self.sync.len - self.numsync) self.voters none true

/-- The first two cases of `__handle_non_steady_cases`. -/
def matchVotersAndSync : Method ν := do
  let self ← Gen.self
  if self.sync < self.voters then evictVoters
  else Gen.when (self.voters < self.sync) extendVoters

/-- `__handle_non_steady_cases`. -/
def handleNonSteadyCases : Method ν := do
  matchVotersAndSync
  assertSelf fun self => self.voters.Same self.sync
  trimMargin

/-- The last part of `__remove_gone_nodes`: the nodes that could not be removed
by giving up quorum are removed together with `numsync`. -/
def removeRemaining (toRemove : CaseInsensitiveSet ν) : Method ν := do
  assertSelf fun self => self.quorum = 0
  let self ← Gen.self
  let numsync := self.numsync - toRemove.len
  let sync := self.sync \ toRemove
  let voters := self.voters \ toRemove
  let syncDecrease := numsync - min self.syncWanted sync.len
  let quorum := if syncDecrease ≠ 0 then min syncDecrease (voters.len - 1) else 0
  quorumUpdate quorum voters none false
  syncUpdate numsync sync

/-- The part of `__remove_gone_nodes` that reduces the quorum first. -/
def removeByQuorum (toRemove : CaseInsensitiveSet ν) : Method ν := do
  let self ← Gen.self
  let canReduceQuorumBy := self.quorum
  let remove := CaseInsensitiveSet.firstOf toRemove.sortedReverse canReduceQuorumBy
  let sync := self.sync \ remove
  -- when removing nodes from sync we can safely increase numsync if requested
  let numsync :=
    min (if self.numsync < self.syncWanted then self.syncWanted else self.numsync) sync.len
  syncUpdate numsync sync
  let self ← Gen.self
  let voters := self.voters \ remove
  let toRemove := self.sync ∩ toRemove
  quorumUpdate (voters.len - self.numsync) voters none (¬ toRemove.Truthy)
  Gen.when toRemove.Truthy (removeRemaining toRemove)

/-- `__remove_gone_nodes`. -/
def removeGoneNodes : Method ν := do
  let self ← Gen.self
  let toRemove := self.sync \ self.active
  if toRemove.Truthy ∧ self.sync.Same toRemove then
    quorumUpdate 0 ∅ none false
    syncUpdate 0 ∅
  else Gen.when toRemove.Truthy <|
    if self.quorum ≠ 0 then removeByQuorum toRemove else removeRemaining toRemove

/-- The second part of `__add_new_nodes`: add the rest of the nodes by
increasing the quorum. -/
def addByQuorum (syncWanted : ℤ) (toAdd : CaseInsensitiveSet ν) : Method ν := do
  let self ← Gen.self
  let voters := self.voters ∪ toAdd
  quorumUpdate (voters.len - syncWanted) voters none (self.numsyncConfirmed < syncWanted)
  let self ← Gen.self
  syncUpdate syncWanted (self.sync ∪ toAdd)

/-- The first part of `__add_new_nodes`: get to the requested replication factor. -/
def addBySync (syncWanted : ℤ) (toAdd : CaseInsensitiveSet ν) : Method ν := do
  let self ← Gen.self
  let increaseNumsyncBy := syncWanted - self.numsync
  -- it is safe to add all nodes at once if there is only the leader
  let add :=
    if self.sync.Truthy then CaseInsensitiveSet.firstOf toAdd.sorted increaseNumsyncBy else toAdd
  let increaseNumsyncBy := if self.sync.Truthy then add.len else increaseNumsyncBy
  syncUpdate (self.numsync + increaseNumsyncBy) (self.sync ∪ add)
  let self ← Gen.self
  let voters := self.voters ∪ add
  quorumUpdate (voters.len - syncWanted) voters none true
  let self ← Gen.self
  let toAdd := toAdd \ self.sync
  Gen.when toAdd.Truthy (addByQuorum syncWanted toAdd)

/-- `__add_new_nodes`. -/
def addNewNodes : Method ν := do
  let self ← Gen.self
  let toAdd := self.active \ self.sync
  let syncWanted := min self.syncWanted (self.sync ∪ toAdd).len
  Gen.when toAdd.Truthy <|
    if 0 < syncWanted - self.numsync then addBySync syncWanted toAdd
    else addByQuorum syncWanted toAdd

/-- `__handle_replication_factor_change`, the decreasing branch. -/
def reduceReplicationFactor (syncIncrease : ℤ) : Method ν := do
  let self ← Gen.self
  Gen.when (self.quorum - syncIncrease < self.voters.len) <|
    quorumUpdate (self.voters.len - self.numsync - syncIncrease) self.voters none
      (self.numsyncConfirmed < self.syncWanted)
  let self ← Gen.self
  syncUpdate (self.numsync + syncIncrease) self.sync

/-- `__handle_replication_factor_change`, the increasing branch. -/
def increaseReplicationFactor (syncIncrease : ℤ) : Method ν := do
  let self ← Gen.self
  syncUpdate (self.numsync + syncIncrease) self.sync
  let self ← Gen.self
  quorumUpdate (self.voters.len - self.numsync) self.voters none true

/-- `__handle_replication_factor_change`. -/
def handleReplicationFactorChange : Method ν := do
  let self ← Gen.self
  let syncIncrease := min self.syncWanted self.sync.len - self.numsync
  if 0 < syncIncrease then increaseReplicationFactor syncIncrease
  else Gen.when (syncIncrease < 0) (reduceReplicationFactor syncIncrease)

/-- The node set of the failover branch: the old leader replaces the new one. -/
def failoverVoters (self : QuorumStateResolver ν) : CaseInsensitiveSet ν :=
  (self.voters \ CaseInsensitiveSet.ofList [self.leaderWanted]) ∪
    CaseInsensitiveSet.ofList [self.leader]

/-- The failover branch of `_generate_transitions`; its value says that the
method returns early. -/
def failover : Gen (QuorumStateResolver ν) (Transition ν) (ResolverError ν) Bool := do
  let self ← Gen.self
  let voters := self.failoverVoters
  -- if sync is empty synchronous_standby_names goes first
  Gen.when (¬ self.sync.Truthy) (syncUpdate (voters.len - self.quorum) voters)
  let self ← Gen.self
  quorumUpdate self.quorum voters (some self.leaderWanted) true
  -- right after promote there could be no replication connections yet
  let self ← Gen.self
  pure (¬ (self.sync ∩ self.active).Truthy)

/-- The body of the `try` statement of `_generate_transitions`. -/
def tryBody : Gen (QuorumStateResolver ν) (Transition ν) (ResolverError ν) Bool := do
  let self ← Gen.self
  if self.leaderWanted ≠ self.leader then failover
  else
    Gen.check checkInvariants
    pure false

/-- The `except QuorumError` clause of `_generate_transitions`. -/
def rebuildQuorum (e : ResolverError ν) :
    Gen (QuorumStateResolver ν) (Transition ν) (ResolverError ν) Bool :=
  match e with
  | .quorumError _ => do
      let self ← Gen.self
      quorumUpdate (self.sync.len - self.numsync) self.sync none true
      pure false
  | .assertionError => Gen.raise e

/-- `numsync_confirmed` could be `0` after a restart or failover; it is then
calculated from the quorum. -/
def adjustConfirmed (self : QuorumStateResolver ν) : QuorumStateResolver ν :=
  if self.numsyncConfirmed = 0 ∧ (self.sync ∩ self.active).Truthy then
    { self with
      numsyncConfirmed := min (self.sync ∩ self.active).len (self.voters.len - self.quorum) }
  else self

/-- `_generate_transitions` after its `try` statement. -/
def settle : Method ν := do
  assertSelf fun self => self.leader = self.leaderWanted
  Gen.update adjustConfirmed
  handleNonSteadyCases
  removeGoneNodes
  addNewNodes
  handleReplicationFactorChange

/-- `_generate_transitions`. -/
def generateTransitions : Method ν := do
  let returned ← Gen.handle tryBody rebuildQuorum
  Gen.when (¬ returned) settle

/-- The loop of `__iter__`: a transition followed by one of the same type is
skipped, and the iteration stops after a `restart`. -/
def mergeTransitions : List (Transition ν) → List (Transition ν)
  | [] => []
  | [cur] => [cur]
  | cur :: next :: rest =>
      if cur.transitionType = next.transitionType then mergeTransitions (next :: rest)
      else if cur.transitionType = .restart then [cur]
      else cur :: mergeTransitions (next :: rest)

/-- `__iter__`: all transitions are generated before the first one is handed
out, so an exception hands out nothing. -/
def iter (self : QuorumStateResolver ν) : Except (ResolverError ν) (List (Transition ν)) :=
  match generateTransitions self with
  | ⟨ys, _, .ok _⟩ => .ok (mergeTransitions ys)
  | ⟨_, _, .error e⟩ => .error e

end QuorumStateResolver

end Metatroni
