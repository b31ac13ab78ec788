import Metatroni.Cluster
import Metatroni.Collections
import Metatroni.Lib.Dict

/-!
# Physical slots for the members

Every node computes from its view of the cluster which physical slots it has to
keep, `_get_members_slots` of `dcs/__init__.py`, and which node to stream from,
`_get_node_to_follow` of `ha.py`. The tag `replicatefrom` decides about both, on
different nodes and in different functions.

## Implementation notes

What `lower` does to a name is of no importance here, so it is arbitrary.
-/

namespace Metatroni.Slots

/-! ## The view of the cluster -/

/-- The tags of a node that concern its slots. -/
structure NodeTags where
  nofailover : Bool
  nostream : Bool
  replicatefrom : Option String
  deriving DecidableEq

/-- `Member`: what the slots need of a member in the DCS. -/
structure Member where
  name : String
  tags : NodeTags
  lsn : Option ℤ
  patroniVersion : Option (List ℤ)
  deriving DecidableEq

/-- `Cluster`: the member of the leader key, the members and the status. -/
structure Cluster where
  leader : Option Member
  members : List Member
  slots : Dict String ℤ
  retainSlots : List String

/-- A value in the configuration of a slot. Lists and dictionaries only have a truth value here. -/
inductive Value
  | null
  | bool (b : Bool)
  | int (n : ℤ)
  | str (s : String)
  | other (truthy : Bool)
  deriving DecidableEq

/-- The configuration of a slot. -/
abbrev Slot := Dict String Value

/-- The value of a permanent slot in the dynamic configuration: something that counts as false, a
dictionary, or something else. -/
inductive SlotValue
  | falsy
  | dict (slot : Slot)
  | other

/-- `GlobalConfig`: what the slots need of the dynamic configuration. -/
structure SlotsConfig where
  useSlots : Bool
  isStandbyCluster : Bool
  memberSlotsTtl : ℤ
  permanentSlots : Dict String SlotValue

namespace Cluster

variable (cluster : Cluster)

/-- `leader_name`. -/
def leaderName : Option String := cluster.leader.map Member.name

/-- `is_unlocked`. -/
def isUnlocked : Bool := cluster.leaderName = none || cluster.leaderName = some ""

/-- `has_member`. -/
def hasMember (memberName : String) : Bool := cluster.members.any fun m => m.name = memberName

/-- `get_member`. -/
def getMember (memberName : String) (fallbackToLeader : Bool) : Option Member :=
  (cluster.members.find? fun m => m.name = memberName).or
    (if fallbackToLeader then cluster.leader else none)

end Cluster

/-! ## Names of slots -/

/-- `[a-z0-9_]` -/
def isSlotChar (c : Char) : Bool := c.isLower || c.isDigit || c = '_'

/-- A dash and a period become underscores, other characters their code points. -/
def replaceChar (c : Char) : List Char :=
  if c = '-' ∨ c = '.' then ['_']
  else
    let digits := Nat.toDigits 10 c.toNat
    'u' :: (List.replicate (4 - digits.length) '0' ++ digits)

section

variable [NodeName String]

/-- `slot_name_from_member_name`. -/
def slotNameFromMemberName (memberName : String) : String :=
  String.ofList (((lower memberName).toList.flatMap fun c =>
    if isSlotChar c then [c] else replaceChar c).take 63)

/-! ## Slots of the members -/

/-- `leader_filter`: the member replicates from the current node, which is a leader. -/
def leaderFilter (cluster : Cluster) (name : String) (member : Member) : Bool :=
  match member.tags.replicatefrom with
  | none => true
  | some node => node = name || !cluster.hasMember node

/-- `replica_filter`: the member replicates from the current node, which is a replica. -/
def replicaFilter (cluster : Cluster) (name : String) (member : Member) : Bool :=
  member.tags.replicatefrom = some name && cluster.leaderName ≠ some member.name

/-- `expected_active`. -/
def expectedActive (cluster : Cluster) (name : String) (role : PostgresqlRole) : Member → Bool :=
  if role = .primary ∨ role = .standbyLeader then leaderFilter cluster name
  else replicaFilter cluster name

/-- The members that get a slot on the current node. -/
def slotMembers (config : SlotsConfig) (cluster : Cluster) (name : String) (role : PostgresqlRole)
    (nofailover canAdvanceSlots : Bool) : List Member :=
  let members := cluster.members.filter fun m => m.name ≠ name && !m.tags.nostream
  if canAdvanceSlots && 0 < config.memberSlotsTtl then
    members.filter fun m => !nofailover || m.tags.replicatefrom = some name
  else members.filter (expectedActive cluster name role)

/-- The LSN of the slot of a member. The status is maintained by the leader, so the LSN that the
member reports counts where the member may be connected to some other node. -/
def memberLsn (cluster : Cluster) (member : Member) : ℤ :=
  let lsn := (cluster.slots.lookup (slotNameFromMemberName member.name)).getD 0
  let cascading : Bool := match member.tags.replicatefrom with
    | some node => node ≠ ""
    | none => false
  let oldLeader : Bool := match cluster.leader.bind Member.patroniVersion with
    | some version => version ≠ [] && version < [4, 0, 0]
    | none => false
  if cascading || oldLeader then max (member.lsn.getD 0) lsn else lsn

def physical : Slot := (∅ : Slot).set "type" (.str "physical")

/-- The slot of a member. -/
def memberSlot (cluster : Cluster) (name : String) (role : PostgresqlRole) (member : Member) :
    Slot :=
  (physical.set "lsn" (.int (memberLsn cluster member))).set "expected_active"
    (.bool (expectedActive cluster name role member))

/-- `_get_members_slots`. -/
def getMembersSlots (config : SlotsConfig) (cluster : Cluster) (name : String)
    (role : PostgresqlRole) (nofailover canAdvanceSlots : Bool) : Dict String Slot :=
  if config.useSlots then
    let members := slotMembers config cluster name role nofailover canAdvanceSlots
    let ret := members.foldl (fun (ret : Dict String Slot) m =>
      ret.set (slotNameFromMemberName m.name) (memberSlot cluster name role m)) ∅
    let slotName := slotNameFromMemberName name
    let retained := cluster.retainSlots.filter fun slot =>
      !nofailover && slot ∉ ret && slot ≠ slotName
    retained.foldl (fun (ret : Dict String Slot) slot => ret.set slot physical) ret
  else ∅

/-! ## The node to follow -/

omit [NodeName String]

/-- `_get_node_to_follow`, on the node of the member. -/
def getNodeToFollow (isStandbyCluster isPaused : Bool) (remoteMember : Member) (cluster : Cluster)
    (member : Member) : Option Member :=
  let leader := cluster.leader.filter fun l => l.name ≠ ""
  let nodeToFollow :=
    if isStandbyCluster ∧
        (leader.map Member.name = some member.name ∨ cluster.isUnlocked ∧ ¬isPaused) then
      some remoteMember
    else
      match member.tags.replicatefrom with
      | some node =>
          if node ≠ "" ∧ node ≠ member.name then cluster.getMember node true else leader
      | none => leader
  if member.tags.nostream then none else nodeToFollow.filter fun node => node.name ≠ member.name

end

/-! ## Which slots there are -/

section

variable [NodeName String]

/-- The names of the slots, without their attributes. -/
theorem mem_getMembersSlots {config : SlotsConfig} (huse : config.useSlots = true)
    (cluster : Cluster) (name : String) (role : PostgresqlRole) (nofailover canAdvanceSlots : Bool)
    (slot : String) :
    slot ∈ getMembersSlots config cluster name role nofailover canAdvanceSlots ↔
      (∃ m ∈ slotMembers config cluster name role nofailover canAdvanceSlots,
        slotNameFromMemberName m.name = slot) ∨
      nofailover = false ∧ slot ∈ cluster.retainSlots ∧ slot ≠ slotNameFromMemberName name := by
  simp only [getMembersSlots, huse, if_true, Dict.mem_foldl_set, List.mem_map, List.mem_filter,
    AList.notMem_empty, or_false]
  -- a slot that is retained and has a member is counted once
  by_cases hmember : ∃ m ∈ slotMembers config cluster name role nofailover canAdvanceSlots,
      slotNameFromMemberName m.name = slot
  · simp [hmember]
  · simp [hmember, and_left_comm]

/-- Without retention, a member whose slot name is its own gets a slot exactly where it is expected
to be active. -/
theorem slot_mem_getMembersSlots {config : SlotsConfig} (huse : config.useSlots = true)
    {canAdvanceSlots : Bool} (hretention : ¬(canAdvanceSlots = true ∧ 0 < config.memberSlotsTtl))
    {cluster : Cluster} (hretain : cluster.retainSlots = [])
    (hdistinct : (cluster.members.map fun m => slotNameFromMemberName m.name).Nodup)
    {m : Member} (hm : m ∈ cluster.members) (hstream : m.tags.nostream = false) (name : String)
    (role : PostgresqlRole) (nofailover : Bool) :
    slotNameFromMemberName m.name ∈
        getMembersSlots config cluster name role nofailover canAdvanceSlots ↔
      m.name ≠ name ∧ expectedActive cluster name role m = true := by
  rw [mem_getMembersSlots huse, hretain]
  simp only [slotMembers, Bool.and_eq_true, decide_eq_true_eq, if_neg hretention, List.mem_filter,
    List.not_mem_nil, false_and, and_false, or_false]
  constructor
  · rintro ⟨m', ⟨⟨hm', hname, -⟩, hactive⟩, heq⟩
    obtain rfl := List.inj_on_of_nodup_map hdistinct hm' hm heq
    exact ⟨by simpa using hname, hactive⟩
  · rintro ⟨hname, hactive⟩
    exact ⟨m, ⟨⟨hm, by simpa using hname, by simp [hstream]⟩, hactive⟩, rfl⟩

end

section Follow

variable {cluster : Cluster} {m : Member} {l : Member}

theorem hasMember_iff {name : String} :
    cluster.hasMember name = true ↔ ∃ m ∈ cluster.members, m.name = name := by
  simp [Cluster.hasMember]

/-- A node that is tagged and is a member is followed, a missing one is replaced by the leader. -/
theorem getMember_eq {name : String} (hleader : cluster.leader = some l) :
    (cluster.getMember name true).map Member.name =
      some (if cluster.hasMember name then name else l.name) := by
  unfold Cluster.getMember
  cases hfind : cluster.members.find? fun m => m.name = name with
  | some m =>
      have hname : m.name = name := by simpa using List.find?_some hfind
      have hhas : cluster.hasMember name = true :=
        hasMember_iff.mpr ⟨m, List.mem_of_find?_eq_some hfind, hname⟩
      simp [hhas, hname]
  | none =>
      have hhas : cluster.hasMember name = false := by
        rw [Bool.eq_false_iff]
        intro h
        obtain ⟨m, hm, hname⟩ := hasMember_iff.mp h
        exact absurd hname (by simpa using List.find?_eq_none.mp hfind m hm)
      simp [hhas, hleader]

/-- The name of the node that a member follows while there is a leader. -/
def target (cluster : Cluster) (l m : Member) : String :=
  match m.tags.replicatefrom with
  | none => l.name
  | some node =>
      if node ≠ "" ∧ node ≠ m.name ∧ cluster.hasMember node = true then node else l.name

theorem getNodeToFollow_name (hleader : cluster.leader = some l) (hl : l.name ≠ "")
    (hm : m.name ≠ l.name) (hstream : m.tags.nostream = false) (isPaused : Bool)
    (remoteMember : Member) :
    (getNodeToFollow false isPaused remoteMember cluster m).map Member.name =
      some (target cluster l m) := by
  have hleader' : cluster.leader.filter (fun l => l.name ≠ "") = some l := by simp [hleader, hl]
  have hfilter {node : Option Member} {name : String} (hnode : node.map Member.name = some name)
      (hname : name ≠ m.name) :
      (node.filter fun node => node.name ≠ m.name).map Member.name = some name := by
    obtain ⟨node, rfl, rfl⟩ := Option.map_eq_some_iff.mp hnode
    simp [hname]
  unfold getNodeToFollow target
  simp only [hleader', hstream, Bool.false_eq_true, false_and, if_false]
  cases m.tags.replicatefrom with
  | none => exact hfilter rfl (Ne.symm hm)
  | some node =>
      dsimp only
      by_cases hnode : node ≠ "" ∧ node ≠ m.name
      · refine hfilter ?_ ?_
        · rw [if_pos hnode, getMember_eq hleader]
          simp [hnode.1, hnode.2]
        · split_ifs
          · exact hnode.2
          · exact Ne.symm hm
      · have hnode' : ¬(node ≠ "" ∧ node ≠ m.name ∧ cluster.hasMember node = true) := fun h =>
          hnode ⟨h.1, h.2.1⟩
        simp only [if_neg hnode, if_neg hnode']
        exact hfilter rfl (Ne.symm hm)

/-- A member that names itself has no leader that is a member, and an empty name names nobody. -/
def Resolves (cluster : Cluster) (l m : Member) : Prop :=
  ¬(m.tags.replicatefrom = some m.name ∧ cluster.hasMember l.name = true) ∧
    ¬(m.tags.replicatefrom = some "" ∧ m.name ≠ "" ∧ cluster.hasMember "" = true)

instance (cluster : Cluster) (l m : Member) : Decidable (Resolves cluster l m) :=
  inferInstanceAs (Decidable (_ ∧ _))

/-- The role of a member. -/
def roleOf (cluster : Cluster) (n : Member) : PostgresqlRole :=
  if cluster.leaderName = some n.name then .primary else .replica

/-- Whether the slot of a member is expected on a node, by the tag of the member. -/
theorem expectedActive_roleOf (hleader : cluster.leader = some l) (hm : m.name ≠ l.name)
    (n : Member) :
    expectedActive cluster n.name (roleOf cluster n) m = true ↔
      if n.name = l.name then
        ∀ node, m.tags.replicatefrom = some node → node = l.name ∨ cluster.hasMember node = false
      else m.tags.replicatefrom = some n.name := by
  have hname : cluster.leaderName = some l.name := by rw [Cluster.leaderName, hleader]; rfl
  by_cases hn : n.name = l.name
  · rw [if_pos hn, roleOf, hname, hn, if_pos rfl, expectedActive, if_pos (.inl rfl), leaderFilter]
    cases m.tags.replicatefrom with
    | none => simp
    | some node => simp
  · have hrole : roleOf cluster n = .replica :=
      if_neg fun h => hn (Option.some.inj (hname ▸ h)).symm
    rw [if_neg hn, hrole, expectedActive, if_neg (by decide), replicaFilter, hname]
    simp [Ne.symm hm]

/-- The slot of a member is expected on the node that the member follows, and on no other. -/
def Agrees (cluster : Cluster) (l m : Member) : Prop :=
  ∀ n ∈ cluster.members, (m.name ≠ n.name ∧
    expectedActive cluster n.name (roleOf cluster n) m = true) ↔ target cluster l m = n.name

section Agrees

variable (hleader : cluster.leader = some l) (hm : m.name ≠ l.name)

include hleader hm

theorem agrees_of_untagged (hfrom : m.tags.replicatefrom = none) : Agrees cluster l m := by
  intro n _
  simp only [expectedActive_roleOf hleader hm, target, hfrom]
  by_cases hn : n.name = l.name
  · simp [hn, hm]
  · simp [hn, Ne.symm hn]

/-- A member that names itself follows the leader, which has no slot for it. -/
theorem agrees_own_iff (hmember : m ∈ cluster.members)
    (hfrom : m.tags.replicatefrom = some m.name) :
    Agrees cluster l m ↔ cluster.hasMember l.name = false := by
  have hself : cluster.hasMember m.name = true := hasMember_iff.mpr ⟨m, hmember, rfl⟩
  have htarget : target cluster l m = l.name := by simp [target, hfrom]
  simp only [Agrees, expectedActive_roleOf hleader hm, htarget, hfrom]
  constructor
  · intro h
    rw [Bool.eq_false_iff]
    intro hleader
    obtain ⟨n, hn, hname⟩ := hasMember_iff.mp hleader
    have hactive := ((h n hn).mpr hname.symm).2
    rw [if_pos hname] at hactive
    rcases hactive m.name rfl with heq | hnone
    · exact hm heq
    · rw [hself] at hnone
      cases hnone
  · intro h n hn
    have hne : n.name ≠ l.name := by
      intro hname
      rw [hasMember_iff.mpr ⟨n, hn, hname⟩] at h
      cases h
    rw [if_neg hne]
    exact iff_of_false (fun h => h.1 (Option.some.inj h.2)) (Ne.symm hne)

/-- The empty tag counts as no tag for the member, but a member with the empty name has a slot. -/
theorem agrees_empty_iff (hl : l.name ≠ "") (hown : m.name ≠ "")
    (hfrom : m.tags.replicatefrom = some "") :
    Agrees cluster l m ↔ cluster.hasMember "" = false := by
  have htarget : target cluster l m = l.name := by simp [target, hfrom]
  simp only [Agrees, expectedActive_roleOf hleader hm, htarget, hfrom]
  constructor
  · intro h
    rw [Bool.eq_false_iff]
    intro hmember
    obtain ⟨n, hn, hname⟩ := hasMember_iff.mp hmember
    have hne : n.name ≠ l.name := by
      rw [hname]
      exact Ne.symm hl
    refine hne ((h n hn).mp ⟨?_, ?_⟩).symm
    · rw [hname]
      exact hown
    · rw [if_neg hne, hname]
  · intro h n hn
    by_cases hname : n.name = l.name
    · rw [if_pos hname, hname]
      refine iff_of_true ⟨hm, fun node hnode => .inr ?_⟩ rfl
      rw [← Option.some.inj hnode]
      exact h
    · rw [if_neg hname]
      refine iff_of_false (fun hslot => ?_) (Ne.symm hname)
      rw [hasMember_iff.mpr ⟨n, hn, (Option.some.inj hslot.2).symm⟩] at h
      cases h

theorem agrees_of_tagged {node : String} (hfrom : m.tags.replicatefrom = some node)
    (hempty : node ≠ "") (hown : node ≠ m.name) : Agrees cluster l m := by
  intro n hn
  rw [expectedActive_roleOf hleader hm, hfrom]
  by_cases hnode : cluster.hasMember node = true
  · have htarget : target cluster l m = node := by simp [target, hfrom, hempty, hown, hnode]
    rw [htarget]
    by_cases hname : n.name = l.name
    · rw [if_pos hname, hname]
      simp [hm, hnode]
    · rw [if_neg hname, Option.some.injEq]
      exact ⟨And.right, fun heq => ⟨fun h => hown (heq.trans h.symm), heq⟩⟩
  · have htarget : target cluster l m = l.name := by simp [target, hfrom, hnode]
    rw [htarget]
    by_cases hname : n.name = l.name
    · rw [if_pos hname, hname]
      simp [hm, hnode]
    · rw [if_neg hname]
      refine iff_of_false (fun h => hnode ?_) (Ne.symm hname)
      exact hasMember_iff.mpr ⟨n, hn, (Option.some.inj h.2).symm⟩

theorem agrees_iff (hl : l.name ≠ "") (hmember : m ∈ cluster.members) :
    Agrees cluster l m ↔ Resolves cluster l m := by
  unfold Resolves
  cases hfrom : m.tags.replicatefrom with
  | none => simp [agrees_of_untagged hleader hm hfrom]
  | some node =>
      by_cases hown : node = m.name
      · subst hown
        have hempty : ¬(some m.name = some "" ∧ m.name ≠ "" ∧ cluster.hasMember "" = true) :=
          fun h => h.2.1 (Option.some.inj h.1)
        rw [agrees_own_iff hleader hm hmember hfrom, and_iff_left hempty]
        simp
      · by_cases hempty : node = ""
        · subst hempty
          rw [agrees_empty_iff hleader hm hl (Ne.symm hown) hfrom]
          simp [hown, Ne.symm hown]
        · simp [agrees_of_tagged hleader hm hfrom hempty hown, hown, hempty]

end Agrees

end Follow

/-! ## Slots where the replicas connect -/

section Connect

variable [NodeName String]

/-- For every member that streams and is not the leader, its slot is on the node that it follows
and on no other member. -/
def SlotsFollow (config : SlotsConfig) (canAdvanceSlots isPaused : Bool) (remoteMember : Member)
    (cluster : Cluster) : Prop :=
  ∀ m ∈ cluster.members, cluster.leaderName ≠ some m.name → m.tags.nostream = false →
    ∀ n ∈ cluster.members,
      (slotNameFromMemberName m.name ∈ getMembersSlots config cluster n.name (roleOf cluster n)
          n.tags.nofailover canAdvanceSlots ↔
        (getNodeToFollow config.isStandbyCluster isPaused remoteMember cluster m).map Member.name =
          some n.name)

/-- The two functions agree if and only if every tag resolves. -/
theorem slotsFollow_iff {config : SlotsConfig} (huse : config.useSlots = true)
    (hstandby : config.isStandbyCluster = false) {canAdvanceSlots : Bool}
    (hretention : ¬(canAdvanceSlots = true ∧ 0 < config.memberSlotsTtl)) {cluster : Cluster}
    (hretain : cluster.retainSlots = []) {l : Member} (hleader : cluster.leader = some l)
    (hl : l.name ≠ "")
    (hdistinct : (cluster.members.map fun m => slotNameFromMemberName m.name).Nodup)
    (isPaused : Bool) (remoteMember : Member) :
    SlotsFollow config canAdvanceSlots isPaused remoteMember cluster ↔
      ∀ m ∈ cluster.members, m.name ≠ l.name → m.tags.nostream = false → Resolves cluster l m := by
  have hname (m : Member) : cluster.leaderName ≠ some m.name ↔ m.name ≠ l.name := by
    rw [Cluster.leaderName, hleader]
    simp [eq_comm]
  unfold SlotsFollow
  refine forall₂_congr fun m hmember => ?_
  rw [hname]
  refine forall₂_congr fun hm hstream => ?_
  rw [← agrees_iff hleader hm hl hmember, Agrees]
  refine forall₂_congr fun n _ => ?_
  rw [slot_mem_getMembersSlots huse hretention hretain hdistinct hmember hstream, hstandby,
    getNodeToFollow_name hleader hl hm hstream, Option.some.injEq]

end Connect

/-- A member without a tag that concerns failover. -/
def member (name : String) (replicatefrom : Option String) : Member :=
  ⟨name, ⟨false, false, replicatefrom⟩, none, none⟩

/-- `use_slots` without retention. -/
def noRetention : SlotsConfig := ⟨true, false, 0, ∅⟩

/-- A chain: `c` follows `b`, which follows the leader. -/
def chain : Cluster :=
  ⟨some (member "a" none), [member "a" none, member "b" (some "a"), member "c" (some "b")], ∅, []⟩

theorem slotsFollow_chain : SlotsFollow noRetention true false (member "" none) chain :=
  (slotsFollow_iff (by decide) (by decide) (by decide) rfl rfl (by decide) (by decide +kernel) false
    (member "" none)).mpr (by decide)

/-- `b` names itself. -/
def selfReference : Cluster :=
  ⟨some (member "a" none), [member "a" none, member "b" (some "b")], ∅, []⟩

/-- `b` follows the leader, and the leader keeps no slot for it. -/
theorem not_slotsFollow_selfReference :
    selfReference.leaderName = some "a" ∧
      (selfReference.members.map fun m => slotNameFromMemberName m.name).Nodup ∧
      ¬SlotsFollow noRetention true false (member "" none) selfReference := by
  refine ⟨rfl, by decide +kernel, fun h => ?_⟩
  have hslot := (h (member "b" (some "b")) (by decide) (by decide) rfl (member "a" none)
    (by decide)).mpr (by decide)
  exact absurd hslot (by decide +kernel)

end Metatroni.Slots
