import Metatroni.Slots.Members

/-!
# Permanent slots and the slots of a node

`get_replication_slots` of `dcs/__init__.py` merges the slots of the members with
the permanent slots of the dynamic configuration. A node that can become the
leader keeps a slot for everybody but itself, so that after a failover the new
leader has every slot that the old one had.
-/

namespace Metatroni.Slots

/-! ## The configuration of permanent slots -/

/-- The truth value. -/
def Value.truthy : Value → Bool
  | .null => false
  | .bool b => b
  | .int n => n ≠ 0
  | .str s => s ≠ ""
  | .other truthy => truthy

namespace Slot

variable (slot : Slot)

/-- `slot.get(key, default)` -/
def get (key : String) (default : Value) : Value := (slot.lookup key).getD default

/-- `slot.get('database') and slot.get('plugin')` -/
def hasDatabaseAndPlugin : Bool :=
  (slot.get "database" .null).truthy && (slot.get "plugin" .null).truthy

end Slot

/-- `is_logical_slot`. -/
def isLogicalSlot : SlotValue → Bool
  | .dict slot => slot.get "type" (.str "logical") = .str "logical" && slot.hasDatabaseAndPlugin
  | _ => false

/-- `is_physical_slot`. -/
def isPhysicalSlot : SlotValue → Bool
  | .falsy => true
  | .dict slot => slot.isEmpty ||
      !isLogicalSlot (.dict slot) && slot.get "type" (.str "physical") = .str "physical"
  | .other => false

/-- `^[a-z0-9_]{1,63}$`. The final `$` matches at the end and before a line break at the end. -/
def slotNameMatches (slotName : String) : Bool :=
  let name := slotName.toList.takeWhile isSlotChar
  let rest := slotName.toList.dropWhile isSlotChar
  1 ≤ name.length && name.length ≤ 63 && (rest = [] || rest = ['\n'])

section

variable [NodeName String]

/-- The LSNs of the members that replicate from a certain node, by the name of their slots. -/
def cascadingLsns (cluster : Cluster) : Dict String ℤ :=
  (cluster.members.filter fun m => m.tags.replicatefrom.any fun node => node ≠ "").foldl
    (fun (lsns : Dict String ℤ) m => lsns.set (slotNameFromMemberName m.name) (m.lsn.getD 0)) ∅

/-- The known LSN of a permanent slot, which nobody can set in the configuration. -/
def withLsn (cluster : Cluster) (name : String) (slot : Slot) : Slot :=
  let memberLsn := if isPhysicalSlot (.dict slot) then ((cascadingLsns cluster).lookup name).getD 0
    else 0
  let lsn := max memberLsn ((cluster.slots.lookup name).getD 0)
  if lsn ≠ 0 then slot.set "lsn" (.int lsn) else slot.erase "lsn"

/-- `__permanent_slots`. -/
def permanentSlots (config : SlotsConfig) (cluster : Cluster) : Dict String SlotValue :=
  Dict.mapValues (fun name value => match value with
    | .falsy => .dict (withLsn cluster name ∅)
    | .dict slot => .dict (withLsn cluster name slot)
    | .other => .other) config.permanentSlots

/-- The slot is for a cluster of this type. -/
def isForCluster (isStandbyCluster : Bool) : SlotValue → Bool
  | .dict slot =>
      if isStandbyCluster then slot.get "cluster_type" .null ≠ .str "primary"
      else slot.get "cluster_type" .null ≠ .str "standby"
  | _ => true

/-- `permanent_physical_slots`. -/
def permanentPhysicalSlots (config : SlotsConfig) (cluster : Cluster) : Dict String SlotValue :=
  Dict.filter (fun _ value => isPhysicalSlot value && isForCluster config.isStandbyCluster value)
    (permanentSlots config cluster)

/-- `__permanent_logical_slots`. -/
def permanentLogicalSlots (config : SlotsConfig) (cluster : Cluster) : Dict String SlotValue :=
  Dict.filter (fun _ value => isLogicalSlot value) (permanentSlots config cluster)

/-! ## The slot on the primary -/

/-- The loop of `get_slot_name_on_primary`, for at most so many nodes. -/
def slotNameLoop (cluster : Cluster) :
    ℕ → List String → String → NodeTags → Option (Option String)
  | 0, _, _, _ => none
  | n + 1, seenNodes, name, tags =>
      if tags.nostream then some none
      else
        let replicatefrom := tags.replicatefrom.filter fun node => node ≠ "" && node ≠ name
        match replicatefrom.bind fun node => cluster.getMember node false with
        | none => some (some (slotNameFromMemberName name))
        | some member =>
            if member.name ∈ name :: seenNodes then some none
            else slotNameLoop cluster n (name :: seenNodes) member.name member.tags

/-- `get_slot_name_on_primary`. -/
def getSlotNameOnPrimary (cluster : Cluster) (name : String) (tags : NodeTags) : Option String :=
  (slotNameLoop cluster (cluster.members.length + 1) [] name tags).join

/-! ## The slots of a node -/

/-- `Postgresql`: what the slots need of it. -/
structure Postgresql where
  name : String
  role : PostgresqlRole
  canAdvanceSlots : Bool

/-- `_get_permanent_slots`. -/
def getPermanentSlots (config : SlotsConfig) (cluster : Cluster) (postgresql : Postgresql)
    (tags : NodeTags) (role : PostgresqlRole) : Dict String SlotValue :=
  if !config.useSlots || tags.nofailover then ∅
  else if config.isStandbyCluster ∨ getSlotNameOnPrimary cluster postgresql.name tags = none then
    if postgresql.canAdvanceSlots ∨ role = .standbyLeader then permanentPhysicalSlots config cluster
    else ∅
  else if postgresql.canAdvanceSlots ∨ role = .primary then permanentSlots config cluster
  else permanentLogicalSlots config cluster

/-- Where the members replicate from, by the names of the slots. -/
def topology (cluster : Cluster) : Dict String String :=
  cluster.members.foldl (fun (topology : Dict String String) m =>
    topology.set (slotNameFromMemberName m.name) (match m.tags.replicatefrom with
      | none | some "" => ""
      | some node => slotNameFromMemberName node)) ∅

/-- The slot that a value stands for, with its type. -/
def complete : SlotValue → Option Slot
  | .falsy => some physical
  | .other => none
  | .dict slot =>
      if slot.isEmpty then some physical
      else if "type" ∈ slot then some slot
      else
        some (slot.set "type"
          (.str (if slot.hasDatabaseAndPlugin then "logical" else "physical")))

/-- The body of the loop of `_merge_permanent_slots`: the slots and the logical slots that are
disabled. -/
def mergePermanentSlot (cluster : Cluster) (name : String) (role : PostgresqlRole)
    (canAdvanceSlots : Bool) (acc : Dict String Slot × List String)
    (item : Sigma fun _ : String => SlotValue) : Dict String Slot × List String :=
  let (slots, disabled) := acc
  let (slotName, value) := (item.1, item.2)
  if slotNameMatches slotName then
    match complete value with
    | none => acc
    | some value =>
        if value.get "type" .null = .str "physical" then
          if slotName ∉ slots ∧ slotName ≠ slotNameFromMemberName name then
            let expectedActive : Bool := ((topology cluster).lookup slotName).getD "" = "" ∧
              (role = .primary ∨ role = .standbyLeader)
            (slots.set slotName (value.set "expected_active" (.bool expectedActive)), disabled)
          else acc
        else if isLogicalSlot (.dict value) then
          if !canAdvanceSlots then (slots, disabled ++ [slotName])
          else if slotName ∈ slots then acc
          else (slots.set slotName value, disabled)
        else acc
  else acc

/-- `_merge_permanent_slots`. -/
def mergePermanentSlots (cluster : Cluster) (slots : Dict String Slot)
    (permanentSlots : Dict String SlotValue) (name : String) (role : PostgresqlRole)
    (canAdvanceSlots : Bool) : Dict String Slot × List String :=
  permanentSlots.entries.foldl (mergePermanentSlot cluster name role canAdvanceSlots) (slots, [])

/-- `get_replication_slots`. The name is that of the member, if the tags are those of a member. -/
def getReplicationSlots (config : SlotsConfig) (cluster : Cluster) (postgresql : Postgresql)
    (memberName : Option String) (tags : NodeTags) (role : Option PostgresqlRole) :
    Dict String Slot :=
  let name := memberName.getD postgresql.name
  let role := role.getD postgresql.role
  let slots := getMembersSlots config cluster name role tags.nofailover postgresql.canAdvanceSlots
  let permanentSlots := getPermanentSlots config cluster postgresql tags role
  (mergePermanentSlots cluster slots permanentSlots name role postgresql.canAdvanceSlots).1

/-! ## The chain of the nodes ends -/

/-- The members whose names are not in a list. -/
def unseen (cluster : Cluster) (seenNodes : List String) : List Member :=
  cluster.members.filter fun m => m.name ∉ seenNodes

omit [NodeName String] in
theorem length_unseen_lt {cluster : Cluster} {seenNodes : List String} {member : Member}
    (hmember : member ∈ cluster.members) (hnew : member.name ∉ seenNodes) :
    (unseen cluster (member.name :: seenNodes)).length < (unseen cluster seenNodes).length := by
  have hfilter : unseen cluster (member.name :: seenNodes) =
      (unseen cluster seenNodes).filter fun m => m.name ≠ member.name := by
    simp [unseen, List.filter_filter]
  rw [hfilter]
  refine List.length_filter_lt_length_iff_exists.mpr ⟨member, ?_, by simp⟩
  exact List.mem_filter.mpr ⟨hmember, by simpa using hnew⟩

theorem slotNameLoop_ne_none {cluster : Cluster} {n : ℕ} {seenNodes : List String} {name : String}
    (h : (unseen cluster (name :: seenNodes)).length < n) (tags : NodeTags) :
    slotNameLoop cluster n seenNodes name tags ≠ none := by
  induction n generalizing seenNodes name tags with
  | zero => exact absurd h (Nat.not_lt_zero _)
  | succ n ih =>
      rw [slotNameLoop]
      split
      · simp
      · dsimp only
        split
        · simp
        · next member hmember =>
            split
            · simp
            · next hnew =>
                obtain ⟨node, -, hget⟩ := Option.bind_eq_some_iff.mp hmember
                have hmem : member ∈ cluster.members := by
                  simp only [Cluster.getMember, Bool.false_eq_true, if_false,
                    Option.or_none] at hget
                  exact List.mem_of_find?_eq_some hget
                exact ih (Nat.lt_of_lt_of_le (length_unseen_lt hmem hnew) (Nat.le_of_lt_succ h))
                  member.tags

/-- The loop visits each member at most once. -/
theorem slotNameLoop_eq (cluster : Cluster) (name : String) (tags : NodeTags) :
    slotNameLoop cluster (cluster.members.length + 1) [] name tags =
      some (getSlotNameOnPrimary cluster name tags) := by
  have hlength : (unseen cluster [name]).length < cluster.members.length + 1 :=
    Nat.lt_succ_of_le (List.length_filter_le _ _)
  cases hloop : slotNameLoop cluster (cluster.members.length + 1) [] name tags with
  | none => exact absurd hloop (slotNameLoop_ne_none hlength tags)
  | some result => rw [getSlotNameOnPrimary, hloop]; rfl

/-! ## Which slots a node has -/

/-- A permanent slot that `_merge_permanent_slots` takes on a node with this name. -/
def Accepted (name : String) (canAdvanceSlots : Bool) (slotName : String) (value : SlotValue) :
    Prop :=
  slotNameMatches slotName = true ∧ ∃ slot ∈ complete value,
    if slot.get "type" .null = .str "physical" then slotName ≠ slotNameFromMemberName name
    else isLogicalSlot (.dict slot) = true ∧ canAdvanceSlots = true

theorem mem_mergePermanentSlot (cluster : Cluster) (name : String) (role : PostgresqlRole)
    (canAdvanceSlots : Bool) (acc : Dict String Slot × List String)
    (item : Sigma fun _ : String => SlotValue) (slot : String) :
    slot ∈ (mergePermanentSlot cluster name role canAdvanceSlots acc item).1 ↔
      slot ∈ acc.1 ∨ item.1 = slot ∧ Accepted name canAdvanceSlots item.1 item.2 := by
  obtain ⟨slots, disabled⟩ := acc
  obtain ⟨slotName, value⟩ := item
  unfold mergePermanentSlot Accepted
  dsimp only
  cases hmatch : slotNameMatches slotName with
  | false => simp
  | true =>
      cases hcomplete : complete value with
      | none => simp
      | some value' =>
          simp only [if_true, Option.mem_some_iff, exists_eq_left', true_and]
          by_cases hphysical : value'.get "type" .null = .str "physical"
          · rw [if_pos hphysical, if_pos hphysical, apply_ite Prod.fst]
            exact Dict.mem_ite_set _ _ _ _
          · rw [if_neg hphysical, if_neg hphysical]
            cases isLogicalSlot (.dict value') <;> cases canAdvanceSlots
            case true.true =>
              have hadd := Dict.mem_ite_set (p := True) slots slotName slot value'
              simp only [and_true, ite_not] at hadd
              rw [if_pos rfl, if_neg (by simp), apply_ite Prod.fst, hadd]
              simp
            all_goals simp

/-- The merge adds what is accepted. -/
theorem mem_mergePermanentSlots (cluster : Cluster) (slots : Dict String Slot)
    (permanentSlots : Dict String SlotValue) (name : String) (role : PostgresqlRole)
    (canAdvanceSlots : Bool) (slot : String) :
    slot ∈ (mergePermanentSlots cluster slots permanentSlots name role canAdvanceSlots).1 ↔
      slot ∈ slots ∨ ∃ item ∈ permanentSlots.entries, item.1 = slot ∧
        Accepted name canAdvanceSlots item.1 item.2 := by
  have hfold : ∀ (items : List (Sigma fun _ : String => SlotValue))
      (acc : Dict String Slot × List String),
      slot ∈ (items.foldl (mergePermanentSlot cluster name role canAdvanceSlots) acc).1 ↔
        slot ∈ acc.1 ∨ ∃ item ∈ items, item.1 = slot ∧
          Accepted name canAdvanceSlots item.1 item.2 := by
    intro items
    induction items with
    | nil => simp
    | cons item items ih =>
        intro acc
        rw [List.foldl_cons, ih, mem_mergePermanentSlot, or_assoc]
        simp
  exact hfold permanentSlots.entries (slots, [])

/-! ## Failover -/

/-- A member that can become the leader and that the primary feeds. -/
structure Candidate (cluster : Cluster) (m : Member) : Prop where
  mem : m ∈ cluster.members
  failover : m.tags.nofailover = false
  stream : m.tags.nostream = false
  fed : getSlotNameOnPrimary cluster m.name m.tags ≠ none

/-- The permanent slots that are considered on the nodes that can become the leader. -/
def failoverSlots (config : SlotsConfig) (cluster : Cluster) : Dict String SlotValue :=
  if config.isStandbyCluster then permanentPhysicalSlots config cluster
  else permanentSlots config cluster

/-- A permanent slot with a valid name and value. -/
def Valid (slotName : String) (value : SlotValue) : Prop :=
  slotNameMatches slotName = true ∧ ∃ slot ∈ complete value,
    slot.get "type" .null = .str "physical" ∨ isLogicalSlot (.dict slot) = true

theorem accepted_or_own_iff (name slotName : String) (value : SlotValue) :
    Accepted name true slotName value ∨ slotName = slotNameFromMemberName name ↔
      Valid slotName value ∨ slotName = slotNameFromMemberName name := by
  by_cases hown : slotName = slotNameFromMemberName name
  · simp [hown]
  · unfold Accepted Valid
    simp only [hown, or_false, and_congr_right_iff]
    intro _
    refine exists_congr fun slot => and_congr_right fun _ => ?_
    split
    · next hphysical => simp [hphysical, hown]
    · next hphysical => simp [hphysical]

/-- What a candidate keeps and its own slot are the slots of the members that stream, the retained
slots and the permanent slots. -/
theorem mem_or_own_iff {config : SlotsConfig} (huse : config.useSlots = true)
    (httl : 0 < config.memberSlotsTtl) {cluster : Cluster} {m : Member} (hm : Candidate cluster m)
    {postgresql : Postgresql} (hname : postgresql.name = m.name)
    (hadvance : postgresql.canAdvanceSlots = true) (role : Option PostgresqlRole) (slot : String) :
    slot ∈ getReplicationSlots config cluster postgresql none m.tags role ∨
        slot = slotNameFromMemberName m.name ↔
      (∃ n ∈ cluster.members, n.tags.nostream = false ∧ slotNameFromMemberName n.name = slot) ∨
        slot ∈ cluster.retainSlots ∨
        ∃ item ∈ (failoverSlots config cluster).entries, item.1 = slot ∧ Valid item.1 item.2 := by
  by_cases hown : slot = slotNameFromMemberName m.name
  · exact iff_of_true (.inr hown) (.inl ⟨m, hm.mem, hm.stream, hown.symm⟩)
  have hpermanent : getPermanentSlots config cluster postgresql m.tags
      (role.getD postgresql.role) = failoverSlots config cluster := by
    simp [getPermanentSlots, failoverSlots, huse, hm.failover, hname, hm.fed, hadvance]
  have hmembers (n : Member) :
      n ∈ slotMembers config cluster m.name (role.getD postgresql.role) false true ∧
          slotNameFromMemberName n.name = slot ↔
        n ∈ cluster.members ∧ n.tags.nostream = false ∧ slotNameFromMemberName n.name = slot := by
    have hother (hslot : slotNameFromMemberName n.name = slot) : n.name ≠ m.name := fun h =>
      hown (hslot.symm.trans (congrArg slotNameFromMemberName h))
    simp only [slotMembers, httl, decide_true, Bool.and_self, if_true, List.mem_filter]
    constructor
    · rintro ⟨⟨⟨hn, htags⟩, -⟩, hslot⟩
      exact ⟨hn, by simpa [hother hslot] using htags, hslot⟩
    · rintro ⟨hn, hstream, hslot⟩
      exact ⟨⟨⟨hn, by simp [hother hslot, hstream]⟩, rfl⟩, hslot⟩
  have haccepted (item : Sigma fun _ : String => SlotValue) :
      item.1 = slot ∧ Accepted m.name true item.1 item.2 ↔
        item.1 = slot ∧ Valid item.1 item.2 := by
    refine and_congr_right fun hslot => ?_
    have h := accepted_or_own_iff m.name item.1 item.2
    rwa [hslot, or_iff_left hown, or_iff_left hown, ← hslot] at h
  simp only [getReplicationSlots, Option.getD_none, hname, hm.failover, hadvance, hpermanent,
    mem_mergePermanentSlots, mem_getMembersSlots huse, hmembers, haccepted, hown, or_false,
    ne_eq, not_false_eq_true, and_true, true_and, or_assoc]

/-- Two candidates keep the same slots, each but its own, whatever their roles are. -/
theorem mem_or_own_congr {config : SlotsConfig} (huse : config.useSlots = true)
    (httl : 0 < config.memberSlotsTtl) {cluster : Cluster} {a b : Member}
    (ha : Candidate cluster a) (hb : Candidate cluster b) {postgresqlA postgresqlB : Postgresql}
    (hnameA : postgresqlA.name = a.name) (hnameB : postgresqlB.name = b.name)
    (hadvanceA : postgresqlA.canAdvanceSlots = true)
    (hadvanceB : postgresqlB.canAdvanceSlots = true) (roleA roleB : Option PostgresqlRole)
    (slot : String) :
    slot ∈ getReplicationSlots config cluster postgresqlA none a.tags roleA ∨
        slot = slotNameFromMemberName a.name ↔
      slot ∈ getReplicationSlots config cluster postgresqlB none b.tags roleB ∨
        slot = slotNameFromMemberName b.name := by
  rw [mem_or_own_iff huse httl ha hnameA hadvanceA,
    mem_or_own_iff huse httl hb hnameB hadvanceB]

end

/-- A leader and a replica, with a retained slot and a permanent logical slot. -/
def pair : Cluster := ⟨some (member "a" none), [member "a" none, member "b" none], ∅, ["c"]⟩

/-- A permanent logical slot. -/
def logicalSlot : Slot :=
  ((∅ : Slot).set "database" (.str "app")).set "plugin" (.str "test_decoding")

def retention (useSlots : Bool) : SlotsConfig :=
  ⟨useSlots, false, 1800, (∅ : Dict String SlotValue).set "l" (.dict logicalSlot)⟩

theorem candidate_pair {m : Member} (hm : m = member "a" none ∨ m = member "b" none) :
    Candidate pair m := by
  rcases hm with rfl | rfl
  · exact ⟨by decide, rfl, rfl, by decide +kernel⟩
  · exact ⟨by decide, rfl, rfl, by decide +kernel⟩

/-- After a failover from `a` to `b` the logical slot is still there. -/
theorem logical_mem_or_own_pair :
    "l" ∈ getReplicationSlots (retention true) pair ⟨"b", .replica, true⟩ none
        (member "b" none).tags none ∨ "l" = slotNameFromMemberName "b" :=
  (mem_or_own_congr rfl (by decide) (candidate_pair (.inl rfl)) (candidate_pair (.inr rfl)) rfl rfl
    rfl rfl none none "l").mp (.inl (show "l" ∈ getReplicationSlots (retention true) pair
      ⟨"a", .primary, true⟩ none (member "a" none).tags none by decide +kernel))

/-- Without `use_slots` no node keeps a slot, so the own slots are all that differs. -/
theorem not_mem_or_own_congr_of_not_useSlots :
    0 < (retention false).memberSlotsTtl ∧ Candidate pair (member "a" none) ∧
      Candidate pair (member "b" none) ∧
      ¬∀ slot, slot ∈ getReplicationSlots (retention false) pair ⟨"a", .primary, true⟩ none
            (member "a" none).tags none ∨ slot = slotNameFromMemberName "a" ↔
          slot ∈ getReplicationSlots (retention false) pair ⟨"b", .replica, true⟩ none
            (member "b" none).tags none ∨ slot = slotNameFromMemberName "b" := by
  refine ⟨by decide, candidate_pair (.inl rfl), candidate_pair (.inr rfl), fun h => ?_⟩
  exact absurd ((h (slotNameFromMemberName "a")).mp (.inr rfl)) (by decide +kernel)

end Metatroni.Slots
