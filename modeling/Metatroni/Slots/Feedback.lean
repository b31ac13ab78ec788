import Metatroni.Slots.Upstream
import Metatroni.Lib.Fuel

/-!
# The walk for `hot_standby_feedback`

A standby enforces `hot_standby_feedback` if it has permanent logical slots, or if a
node that replicates from it has them. `should_enforce_hot_standby_feedback` of
`dcs/__init__.py` asks the nodes that replicate from a node, without remembering which
nodes it has asked; only `get_slot_name_on_primary` keeps it out of circles of tags.

## Implementation notes

The walk is the search of `Fuel.search`, over the name of a member (`none` for the node
itself, which is given by its tags) and its tags.
-/

namespace Metatroni.Slots

/-- An object with tags: a member, or the node itself, which has no name here. -/
structure Tagged where
  memberName : Option String
  tags : NodeTags
  deriving DecidableEq

/-- A member as an object with tags. -/
def Member.asTagged (m : Member) : Tagged := ⟨some m.name, m.tags⟩

section Walk

variable [NodeName String] (config : SlotsConfig) (cluster : Cluster) (postgresql : Postgresql)

/-- `_has_permanent_logical_slots` -/
def hasPermanentLogicalSlots (member : Tagged) : Bool :=
  (getReplicationSlots config cluster postgresql member.memberName member.tags
    (some .replica)).entries.any fun e => e.2.get "type" .null = .str "logical"

/-- The name of the node that is checked. -/
def checkedName (member : Tagged) : String := member.memberName.getD postgresql.name

/-- The nodes that replicate from the node are asked. -/
def asksMembers (member : Tagged) : Bool :=
  config.useSlots &&
    (getSlotNameOnPrimary cluster (checkedName postgresql member) member.tags).any (· ≠ "")

/-- The members that replicate from the node. -/
def cascadingMembers (member : Tagged) : List Tagged :=
  (cluster.members.filter fun m =>
    m.tags.replicatefrom = some (checkedName postgresql member) &&
      cluster.leaderName ≠ some m.name).map Member.asTagged

/-- `should_enforce_hot_standby_feedback`, to a depth of at most so many nodes. -/
def shouldEnforceHotStandbyFeedback : ℕ → Tagged → Option Bool
  | 0, _ => none
  | n + 1, member =>
      if hasPermanentLogicalSlots config cluster postgresql member then some true
      else if asksMembers config cluster postgresql member then
        (cascadingMembers cluster postgresql member).anyM (shouldEnforceHotStandbyFeedback n)
      else some false

/-- The search that the function is. -/
abbrev walk : ℕ → Tagged → Option Bool :=
  Fuel.search (hasPermanentLogicalSlots config cluster postgresql)
    (asksMembers config cluster postgresql) (cascadingMembers cluster postgresql)

theorem shouldEnforceHotStandbyFeedback_eq_walk :
    shouldEnforceHotStandbyFeedback config cluster postgresql =
      walk config cluster postgresql := by
  funext n
  induction n with
  | zero => rfl
  | succ n ih =>
      funext member
      rw [shouldEnforceHotStandbyFeedback, walk, Fuel.search, ih]

/-- The node or a node below it, as far as nodes are asked, has permanent logical slots. -/
abbrev HasLogicalSlotsBelow (member : Tagged) : Prop :=
  Fuel.Found (hasPermanentLogicalSlots config cluster postgresql)
    (asksMembers config cluster postgresql) (cascadingMembers cluster postgresql) member

/-- The node has no permanent logical slots and asks the nodes that replicate from it. -/
def AsksBelow (member : Tagged) : Prop :=
  hasPermanentLogicalSlots config cluster postgresql member = false ∧
    asksMembers config cluster postgresql member = true

/-- A node asks a member of its own name, which asks again, and no member that is asked before
that one has permanent logical slots below it. -/
def AsksItself (member : Tagged) : Prop :=
  AsksBelow config cluster postgresql member ∧ ∃ own before after,
    cascadingMembers cluster postgresql member = before ++ own :: after ∧
    checkedName postgresql own = checkedName postgresql member ∧
    AsksBelow config cluster postgresql own ∧
    ∀ other ∈ before, ¬HasLogicalSlotsBelow config cluster postgresql other

end Walk

/-! ## Termination -/

/-- The names of the members are keys of the DCS. -/
structure HasKeys (cluster : Cluster) : Prop where
  nodup : (cluster.members.map Member.name).Nodup
  ne_empty : ∀ m ∈ cluster.members, m.name ≠ ""

section Termination

variable [NodeName String] {config : SlotsConfig} {cluster : Cluster} {postgresql : Postgresql}

/-- A member that does not replicate from itself. -/
def IsProper (cluster : Cluster) (m : Member) : Prop :=
  m ∈ cluster.members ∧ m.tags.replicatefrom ≠ some m.name

omit [NodeName String] in
theorem mem_cascadingMembers {member c : Tagged} :
    c ∈ cascadingMembers cluster postgresql member ↔ ∃ m ∈ cluster.members,
      m.tags.replicatefrom = some (checkedName postgresql member) ∧
        cluster.leaderName ≠ some m.name ∧ m.asTagged = c := by
  simp [cascadingMembers, and_assoc]

omit [NodeName String] in
theorem HasKeys.eq_of_name_eq (h : HasKeys cluster) {m n : Member} (hm : m ∈ cluster.members)
    (hn : n ∈ cluster.members) (hname : m.name = n.name) : m = n :=
  List.inj_on_of_nodup_map h.nodup hm hn hname

omit [NodeName String] in
theorem HasKeys.nodup_cascadingMembers (h : HasKeys cluster) (postgresql : Postgresql)
    (member : Tagged) :
    ((cascadingMembers cluster postgresql member).map Tagged.memberName).Nodup := by
  rw [cascadingMembers, List.map_map]
  have hsub := (List.filter_sublist (p := fun m : Member =>
    m.tags.replicatefrom = some (checkedName postgresql member) &&
      cluster.leaderName ≠ some m.name) (l := cluster.members)).map Member.name
  have hnames := (h.nodup.sublist hsub).map (Option.some_injective String)
  rwa [List.map_map] at hnames

omit [NodeName String] in
theorem HasKeys.tagged_eq (h : HasKeys cluster) {m n : Member} (hm : m ∈ cluster.members)
    (hfrom : n.tags.replicatefrom = some m.name) (hne : m.name ≠ n.name) :
    tagged cluster n = some m := by
  have hfind : cluster.getMember m.name false = some m := by
    rw [Cluster.getMember, if_neg Bool.false_ne_true, Option.or_none]
    cases hsome : cluster.members.find? fun x => x.name = m.name with
    | none =>
        have hnone := List.find?_eq_none.mp hsome m hm
        simp at hnone
    | some x =>
        have hname : x.name = m.name := by simpa using List.find?_some hsome
        rw [h.eq_of_name_eq (List.mem_of_find?_eq_some hsome) hm hname]
  rw [tagged, hfrom, Option.filter_some, if_pos (by simp [h.ne_empty m hm, hne]), Option.bind_some,
    hfind]

omit [NodeName String] in
/-- What a proper member asks is proper as well. -/
theorem IsProper.of_asked (h : HasKeys cluster) {m : Member} {c : Tagged} (hm : IsProper cluster m)
    (hc : c ∈ cascadingMembers cluster postgresql m.asTagged) :
    ∃ n, IsProper cluster n ∧ tagged cluster n = some m ∧ n.asTagged = c := by
  obtain ⟨n, hn, hfrom, -, rfl⟩ := mem_cascadingMembers.mp hc
  have hne : m.name ≠ n.name := by
    intro hname
    obtain rfl := h.eq_of_name_eq hm.1 hn hname
    exact hm.2 hfrom
  refine ⟨n, ⟨hn, fun hself => hne ?_⟩, h.tagged_eq hm.1 hfrom hne, rfl⟩
  exact Option.some.inj (hfrom.symm.trans hself)

theorem not_repeats_of_asksMembers {m : Member}
    (h : asksMembers config cluster postgresql m.asTagged = true) :
    ¬Chain.Repeats (tagged cluster) Member.name m := by
  intro hrepeats
  have hnone := (getSlotNameOnPrimary_eq_none_iff cluster m).mpr (.inr hrepeats)
  change (config.useSlots && (getSlotNameOnPrimary cluster m.name m.tags).any _) = true at h
  rw [hnone, Option.any_none, Bool.and_false] at h
  cases h

/-- From a proper member, the walk never goes on for ever: each step down makes the chain of
tags longer, which `get_slot_name_on_primary` only accepts without repetitions. -/
theorem IsProper.acc (h : HasKeys cluster) {m : Member} (hm : IsProper cluster m) :
    Acc (Fuel.Asked (hasPermanentLogicalSlots config cluster postgresql)
      (asksMembers config cluster postgresql) (cascadingMembers cluster postgresql))
      m.asTagged := by
  have hlong : ∀ left k (m : Member), (cluster.members.map Member.name).toFinset.card ≤ k + left →
      IsProper cluster m → (Chain.node (tagged cluster) k m).isSome →
        Acc (Fuel.Asked (hasPermanentLogicalSlots config cluster postgresql)
          (asksMembers config cluster postgresql) (cascadingMembers cluster postgresql))
          m.asTagged := by
    intro left
    induction left with
    | zero =>
        intro k m hcard hm hk
        refine ⟨_, fun c hc => ?_⟩
        have hkeys : ∀ i x, Chain.node (tagged cluster) i m = some x →
            x.name ∈ (cluster.members.map Member.name).toFinset := by
          intro i x hx
          refine List.mem_toFinset.mpr (List.mem_map_of_mem (f := Member.name) ?_)
          exact Chain.forall_node (q := fun m => m ∈ cluster.members)
            (fun a b _ hab => (tagged_eq_some hab).1) hm.1 hx
        have := Chain.succ_le_card_of_not_repeats (not_repeats_of_asksMembers hc.2.1) hkeys hk
        omega
    | succ left ih =>
        intro k m hcard hm hk
        refine ⟨_, fun c hc => ?_⟩
        obtain ⟨n, hn, htagged, rfl⟩ := hm.of_asked h hc.2.2
        refine ih (k + 1) n (by omega) hn ?_
        rwa [Chain.node_succ_of_some htagged]
  exact hlong _ 0 m (Nat.le_of_eq (Nat.zero_add _).symm) hm rfl

theorem asksBelow_of_not_terminates {member : Tagged}
    (h : ¬Fuel.Terminates (walk config cluster postgresql) member) :
    AsksBelow config cluster postgresql member := by
  refine ⟨Bool.eq_false_iff.mpr fun hdirect => h ?_, Bool.ne_false_iff.mp fun hasks => h ?_⟩
  · exact Fuel.terminates_search_of_direct hdirect
  · exact Fuel.terminates_search_of_not_asks hasks

/-- A member of another name than the one that it replicates from is proper. -/
theorem terminates_walk_of_name_ne (h : HasKeys cluster) {member : Tagged} {m : Member}
    (hm : m ∈ cluster.members)
    (hfrom : m.tags.replicatefrom = some (checkedName postgresql member))
    (hne : m.name ≠ checkedName postgresql member) :
    Fuel.Terminates (walk config cluster postgresql) m.asTagged := by
  have hproper : IsProper cluster m :=
    ⟨hm, fun hself => hne (Option.some.inj (hself.symm.trans hfrom))⟩
  exact Fuel.terminates_search_of_acc (hproper.acc h)

/-- The walk ends if and only if the node does not come to ask a member of its own name. -/
theorem terminates_shouldEnforceHotStandbyFeedback_iff (h : HasKeys cluster) (member : Tagged) :
    Fuel.Terminates (shouldEnforceHotStandbyFeedback config cluster postgresql) member ↔
      ¬AsksItself config cluster postgresql member := by
  rw [shouldEnforceHotStandbyFeedback_eq_walk]
  constructor
  · rintro hends ⟨⟨hdirect, hasks⟩, own, before, after, hchildren, hname, hown, hbefore⟩
    have hsame : cascadingMembers cluster postgresql own =
        cascadingMembers cluster postgresql member := by
      rw [cascadingMembers, cascadingMembers, hname]
    exact Fuel.not_terminates_search_of_child hdirect hasks hchildren hbefore
      (Fuel.not_terminates_search_of_own hown.1 hown.2 (hsame.trans hchildren) hbefore) hends
  · intro hitself
    by_contra hends
    obtain ⟨own, hown, hownEnds⟩ : ∃ own ∈ cascadingMembers cluster postgresql member,
        ¬Fuel.Terminates (walk config cluster postgresql) own := by
      by_contra hall
      simp only [not_exists, not_and, not_not] at hall
      exact hends (Fuel.terminates_search_of_anyM (Fuel.exists_anyM hall))
    obtain ⟨before, after, hsplit⟩ := List.append_of_mem hown
    obtain ⟨m, hm, hfrom, -, rfl⟩ := mem_cascadingMembers.mp hown
    have hname : m.name = checkedName postgresql member := by
      by_contra hne
      exact hownEnds (terminates_walk_of_name_ne h hm hfrom hne)
    have hbefore : ∀ other ∈ before, Fuel.Terminates (walk config cluster postgresql) other := by
      intro other hother
      have hmem : other ∈ cascadingMembers cluster postgresql member := by
        rw [hsplit]
        exact List.mem_append_left _ hother
      obtain ⟨n, hn, hfrom', -, rfl⟩ := mem_cascadingMembers.mp hmem
      have hne : n.name ≠ m.name := by
        have hnodup := h.nodup_cascadingMembers postgresql member
        rw [hsplit, List.map_append, List.map_cons] at hnodup
        intro hsame
        refine List.disjoint_of_nodup_append hnodup (List.mem_map_of_mem hother) ?_
        exact List.mem_cons.mpr (.inl (congrArg some hsame))
      exact terminates_walk_of_name_ne h hn hfrom' (hname ▸ hne)
    refine hitself ⟨asksBelow_of_not_terminates hends, _, before, after, hsplit, hname,
      asksBelow_of_not_terminates hownEnds, fun other hother hfound => hends ?_⟩
    refine Fuel.terminates_search_of_anyM ?_
    rw [hsplit]
    exact Fuel.exists_anyM_of_found hbefore ⟨other, hother, hfound⟩

end Termination

/-- A standby that runs in a cluster with its leader `a`. -/
def standby (name : String) : Postgresql := ⟨name, .replica, true⟩

/-- The walk from a standby that another one replicates from. -/
theorem terminates_shouldEnforceHotStandbyFeedback_chain :
    Fuel.Terminates (shouldEnforceHotStandbyFeedback noRetention chain (standby "b"))
      (member "b" (some "a")).asTagged := by
  refine (terminates_shouldEnforceHotStandbyFeedback_iff ⟨by decide, by decide⟩ _).mpr ?_
  rintro ⟨-, own, before, after, hchildren, hname, -⟩
  have hown : own ∈ cascadingMembers chain (standby "b") (member "b" (some "a")).asTagged := by
    rw [hchildren]
    exact List.mem_append_right _ List.mem_cons_self
  have hsingle : cascadingMembers chain (standby "b") (member "b" (some "a")).asTagged =
      [(member "c" (some "b")).asTagged] := by decide
  rw [hsingle, List.mem_singleton] at hown
  subst hown
  exact absurd hname (by decide)

/-- A standby that is tagged to replicate from itself asks itself for ever. -/
theorem not_terminates_shouldEnforceHotStandbyFeedback_selfReference :
    ¬Fuel.Terminates (shouldEnforceHotStandbyFeedback noRetention selfReference (standby "b"))
      (member "b" (some "b")).asTagged := by
  rw [shouldEnforceHotStandbyFeedback_eq_walk]
  have hchildren : cascadingMembers selfReference (standby "b") (member "b" (some "b")).asTagged =
      [] ++ (member "b" (some "b")).asTagged :: [] := by decide +kernel
  exact Fuel.not_terminates_search_of_own (by decide +kernel) (by decide +kernel) hchildren
    (fun c hc => absurd hc List.not_mem_nil)

end Metatroni.Slots
