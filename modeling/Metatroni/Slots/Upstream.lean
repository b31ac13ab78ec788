import Metatroni.Slots.Permanent
import Metatroni.Lib.Chain

/-!
# The slot on the primary and the node to follow

`get_slot_name_on_primary` walks from a node along the `replicatefrom` tags. What
it returns is meant to be the slot of the node that connects the first one to
the primary, so the walk should end where `_get_node_to_follow` gives the leader.
-/

namespace Metatroni.Slots

/-! ## The walk along the tags -/

/-- The member that the tag of a node names, if it does not name the node itself. -/
def tagged (cluster : Cluster) (m : Member) : Option Member :=
  (m.tags.replicatefrom.filter fun node => node ≠ "" && node ≠ m.name).bind fun node =>
    cluster.getMember node false

section Walk

variable [NodeName String]

/-- The loop is a search along the tags. -/
theorem slotNameLoop_eq_search (cluster : Cluster) (n : ℕ) (seenNodes : List String) (m : Member) :
    slotNameLoop cluster n seenNodes m.name m.tags =
      (Chain.search (tagged cluster) Member.name (fun x => x.tags.nostream) n seenNodes m).map
        (Option.map fun x => slotNameFromMemberName x.name) := by
  induction n generalizing seenNodes m with
  | zero => rfl
  | succ n ih =>
      rw [slotNameLoop, Chain.search]
      split
      · rfl
      · cases hnext : tagged cluster m with
        | none =>
            rw [tagged] at hnext
            simp only [hnext]
            rfl
        | some member =>
            rw [tagged] at hnext
            simp only [hnext]
            split
            · rfl
            · exact ih _ member

/-- The function returns nothing exactly if the walk meets a node that does not stream or a node
that it has seen. -/
theorem getSlotNameOnPrimary_eq_none_iff (cluster : Cluster) (m : Member) :
    getSlotNameOnPrimary cluster m.name m.tags = none ↔
      Chain.Meets (tagged cluster) (fun x => x.tags.nostream = true) m ∨
        Chain.Repeats (tagged cluster) Member.name m := by
  have hloop := slotNameLoop_eq cluster m.name m.tags
  rw [slotNameLoop_eq_search] at hloop
  obtain ⟨result, hresult, heq⟩ := Option.map_eq_some_iff.mp hloop
  rw [← heq, Option.map_eq_none_iff]
  exact (Chain.search_nil_spec hresult).1

/-- Otherwise it returns the slot of the last node of the walk. -/
theorem getSlotNameOnPrimary_eq_some_iff (cluster : Cluster) (m : Member) (slot : String) :
    getSlotNameOnPrimary cluster m.name m.tags = some slot ↔
      ¬Chain.Meets (tagged cluster) (fun x => x.tags.nostream = true) m ∧
        ¬Chain.Repeats (tagged cluster) Member.name m ∧
        ∃ x, Chain.EndsAt (tagged cluster) m x ∧ slotNameFromMemberName x.name = slot := by
  rw [← and_assoc, ← not_or, ← getSlotNameOnPrimary_eq_none_iff]
  have hloop := slotNameLoop_eq cluster m.name m.tags
  rw [slotNameLoop_eq_search] at hloop
  obtain ⟨result, hresult, heq⟩ := Option.map_eq_some_iff.mp hloop
  rw [← heq]
  cases result with
  | none => simp
  | some y =>
      have hy := (Chain.search_nil_spec hresult).2 y rfl
      simp only [Option.map_some, Option.some.injEq, reduceCtorEq, not_false_eq_true, true_and]
      constructor
      · exact fun hslot => ⟨y, hy, hslot⟩
      · rintro ⟨x, hx, hslot⟩
        rw [hy.unique hx, hslot]

end Walk

/-! ## Streaming -/

section Streaming

variable (isStandbyCluster isPaused : Bool) (remoteMember : Member) (cluster : Cluster)

/-- The node streams directly from the leader. -/
def StreamsFromLeader (n : Member) : Prop :=
  (getNodeToFollow isStandbyCluster isPaused remoteMember cluster n).map Member.name =
    cluster.leaderName

instance (n : Member) :
    Decidable (StreamsFromLeader isStandbyCluster isPaused remoteMember cluster n) :=
  inferInstanceAs (Decidable (_ = _))

/-- The node that a node streams from, unless it is the leader. -/
def upstream (n : Member) : Option Member :=
  if StreamsFromLeader isStandbyCluster isPaused remoteMember cluster n then none
  else getNodeToFollow isStandbyCluster isPaused remoteMember cluster n

variable {isStandbyCluster isPaused remoteMember cluster} {l m : Member}

theorem tagged_eq_some {b : Member} (h : tagged cluster m = some b) :
    b ∈ cluster.members ∧ m.tags.replicatefrom = some b.name ∧ b.name ≠ "" ∧ b.name ≠ m.name := by
  obtain ⟨node, hnode, hget⟩ := Option.bind_eq_some_iff.mp h
  obtain ⟨hfrom, hne⟩ := Option.filter_eq_some_iff.mp hnode
  simp only [Cluster.getMember, Bool.false_eq_true, if_false, Option.or_none] at hget
  obtain rfl : b.name = node := by simpa using List.find?_some hget
  exact ⟨List.mem_of_find?_eq_some hget, hfrom, by simpa using hne⟩

/-- While there is a leader, a node streams from the member that its tag names, or else from the
leader. -/
theorem getNodeToFollow_eq (hleader : cluster.leader = some l) (hl : l.name ≠ "")
    (hm : m.name ≠ l.name) :
    getNodeToFollow isStandbyCluster isPaused remoteMember cluster m =
      if m.tags.nostream then none else some ((tagged cluster m).getD l) := by
  have hleader' : cluster.leader.filter (fun l => l.name ≠ "") = some l := by simp [hleader, hl]
  have hunlocked : cluster.isUnlocked = false := by
    simp [Cluster.isUnlocked, Cluster.leaderName, hleader, hl]
  have hown : ¬(some l).map Member.name = some m.name := fun h => hm (Option.some.inj h).symm
  unfold getNodeToFollow
  simp only [hleader', hunlocked, hown, Bool.false_eq_true, false_and, or_self, and_false, if_false]
  split
  · rfl
  cases htagged : tagged cluster m with
  | some b =>
      obtain ⟨-, hfrom, hempty, hne⟩ := tagged_eq_some htagged
      have hget : cluster.getMember b.name false = some b := by
        simpa [tagged, hfrom, Option.filter_some, hempty, hne] using htagged
      have hget' : cluster.getMember b.name true = some b := by
        simp only [Cluster.getMember, Bool.false_eq_true, if_false, Option.or_none] at hget
        rw [Cluster.getMember, hget]
        rfl
      simp [hfrom, hempty, hne, hget']
  | none =>
      cases hfrom : m.tags.replicatefrom with
      | none => simp [Ne.symm hm]
      | some node =>
          dsimp only
          split
          · next hnode =>
              have hget : cluster.getMember node false = none := by
                simpa [tagged, hfrom, hnode.1, hnode.2] using htagged
              have hget' : cluster.getMember node true = some l := by
                simp only [Cluster.getMember, Bool.false_eq_true, if_false, Option.or_none] at hget
                rw [Cluster.getMember, hget]
                exact hleader
              simp [hget', Ne.symm hm]
          · simp [Ne.symm hm]

theorem streamsFromLeader_iff (hleader : cluster.leader = some l) (hl : l.name ≠ "")
    (hm : m.name ≠ l.name) :
    StreamsFromLeader isStandbyCluster isPaused remoteMember cluster m ↔
      m.tags.nostream = false ∧ ∀ b ∈ tagged cluster m, b.name = l.name := by
  rw [StreamsFromLeader, getNodeToFollow_eq hleader hl hm, Cluster.leaderName, hleader]
  cases m.tags.nostream with
  | true => simp
  | false => cases tagged cluster m <;> simp

theorem upstream_eq_some_iff (hleader : cluster.leader = some l) (hl : l.name ≠ "")
    (hm : m.name ≠ l.name) {b : Member} :
    upstream isStandbyCluster isPaused remoteMember cluster m = some b ↔
      m.tags.nostream = false ∧ tagged cluster m = some b ∧ b.name ≠ l.name := by
  rw [upstream, Option.ite_none_left_eq_some, streamsFromLeader_iff hleader hl hm,
    getNodeToFollow_eq hleader hl hm]
  cases m.tags.nostream with
  | true => simp
  | false =>
      cases tagged cluster m with
      | none => simp
      | some c =>
          simp only [Option.mem_some_iff, forall_eq', true_and, Bool.false_eq_true, if_false,
            Option.getD_some, Option.some.injEq]
          constructor
          · rintro ⟨hne, rfl⟩
            exact ⟨rfl, hne⟩
          · rintro ⟨rfl, hne⟩
            exact ⟨hne, rfl⟩

theorem upstream_le_tagged (hleader : cluster.leader = some l) (hl : l.name ≠ "") (a b : Member)
    (ha : a.name ≠ l.name)
    (h : upstream isStandbyCluster isPaused remoteMember cluster a = some b) :
    tagged cluster a = some b ∧ b.name ≠ l.name :=
  ((upstream_eq_some_iff hleader hl ha).mp h).2

/-! ## The way to the leader -/

variable (isStandbyCluster isPaused remoteMember cluster)

/-- On the way from a node to the leader a node does not stream, or the way goes round. -/
def Broken (m : Member) : Prop :=
  Chain.Meets (upstream isStandbyCluster isPaused remoteMember cluster)
      (fun x => x.tags.nostream = true) m ∨
    Chain.Repeats (upstream isStandbyCluster isPaused remoteMember cluster) Member.name m

/-- The node on the way from another one to the leader that streams directly from it. -/
def Connects (m n : Member) : Prop :=
  Chain.Meets (upstream isStandbyCluster isPaused remoteMember cluster)
    (fun x => x = n ∧ StreamsFromLeader isStandbyCluster isPaused remoteMember cluster x) m

variable {isStandbyCluster isPaused remoteMember cluster} {n : Member}

theorem Connects.streamsFromLeader
    (h : Connects isStandbyCluster isPaused remoteMember cluster m n) :
    StreamsFromLeader isStandbyCluster isPaused remoteMember cluster n := by
  obtain ⟨_, _, _, rfl, hstreams⟩ := h
  exact hstreams

theorem Connects.endsAt (h : Connects isStandbyCluster isPaused remoteMember cluster m n) :
    Chain.EndsAt (upstream isStandbyCluster isPaused remoteMember cluster) m n := by
  obtain ⟨k, x, hx, rfl, hstreams⟩ := h
  exact ⟨k, x, hx, rfl, if_pos hstreams⟩

section Leader

variable (hleader : cluster.leader = some l) (hl : l.name ≠ "") (hm : m.name ≠ l.name)

include hleader hl hm

theorem Connects.name_ne (h : Connects isStandbyCluster isPaused remoteMember cluster m n) :
    n.name ≠ l.name := by
  obtain ⟨k, x, hx, rfl, -⟩ := h
  exact Chain.forall_node (q := fun a => a.name ≠ l.name)
    (fun a b ha hab => (upstream_le_tagged hleader hl a b ha hab).2) hm hx

/-- A way that is not broken arrives. -/
theorem exists_connects (h : ¬Broken isStandbyCluster isPaused remoteMember cluster m) :
    ∃ n, Connects isStandbyCluster isPaused remoteMember cluster m n := by
  rw [Broken, not_or] at h
  obtain ⟨n, k, x, hx, rfl, hend⟩ := Chain.exists_endsAt
    (List.finite_toSet (cluster.members.map Member.name)) (q := fun a => a.name ≠ l.name) hm
    (fun a b ha hab => by
      obtain ⟨htagged, hb⟩ := upstream_le_tagged hleader hl a b ha hab
      exact ⟨List.mem_map_of_mem (tagged_eq_some htagged).1, hb⟩) h.2
  have hn : x.name ≠ l.name := Chain.forall_node (q := fun a => a.name ≠ l.name)
    (fun a b ha hab => (upstream_le_tagged hleader hl a b ha hab).2) hm hx
  have hstream : x.tags.nostream = false := Bool.eq_false_iff.mpr fun hblocked =>
    h.1 ⟨k, x, hx, hblocked⟩
  refine ⟨x, k, x, hx, rfl, (streamsFromLeader_iff hleader hl hn).mpr ⟨hstream, fun b hb => ?_⟩⟩
  by_contra hne
  rw [(upstream_eq_some_iff hleader hl hn).mpr ⟨hstream, hb, hne⟩] at hend
  cases hend

/-- Where the way is broken, the walk gives up. -/
theorem getSlotNameOnPrimary_eq_none_of_broken [NodeName String]
    (h : Broken isStandbyCluster isPaused remoteMember cluster m) :
    getSlotNameOnPrimary cluster m.name m.tags = none := by
  have hle {k : ℕ} {x : Member}
      (hx : Chain.node (upstream isStandbyCluster isPaused remoteMember cluster) k m = some x) :
      Chain.node (tagged cluster) k m = some x :=
    Chain.node_of_le (upstream_le_tagged hleader hl) hm hx
  rw [getSlotNameOnPrimary_eq_none_iff]
  rcases h with ⟨k, x, hx, hblocked⟩ | ⟨i, j, x, y, hlt, hx, hy, hname⟩
  · exact .inl ⟨k, x, hle hx, hblocked⟩
  · exact .inr ⟨i, j, x, y, hlt, hle hx, hle hy, hname⟩

/-- Where the connecting node has no tag, the walk ends there. -/
theorem getSlotNameOnPrimary_of_connects [NodeName String]
    (hbroken : ¬Broken isStandbyCluster isPaused remoteMember cluster m)
    (h : Connects isStandbyCluster isPaused remoteMember cluster m n)
    (hn : tagged cluster n = none) :
    getSlotNameOnPrimary cluster m.name m.tags = some (slotNameFromMemberName n.name) := by
  have heq := Chain.node_eq_of_endsAt (upstream_le_tagged hleader hl) hm h.endsAt hn
  rw [Broken, not_or] at hbroken
  rw [getSlotNameOnPrimary_eq_some_iff]
  obtain ⟨k, x, hx, rfl, -⟩ := h
  refine ⟨?_, ?_, x, ⟨k, x, (heq k).trans hx, rfl, hn⟩, rfl⟩
  · simpa only [Chain.Meets, heq] using hbroken.1
  · simpa only [Chain.Repeats, heq] using hbroken.2

end Leader

/-- The node names the leader in its tag, and the leader is a member. -/
def NamesLeader (cluster : Cluster) (l n : Member) : Prop :=
  n.tags.replicatefrom = some l.name ∧ cluster.hasMember l.name = true

/-- Only where it names the leader does the connecting node have a tag that resolves. -/
theorem namesLeader_iff (hleader : cluster.leader = some l) (hl : l.name ≠ "")
    (hn : n.name ≠ l.name)
    (h : StreamsFromLeader isStandbyCluster isPaused remoteMember cluster n) :
    NamesLeader cluster l n ↔ tagged cluster n ≠ none := by
  constructor
  · rintro ⟨hfrom, hmember⟩ hnone
    obtain ⟨b, hb, hname⟩ := hasMember_iff.mp hmember
    have hget : cluster.getMember l.name false = none := by
      simpa [tagged, hfrom, Option.filter_some, hl, Ne.symm hn] using hnone
    simp only [Cluster.getMember, Bool.false_eq_true, if_false, Option.or_none,
      List.find?_eq_none] at hget
    exact hget b hb (by simpa using hname)
  · intro hne
    obtain ⟨b, hb⟩ := Option.ne_none_iff_exists'.mp hne
    obtain ⟨hmem, hfrom, -, -⟩ := tagged_eq_some hb
    rw [((streamsFromLeader_iff hleader hl hn).mp h).2 b hb] at hfrom
    exact ⟨hfrom, hasMember_iff.mpr
      ⟨b, hmem, ((streamsFromLeader_iff hleader hl hn).mp h).2 b hb⟩⟩

section Agreement

variable [NodeName String]

variable (isStandbyCluster isPaused remoteMember cluster)

/-- The slot name is that of the node that connects a node to the leader and not that of the
leader, and it is missing exactly where the way to the leader is broken. -/
def AgreesWithStreaming (l m : Member) : Prop :=
  (getSlotNameOnPrimary cluster m.name m.tags = none ↔
      Broken isStandbyCluster isPaused remoteMember cluster m) ∧
    (¬Broken isStandbyCluster isPaused remoteMember cluster m →
      ∃ n, Connects isStandbyCluster isPaused remoteMember cluster m n ∧
        getSlotNameOnPrimary cluster m.name m.tags = some (slotNameFromMemberName n.name)) ∧
    getSlotNameOnPrimary cluster m.name m.tags ≠ some (slotNameFromMemberName l.name)

/-- The tags, followed through the leader, end at a node with a certain slot name. -/
def EndsAtSlot (m : Member) (slot : String) : Prop :=
  ¬Chain.Meets (tagged cluster) (fun x => x.tags.nostream = true) m ∧
    ¬Chain.Repeats (tagged cluster) Member.name m ∧
    ∃ x, Chain.EndsAt (tagged cluster) m x ∧ slotNameFromMemberName x.name = slot

/-- The way to the leader is broken, or its last node has a slot name of its own and does not name
the leader. It may name the leader if the tags of the leader happen to lead to the same name. -/
def EndsBeforeLeader (l m : Member) : Prop :=
  Broken isStandbyCluster isPaused remoteMember cluster m ∨
    ∃ n, Connects isStandbyCluster isPaused remoteMember cluster m n ∧
      slotNameFromMemberName n.name ≠ slotNameFromMemberName l.name ∧
      (NamesLeader cluster l n → EndsAtSlot cluster m (slotNameFromMemberName n.name))

variable {cluster}

/-- The walk always ends, and it agrees with the streaming if and only if it ends before the
leader. -/
theorem agreesWithStreaming_iff (hleader : cluster.leader = some l) (hl : l.name ≠ "")
    (hm : m.name ≠ l.name) :
    slotNameLoop cluster (cluster.members.length + 1) [] m.name m.tags =
        some (getSlotNameOnPrimary cluster m.name m.tags) ∧
      (AgreesWithStreaming isStandbyCluster isPaused remoteMember cluster l m ↔
        EndsBeforeLeader isStandbyCluster isPaused remoteMember cluster l m) := by
  refine ⟨slotNameLoop_eq cluster m.name m.tags, ?_⟩
  by_cases hbroken : Broken isStandbyCluster isPaused remoteMember cluster m
  · have hnone := getSlotNameOnPrimary_eq_none_of_broken hleader hl hm hbroken
    refine iff_of_true ⟨iff_of_true hnone hbroken, fun h => absurd hbroken h, ?_⟩ (.inl hbroken)
    simp [hnone]
  obtain ⟨n, hn⟩ := exists_connects hleader hl hm hbroken
  have hunique {n' : Member} (hn' : Connects isStandbyCluster isPaused remoteMember cluster m n') :
      n' = n := hn'.endsAt.unique hn.endsAt
  -- the walk goes on behind the connecting node only if that node names the leader
  have hslot : getSlotNameOnPrimary cluster m.name m.tags =
      some (slotNameFromMemberName n.name) ↔
      (NamesLeader cluster l n → EndsAtSlot cluster m (slotNameFromMemberName n.name)) := by
    by_cases hnames : NamesLeader cluster l n
    · rw [getSlotNameOnPrimary_eq_some_iff, EndsAtSlot]
      simp [hnames]
    · refine iff_of_true ?_ fun h => absurd h hnames
      rw [namesLeader_iff hleader hl (hn.name_ne hleader hl hm) hn.streamsFromLeader,
        not_not] at hnames
      exact getSlotNameOnPrimary_of_connects hleader hl hm hbroken hn hnames
  constructor
  · rintro ⟨-, hconnects, hne⟩
    obtain ⟨n', hn', heq⟩ := hconnects hbroken
    obtain rfl := hunique hn'
    exact .inr ⟨n', hn', fun h => hne (h ▸ heq), hslot.mp heq⟩
  · rintro (h | ⟨n', hn', hne, hends⟩)
    · exact absurd h hbroken
    obtain rfl := hunique hn'
    have heq := hslot.mpr hends
    refine ⟨iff_of_false (by simp [heq]) hbroken, fun _ => ⟨n', hn', heq⟩, ?_⟩
    rw [heq]
    exact fun h => hne (Option.some.inj h)

end Agreement

end Streaming

/-- `b` has no tag and connects `c` to the leader. -/
def untaggedChain : Cluster :=
  ⟨some (member "a" none), [member "a" none, member "b" none, member "c" (some "b")], ∅, []⟩

theorem agreesWithStreaming_untaggedChain :
    AgreesWithStreaming false false (member "" none) untaggedChain (member "a" none)
      (member "c" (some "b")) := by
  refine (agreesWithStreaming_iff false false (member "" none) rfl (by decide) (by decide)).2.mpr ?_
  refine .inr ⟨member "b" none, ⟨1, member "b" none, by decide, rfl, by decide⟩,
    by decide +kernel, fun h => ?_⟩
  cases h.1

/-- `b` names the leader `a`, and the walk ends at `a`. -/
theorem not_agreesWithStreaming_chain :
    chain.leader = some (member "a" none) ∧ member "b" (some "a") ∈ chain.members ∧
      ¬AgreesWithStreaming false false (member "" none) chain (member "a" none)
        (member "b" (some "a")) := by
  refine ⟨rfl, by decide, fun h => h.2.2 ?_⟩
  decide +kernel

end Metatroni.Slots
