import Mathlib.Tactic.Abel
import Metatroni.Citus.Secondaries

/-!
# The primary of a transition

The part of `transition` about the primary: the row of the old primary becomes
that of the new one, and the address of the old primary moves to a row that has
become free, if there is one.
-/

namespace Metatroni

namespace Citus

open Runs

/-! ## Comparing two groups -/

namespace PgDistGroup

variable {g h : PgDistGroup} {p q n : PgDistNode}

/-- The nodes of a group that another one has, apart from two. -/
def shared (g h : PgDistGroup) (p q : PgDistNode) : List PgDistNode :=
  g.nodes.filter fun v => h.Has v ∧ v.address ≠ p.address ∧ v.address ≠ q.address

/-- The nodes of a group that another one has not, apart from one. -/
def only (g h : PgDistGroup) (p : PgDistNode) : List PgDistNode :=
  g.nodes.filter fun v => ¬ h.Has v ∧ v.address ≠ p.address

theorem mem_shared : n ∈ g.shared h p q ↔
    n ∈ g.nodes ∧ h.Has n ∧ n.address ≠ p.address ∧ n.address ≠ q.address := by
  simp [shared]

theorem mem_only : n ∈ g.only h p ↔ n ∈ g.nodes ∧ ¬ h.Has n ∧ n.address ≠ p.address := by
  simp [only]

/-- The nodes at an address. -/
theorem filter_address (g : PgDistGroup) (n : PgDistNode) :
    (g.nodes : Multiset PgDistNode).filter (fun v => v.address = n.address) =
      ((g.get n).toList : Multiset PgDistNode) := by
  have hsplit := Multiset.filter_add_not (fun v => v.address = n.address)
    (g.nodes : Multiset PgDistNode)
  rw [Multiset.filter_coe, Multiset.filter_coe] at hsplit
  have hget := nodes_eq g n
  rw [← hsplit] at hget
  rw [Multiset.filter_coe]
  exact add_right_cancel hget

/-- A group is one node, and the others. -/
theorem nodes_eq_cons (hp : g.get p = some p) :
    (g.nodes : Multiset PgDistNode) =
      p ::ₘ (g.nodes : Multiset PgDistNode).filter fun v => v.address ≠ p.address := by
  conv_lhs => rw [nodes_eq g p, hp]
  rw [Multiset.filter_coe]
  rfl

/-- A group is one node that both groups have, and the nodes that are in both groups and
in this group only. -/
theorem nodes_split_same (hp : g.get p = some p) (hpq : q.address = p.address) :
    (g.nodes : Multiset PgDistNode) =
      p ::ₘ ((g.shared h p q : Multiset PgDistNode) + g.only h p) := by
  have hothers : (g.nodes : Multiset PgDistNode).filter (fun v => v.address ≠ p.address) =
      (g.shared h p q : Multiset PgDistNode) + g.only h p := by
    rw [← Multiset.filter_add_not (fun v => h.Has v)
      (Multiset.filter (fun v => v.address ≠ p.address) (g.nodes : Multiset PgDistNode)),
      Multiset.filter_filter, Multiset.filter_filter, Multiset.filter_coe, Multiset.filter_coe,
      shared, only, hpq]
    simp
  rw [nodes_eq_cons hp, hothers]

/-- A group is one node, the node at the address of another one that the other group has,
and the nodes that are in both groups and in this group only. -/
theorem nodes_split (hp : g.get p = some p) (hq : h.Has q) (hpq : q.address ≠ p.address) :
    (g.nodes : Multiset PgDistNode) =
      p ::ₘ (((g.get q).toList : Multiset PgDistNode) + g.shared h p q + g.only h p) := by
  let others := (g.nodes : Multiset PgDistNode).filter fun v => v.address ≠ p.address
  have hat : others.filter (fun v => v.address = q.address) = ((g.get q).toList : Multiset _) := by
    rw [← filter_address, Multiset.filter_filter]
    apply Multiset.filter_congr
    intro v _
    exact ⟨And.left, fun hv => ⟨hv, hv ▸ hpq⟩⟩
  have hboth : (others.filter fun v => ¬ v.address = q.address).filter (fun v => h.Has v) =
      (g.shared h p q : Multiset PgDistNode) := by
    rw [Multiset.filter_filter, Multiset.filter_filter, shared, ← Multiset.filter_coe]
    apply Multiset.filter_congr
    intro v _
    tauto
  have honly : (others.filter fun v => ¬ v.address = q.address).filter (fun v => ¬ h.Has v) =
      (g.only h p : Multiset PgDistNode) := by
    rw [Multiset.filter_filter, Multiset.filter_filter, only, ← Multiset.filter_coe]
    apply Multiset.filter_congr
    intro v _
    constructor
    · tauto
    · rintro ⟨hv, hvp⟩
      have hvq : v.address ≠ q.address := by
        intro hsame
        rw [Has, hsame] at hv
        exact hv hq
      exact ⟨⟨hv, hvq⟩, hvp⟩
  have hothers : others = ((g.get q).toList : Multiset PgDistNode) + g.shared h p q +
      g.only h p := by
    rw [← hat, ← hboth, ← honly, add_assoc, Multiset.filter_add_not, Multiset.filter_add_not]
  rw [nodes_eq_cons hp, ← hothers]

end PgDistGroup

/-! ## Filling in the ids -/

section Fill

open Work

variable {old : PgDistGroup} {n v : PgDistNode}

theorem fillNode_of_primary (h : n.isPrimary) : fillNode old n = n := by
  rw [fillNode]
  split
  · rw [if_neg (by simp [h])]
  · rfl

theorem fillNode_of_not_replica (h : ∀ v ∈ old.nodes, v.address = n.address → v.isPrimary) :
    fillNode old n = n := by
  rw [fillNode]
  split
  · next v hv =>
      have hmem := List.mem_filter.mp (List.mem_of_find?_eq_some hv)
      have hsame : v.address = n.address := by simpa using List.find?_some hv
      simp [h v hmem.1 hsame] at hmem
  · rfl

theorem fillNode_of_replica (hv : v ∈ old.nodes) (hvp : ¬ v.isPrimary)
    (hsame : v.address = n.address) (hn : ¬ n.isPrimary) (hid : n.nodeid = none) :
    fillNode old n = { n with nodeid := v.nodeid } := by
  rw [fillNode]
  split
  · next u hu =>
      have humem := List.mem_filter.mp (List.mem_of_find?_eq_some hu)
      have husame : u.address = n.address := by simpa using List.find?_some hu
      obtain rfl : u = v :=
        List.inj_on_of_nodup_map old.distinct humem.1 hv (husame.trans hsame.symm)
      rw [if_pos ⟨by simpa using hn, .inl hid⟩]
  · next hnone =>
      have hmem : v ∈ old.nodes.filter fun v => !v.isPrimary :=
        List.mem_filter.mpr ⟨hv, by simpa using hvp⟩
      simpa [hsame] using List.find?_eq_none.mp hnone v hmem

end Fill

/-- Two groups differ at most at one address. -/
def SameBut (p : PgDistNode) (g h : PgDistGroup) : Prop :=
  ∀ v : PgDistNode, v.address ≠ p.address → (v ∈ g.nodes ↔ v ∈ h.nodes)

theorem sameBut_change {g : PgDistGroup} {p n : PgDistNode} (hn : n.address = p.address) :
    SameBut p (g.change n) g := by
  intro v hv
  have hv' : v.address ≠ n.address := hn ▸ hv
  constructor
  · intro hmem
    obtain ⟨x, hx, hxv⟩ := List.mem_map.mp hmem
    split at hxv
    · exact absurd (congrArg PgDistNode.address hxv.symm) hv'
    · exact hxv ▸ hx
  · intro hmem
    exact List.mem_map.mpr ⟨v, hmem, if_neg hv'⟩

theorem eq_of_mem_change {g : PgDistGroup} {n v : PgDistNode} (hv : v ∈ (g.change n).nodes)
    (hsame : v.address = n.address) : v = n := by
  obtain ⟨x, -, hxv⟩ := List.mem_map.mp hv
  split at hxv
  · exact hxv.symm
  · next hx => exact absurd (hxv ▸ hsame) hx

/-- A node that the old group does not have gets no id from it. -/
theorem fillNode_of_not_has {old g : PgDistGroup} {op n : PgDistNode} (hg : SameBut op g old)
    (hop : op ∈ old.nodes) (hn : ¬ old.Has n) : Work.fillNode g n = n := by
  apply fillNode_of_not_replica
  intro v hv hsame
  have hvop : v.address ≠ op.address := by
    intro hvop
    apply hn
    rw [PgDistGroup.Has, ← hsame, hvop]
    exact List.mem_map_of_mem hop
  refine absurd ?_ hn
  rw [PgDistGroup.Has, ← hsame]
  exact List.mem_map_of_mem ((hg v hvop).mp hv)

/-- The nodes that are in both groups get the ids that they have in the old one. -/
theorem map_fillNode_shared {old : Registered} {new : Wanted} {op np : PgDistNode}
    {g : PgDistGroup} (hg : SameBut op g old.group)
    (hop : ∀ n ∈ old.group.nodes, n.isPrimary → n = op)
    (hnp : ∀ n ∈ new.group.nodes, n.isPrimary → n = np) :
    (new.group.shared old.group np op : Multiset PgDistNode).map (Work.fillNode g) =
      old.group.shared new.group op np := by
  -- a node that is in both groups is filled to what it is in the old one
  have hfill : ∀ n ∈ new.group.shared old.group np op, ∀ v ∈ old.group.nodes,
      v.address = n.address → Work.fillNode g n = v := by
    intro n hn v hv hsame
    obtain ⟨hnmem, -, hnnp, hnop⟩ := PgDistGroup.mem_shared.mp hn
    have hvp : ¬ v.isPrimary := fun hp => hnop (hsame ▸ congrArg PgDistNode.address (hop v hv hp))
    have hnp' : ¬ n.isPrimary := fun hp => hnnp (congrArg PgDistNode.address (hnp n hnmem hp))
    rw [fillNode_of_replica ((hg v (hsame ▸ hnop)).mpr hv) hvp hsame hnp' (new.ids n hnmem)]
    obtain ⟨hhost, hport⟩ := Prod.mk.inj hsame
    have hrole : n.role = v.role := (role_eq_secondary (new.roles n hnmem) hnp').trans
      (role_eq_secondary (old.roles v hv) hvp).symm
    rw [← hhost, ← hport, hrole]
  have hinj : ((new.group.shared old.group np op : Multiset PgDistNode).map
      (Work.fillNode g)).Nodup := by
    apply Multiset.Nodup.of_map PgDistNode.address
    rw [Multiset.map_map, show PgDistNode.address ∘ Work.fillNode g = PgDistNode.address from
      funext (Work.address_fillNode g), Multiset.map_coe]
    exact Multiset.coe_nodup.mpr ((List.filter_sublist.map _).nodup new.group.distinct)
  have hnodup : (old.group.shared new.group op np : Multiset PgDistNode).Nodup :=
    Multiset.coe_nodup.mpr ((List.Nodup.of_map _ old.group.distinct).filter _)
  apply (Multiset.Nodup.ext hinj hnodup).mpr
  intro v
  constructor
  · intro hv
    obtain ⟨n, hn, rfl⟩ := Multiset.mem_map.mp hv
    obtain ⟨hnmem, hhas, hnnp, hnop⟩ := PgDistGroup.mem_shared.mp (Multiset.mem_coe.mp hn)
    obtain ⟨v, hv, hsame⟩ := List.mem_map.mp hhas
    rw [hfill n hn v hv hsame]
    refine Multiset.mem_coe.mpr (PgDistGroup.mem_shared.mpr ⟨hv, ?_, hsame ▸ hnop, hsame ▸ hnnp⟩)
    rw [PgDistGroup.Has, hsame]
    exact List.mem_map_of_mem hnmem
  · intro hv
    obtain ⟨hvmem, hhas, hvop, hvnp⟩ := PgDistGroup.mem_shared.mp (Multiset.mem_coe.mp hv)
    obtain ⟨n, hn, hsame⟩ := List.mem_map.mp hhas
    have hshared : n ∈ new.group.shared old.group np op := by
      refine PgDistGroup.mem_shared.mpr ⟨hn, ?_, hsame ▸ hvnp, hsame ▸ hvop⟩
      rw [PgDistGroup.Has, hsame]
      exact List.mem_map_of_mem hvmem
    exact Multiset.mem_map.mpr ⟨n, hshared, hfill n hshared v hvmem hsame.symm⟩

/-! ## The rows of the primaries -/

section Started

variable (hosts : Set String) (pid : ℕ) (registered : Prop) (role : Role)

/-- What has been yielded about the primary is executed: as `Sound`, but the nodes that
are in both groups do not have their ids yet. -/
structure Started (t₀ t : Table) (w : Work)
    (placed unplaced kept keptOld : Multiset PgDistNode) : Prop where
  run : Reaches hosts pid registered t₀ w.yields t
  returned : t.returned = []
  mirrors : Mirrors hosts pid registered t (placed + keptOld + w.gone)
  group : (w.self.nodes : Multiset PgDistNode) = placed + unplaced + kept + w.added
  filled : kept.map (Work.fillNode w.old) = keptOld
  unfilled : ∀ n ∈ placed + unplaced + w.added, Work.fillNode w.old n = n
  gone : ∀ g ∈ w.gone, g.role = .secondary ∧ ¬ w.self.Has g
  gone_nodup : (w.gone.map PgDistNode.address).Nodup
  added : ∀ a ∈ w.added, a.role = .secondary ∧ a.nodeid = none ∧ a.host ∈ hosts
  roles : ∀ n ∈ placed + keptOld, n.isPrimary → n.role = role

variable {hosts pid registered role} {t₀ t : Table} {w : Work}
  {placed unplaced kept keptOld : Multiset PgDistNode}

theorem map_fillNode_eq_self {old : PgDistGroup} {nodes : Multiset PgDistNode}
    (h : ∀ n ∈ nodes, Work.fillNode old n = n) : nodes.map (Work.fillNode old) = nodes :=
  (Multiset.map_congr rfl h).trans (Multiset.map_id nodes)

theorem Started.sound (h : Started hosts pid registered role t₀ t w placed unplaced kept keptOld) :
    Sound hosts pid registered role t₀ t w.fill (placed + keptOld) unplaced where
  run := h.run
  mirrors := h.mirrors
  group := by
    have hnodes : (w.fill.self.nodes : Multiset PgDistNode) =
        (w.self.nodes : Multiset PgDistNode).map (Work.fillNode w.old) := rfl
    have hid : PgDistNode.withId [] = id := funext withId_nil
    rw [h.returned, hid, Multiset.map_id, hnodes, h.group, Multiset.map_add, Multiset.map_add,
      h.filled, map_fillNode_eq_self fun n hn => h.unfilled n (by simp_all),
      map_fillNode_eq_self fun n hn => h.unfilled n (by simp_all)]
    simp only [Work.fill]
    abel
  gone := by
    intro g hg
    obtain ⟨hrole, hself⟩ := h.gone g hg
    refine ⟨hrole, fun hhas => hself ?_⟩
    have haddresses : w.fill.self.nodes.map PgDistNode.address =
        w.self.nodes.map PgDistNode.address := by
      simp only [Work.fill, PgDistGroup.map, List.map_map]
      exact List.map_congr_left fun n _ => Work.address_fillNode w.old n
    rwa [PgDistGroup.Has, haddresses] at hhas
  gone_nodup := h.gone_nodup
  added := h.added
  roles := h.roles

variable (hosts pid registered) in
/-- What has been yielded is executed: the table has the rows of some nodes, and the group
consists of others. -/
structure Midway (t₀ t : Table) (w : Work) (rows nodes : Multiset PgDistNode) : Prop where
  run : Reaches hosts pid registered t₀ w.yields t
  returned : t.returned = []
  mirrors : Mirrors hosts pid registered t rows
  group : (w.self.nodes : Multiset PgDistNode) = nodes

theorem Midway.congr {rows rows' nodes nodes' : Multiset PgDistNode}
    (h : Midway hosts pid registered t₀ t w rows nodes) (hrows : rows = rows')
    (hnodes : nodes = nodes') : Midway hosts pid registered t₀ t w rows' nodes' :=
  hrows ▸ hnodes ▸ h

/-- A row is updated. -/
theorem Midway.yield {m : PgDistNode} {rows nodes : Multiset PgDistNode} (n : PgDistNode)
    (h : Midway hosts pid registered t₀ t w (m ::ₘ rows) nodes) (hid : n.nodeid = m.nodeid)
    (hprimary : n.isPrimary = m.isPrimary) (hrole : n.role ≠ .removed) (hhost : n.host ∈ hosts)
    (htag : n.tag ∉ rows.map PgDistNode.tag) :
    ∃ t', Midway hosts pid registered t₀ t' (w.yield n) (n ::ₘ rows) nodes := by
  obtain ⟨t', hstep, hmirrors, -, hreturned⟩ := h.mirrors.update hid hprimary hrole hhost htag
  exact ⟨t', h.run.snoc h.mirrors hstep, hreturned.trans h.returned, hmirrors, h.group⟩

/-- A node of the group gets a row. -/
theorem Midway.yieldChanged {m x : PgDistNode} {rows nodes : Multiset PgDistNode}
    (n : PgDistNode) (h : Midway hosts pid registered t₀ t w (m ::ₘ rows) (x ::ₘ nodes))
    (hx : n.address = x.address) (hid : n.nodeid = m.nodeid)
    (hprimary : n.isPrimary = m.isPrimary) (hrole : n.role ≠ .removed) (hhost : n.host ∈ hosts)
    (htag : n.tag ∉ rows.map PgDistNode.tag) :
    ∃ t', Midway hosts pid registered t₀ t' (w.yieldChanged n) (n ::ₘ rows) (n ::ₘ nodes) := by
  have hchanged : Midway hosts pid registered t₀ t { w with self := w.self.change n }
      (m ::ₘ rows) (n ::ₘ nodes) :=
    ⟨h.run, h.returned, h.mirrors, PgDistGroup.coe_change n h.group hx⟩
  exact hchanged.yield n hid hprimary hrole hhost htag

/-- `transition` compares a new group with a registered one that is not empty. -/
structure Compared (hosts : Set String) (old : Registered) (new : Wanted) (op np : PgDistNode)
    (w : Work) : Prop where
  old_hosts : ∀ n ∈ old.group.nodes, n.host ∈ hosts
  new_hosts : ∀ n ∈ new.group.nodes, n.host ∈ hosts
  op_mem : op ∈ old.group.nodes
  op_primary : op.isPrimary
  op_get : old.group.get op = some op
  op_only : ∀ n ∈ old.group.nodes, n.isPrimary → n = op
  np_mem : np ∈ new.group.nodes
  np_primary : np.isPrimary
  np_get : new.group.get np = some np
  np_only : ∀ n ∈ new.group.nodes, n.isPrimary → n = np
  w_self : w.self.nodes = new.group.nodes
  w_old : w.old = old.group
  gone : (w.gone : Multiset PgDistNode) = old.group.only new.group op
  added : (w.added : Multiset PgDistNode) = new.group.only old.group np
  yields : w.yields = []

namespace Compared

variable {old : Registered} {new : Wanted} {op np : PgDistNode}

theorem mem_gone (c : Compared hosts old new op np w) {g : PgDistNode} :
    g ∈ w.gone ↔ g ∈ old.group.nodes ∧ ¬ new.group.Has g ∧ g.address ≠ op.address := by
  rw [← Multiset.mem_coe, c.gone, Multiset.mem_coe, PgDistGroup.mem_only]

theorem mem_added (c : Compared hosts old new op np w) {a : PgDistNode} :
    a ∈ w.added ↔ a ∈ new.group.nodes ∧ ¬ old.group.Has a ∧ a.address ≠ np.address := by
  rw [← Multiset.mem_coe, c.added, Multiset.mem_coe, PgDistGroup.mem_only]

/-- The nodes of the old group apart from the primary are secondaries. -/
theorem old_role (c : Compared hosts old new op np w) {n : PgDistNode}
    (hn : n ∈ old.group.nodes) (hop : n.address ≠ op.address) : n.role = .secondary :=
  role_eq_secondary (old.roles n hn) fun hp => hop (congrArg PgDistNode.address (c.op_only n hn hp))

/-- The nodes of the new group apart from the primary are secondaries. -/
theorem new_role (c : Compared hosts old new op np w) {n : PgDistNode}
    (hn : n ∈ new.group.nodes) (hnp : n.address ≠ np.address) : n.role = .secondary :=
  role_eq_secondary (new.roles n hn) fun hp => hnp (congrArg PgDistNode.address (c.np_only n hn hp))

/-- What is left to do after the part about the primary. -/
theorem started (c : Compared hosts old new op np w) {w' : Work}
    {rows nodes : Multiset PgDistNode} (h : Midway hosts pid registered t₀ t w' rows nodes)
    (hrows : rows = placed + old.group.shared new.group op np + w'.gone)
    (hnodes : nodes = placed + unplaced + new.group.shared old.group np op + w'.added)
    (hold : SameBut op w'.old old.group) (hgone : w'.gone.Sublist w.gone)
    (hadded : ∀ a ∈ w'.added, a ∈ w.added)
    (hself : ∀ v, w'.self.Has v → new.group.Has v ∨ v.address = op.address)
    (unfilled : ∀ n ∈ placed + unplaced, Work.fillNode w'.old n = n)
    (roles : ∀ n ∈ placed, n.isPrimary → n.role = np.role) :
    Started hosts pid registered np.role t₀ t w' placed unplaced
      (new.group.shared old.group np op) (old.group.shared new.group op np) where
  run := h.run
  returned := h.returned
  mirrors := hrows ▸ h.mirrors
  group := hnodes ▸ h.group
  filled := map_fillNode_shared hold c.op_only c.np_only
  unfilled := by
    intro n hn
    rcases Multiset.mem_add.mp hn with hn | hn
    · exact unfilled n hn
    · exact fillNode_of_not_has hold c.op_mem (c.mem_added.mp (hadded n hn)).2.1
  gone := by
    intro g hg
    obtain ⟨hgold, hgnew, hgop⟩ := c.mem_gone.mp (hgone.subset hg)
    refine ⟨c.old_role hgold hgop, fun hhas => ?_⟩
    rcases hself g hhas with hhas | hsame
    · exact hgnew hhas
    · exact hgop hsame
  gone_nodup := by
    apply (hgone.map _).nodup
    have hnodup : ((w.gone : Multiset PgDistNode).map PgDistNode.address).Nodup := by
      rw [c.gone, Multiset.map_coe]
      exact Multiset.coe_nodup.mpr ((List.filter_sublist.map _).nodup old.group.distinct)
    exact Multiset.coe_nodup.mp hnodup
  added := by
    intro a ha
    obtain ⟨hanew, -, hanp⟩ := c.mem_added.mp (hadded a ha)
    exact ⟨c.new_role hanew hanp, new.ids a hanew, c.new_hosts a hanew⟩
  roles := by
    intro n hn hp
    rcases Multiset.mem_add.mp hn with hn | hn
    · exact roles n hn hp
    · obtain ⟨hnold, -, hnop, -⟩ := PgDistGroup.mem_shared.mp (Multiset.mem_coe.mp hn)
      exact absurd (congrArg PgDistNode.address (c.op_only n hnold hp)) hnop

theorem self_has (c : Compared hosts old new op np w) {v : PgDistNode} :
    w.self.Has v ↔ new.group.Has v := by
  rw [PgDistGroup.Has, c.w_self, PgDistGroup.Has]

theorem self_get (c : Compared hosts old new op np w) (v : PgDistNode) :
    w.self.get v = new.group.get v := by
  rw [PgDistGroup.get, c.w_self, PgDistGroup.get]

/-- The new primary has another address than the secondaries that keep their rows and
those that are gone. -/
theorem np_tag (c : Compared hosts old new op np w) (id : Option ℕ) :
    { np with nodeid := id }.tag ∉
      ((old.group.shared new.group op np : Multiset PgDistNode) + w.gone).map PgDistNode.tag := by
  apply tag_notMem
  intro x hx
  rcases Multiset.mem_add.mp hx with hx | hx
  · exact (PgDistGroup.mem_shared.mp (Multiset.mem_coe.mp hx)).2.2.2
  · intro hsame
    apply (c.mem_gone.mp (Multiset.mem_coe.mp hx)).2.1
    rw [PgDistGroup.Has, hsame]
    exact (List.mem_map_of_mem c.np_mem : np.address ∈ _)

theorem roles_singleton {n : PgDistNode} (h : n.role = role) :
    ∀ x ∈ ({n} : Multiset PgDistNode), x.isPrimary → x.role = role := by
  intro x hx _
  rw [Multiset.mem_singleton.mp hx, h]

theorem roles_pair {n m : PgDistNode} (hn : n.role = role) (hm : m.role = .secondary) :
    ∀ x ∈ ({n, m} : Multiset PgDistNode), x.isPrimary → x.role = role := by
  rw [Multiset.pair_comm]
  exact roles_cons hm (roles_singleton hn)

/-- Nothing has been yielded yet. -/
theorem midway (c : Compared hosts old new op np w)
    (h : Mirrors hosts pid registered t (old.group.nodes : Multiset PgDistNode))
    (hreturned : t.returned = []) :
    Midway hosts pid registered t t w old.group.nodes new.group.nodes where
  run := by
    rw [c.yields]
    exact .nil t
  returned := hreturned
  mirrors := h
  group := by rw [c.w_self]

/-- Among the registered nodes only the primary has its address. -/
theorem isPrimary_of_address (c : Compared hosts old new op np w) :
    ∀ v ∈ w.old.nodes, v.address = op.address → v.isPrimary := by
  intro v hv hvop
  rw [c.w_old] at hv
  rw [List.inj_on_of_nodup_map old.group.distinct hv c.op_mem hvop]
  exact c.op_primary

theorem sameBut_old (c : Compared hosts old new op np w) : SameBut op w.old old.group := by
  rw [c.w_old]
  exact fun v _ => Iff.rfl

/-- The primary has stayed where it was. -/
theorem samePrimary (c : Compared hosts old new op np w)
    (h : Mirrors hosts pid registered t (old.group.nodes : Multiset PgDistNode))
    (hreturned : t.returned = []) (hsame : op.address = np.address) :
    ∃ t' placed, Started hosts pid registered np.role t t' (w.samePrimary op np) placed 0
      (new.group.shared old.group np op) (old.group.shared new.group op np) := by
  let np' := { np with nodeid := op.nodeid }
  have hstart := c.midway h hreturned
  rw [PgDistGroup.nodes_split_same c.op_get hsame.symm,
    PgDistGroup.nodes_split_same c.np_get hsame, ← c.gone, ← c.added] at hstart
  have hself : ∀ v, (w.self.change np').Has v → new.group.Has v ∨ v.address = op.address :=
    fun v hv => .inl (c.self_has.mp (PgDistGroup.has_change.mp hv))
  have hunfilled : ∀ n ∈ ({np'} + 0 : Multiset PgDistNode), Work.fillNode w.old n = n := by
    intro n hn
    rw [add_zero, Multiset.mem_singleton] at hn
    rw [hn]
    exact fillNode_of_primary c.np_primary
  rw [Work.samePrimary]
  split
  · have hfailover : Midway hosts pid registered t t w.setFailover _ _ :=
      ⟨hstart.run, hstart.returned, hstart.mirrors, hstart.group⟩
    obtain ⟨t', h'⟩ := hfailover.yieldChanged np' rfl rfl (c.np_primary.trans c.op_primary.symm)
      (new.roles np c.np_mem) (c.new_hosts np c.np_mem) (c.np_tag _)
    refine ⟨t', {np'}, c.started h' ?_ ?_ c.sameBut_old (.refl _) (fun a ha => ha) hself hunfilled
      (roles_singleton rfl)⟩
    · rw [add_assoc, Multiset.singleton_add]
      rfl
    · rw [add_zero, add_assoc, Multiset.singleton_add]
      rfl
  · next hrole =>
      -- the row has not changed at all
      have hop : np' = op := by
        obtain ⟨hhost, hport⟩ := Prod.mk.inj hsame
        have hrole' : op.role = np.role := not_ne_iff.mp hrole
        simp only [np', ← hhost, ← hport, ← hrole']
      have h' : Midway hosts pid registered t t { w with self := w.self.change np' } _ _ :=
        ⟨hstart.run, hstart.returned, hstart.mirrors,
          PgDistGroup.coe_change np' hstart.group rfl⟩
      refine ⟨t, {np'}, c.started h' ?_ ?_ c.sameBut_old (.refl _) (fun a ha => ha) hself hunfilled
        (roles_singleton rfl)⟩
      · rw [add_assoc, Multiset.singleton_add, hop]
      · rw [add_zero, add_assoc, Multiset.singleton_add]

/-- The groups have different primaries. -/
theorem midway_other (c : Compared hosts old new op np w)
    (h : Mirrors hosts pid registered t (old.group.nodes : Multiset PgDistNode))
    (hreturned : t.returned = []) (hne : op.address ≠ np.address) :
    Midway hosts pid registered t t w.setFailover
      (op ::ₘ (((old.group.get np).toList : Multiset PgDistNode) +
        old.group.shared new.group op np + w.gone))
      (np ::ₘ (((new.group.get op).toList : Multiset PgDistNode) +
        new.group.shared old.group np op + w.added)) := by
  have hstart := c.midway h hreturned
  rw [PgDistGroup.nodes_split c.op_get (List.mem_map_of_mem c.np_mem) hne.symm,
    PgDistGroup.nodes_split c.np_get (List.mem_map_of_mem c.op_mem) hne,
    ← c.gone, ← c.added] at hstart
  exact ⟨hstart.run, hstart.returned, hstart.mirrors, hstart.group⟩

/-- The new primary and a secondary have got their rows. -/
theorem started_pair (c : Compared hosts old new op np w) {w' : Work} {n x : PgDistNode}
    (h : Midway hosts pid registered t₀ t w'
      (n ::ₘ x ::ₘ ((old.group.shared new.group op np : Multiset PgDistNode) + w'.gone))
      (n ::ₘ x ::ₘ ((new.group.shared old.group np op : Multiset PgDistNode) + w'.added)))
    (hn : n.role = np.role) (hx : x.role = .secondary) (hold : SameBut op w'.old old.group)
    (hgone : w'.gone.Sublist w.gone) (hadded : ∀ a ∈ w'.added, a ∈ w.added)
    (hself : ∀ v, w'.self.Has v → new.group.Has v ∨ v.address = op.address)
    (hfill : Work.fillNode w'.old x = x) :
    Started hosts pid registered np.role t₀ t w' {n, x} 0 (new.group.shared old.group np op)
      (old.group.shared new.group op np) := by
  have hprimary : n.isPrimary := by
    rw [PgDistNode.isPrimary, hn]
    exact c.np_primary
  refine c.started h ?_ ?_ hold hgone hadded hself ?_ (roles_pair hn hx)
  · simp only [Multiset.insert_eq_cons, ← Multiset.singleton_add]
    abel
  · simp only [Multiset.insert_eq_cons, ← Multiset.singleton_add]
    abel
  · intro y hy
    simp only [Multiset.insert_eq_cons, add_zero, Multiset.mem_cons, Multiset.mem_singleton] at hy
    rcases hy with rfl | rfl
    · exact fillNode_of_primary hprimary
    · exact hfill

/-- The new primary gets the row of the old one, while a secondary has another. -/
theorem promote (c : Compared hosts old new op np w) {w₁ : Work} {m x : PgDistNode}
    {nodes : Multiset PgDistNode}
    (h : Midway hosts pid registered t₀ t w₁
      (m ::ₘ x ::ₘ ((old.group.shared new.group op np : Multiset PgDistNode) + w.gone))
      (np ::ₘ nodes))
    (hid : m.nodeid = op.nodeid) (hm : m.isPrimary) (hx : x.address ≠ np.address) :
    ∃ t', Midway hosts pid registered t₀ t' (w₁.yieldChanged { np with nodeid := op.nodeid })
      ({ np with nodeid := op.nodeid } ::ₘ x ::ₘ
        ((old.group.shared new.group op np : Multiset PgDistNode) + w.gone))
      ({ np with nodeid := op.nodeid } ::ₘ nodes) := by
  apply h.yieldChanged
  · rfl
  · exact hid.symm
  · exact c.np_primary.trans hm.symm
  · exact new.roles np c.np_mem
  · exact c.new_hosts np c.np_mem
  · rw [Multiset.map_cons, Multiset.mem_cons]
    rintro (htag | hmem)
    · exact hx (Prod.mk.inj htag).1.symm
    · exact c.np_tag _ hmem

/-- An added node is put into the row of the promoted secondary. -/
theorem usePromotedRow_added (c : Compared hosts old new op np w)
    (h : Mirrors hosts pid registered t (old.group.nodes : Multiset PgDistNode))
    (hreturned : t.returned = []) (hne : op.address ≠ np.address) {npo a : PgDistNode}
    {added : List PgDistNode} (hnpo : old.group.get np = some npo)
    (hop : new.group.get op = none) (hadded : w.added = a :: added) :
    ∃ t' placed, Started hosts pid registered np.role t t'
      ((w.setFailover.usePromotedRow op npo).yieldChanged { np with nodeid := op.nodeid }) placed 0
      (new.group.shared old.group np op) (old.group.shared new.group op np) := by
  let a' := { a with nodeid := npo.nodeid }
  let np' := { np with nodeid := op.nodeid }
  let kept : Multiset PgDistNode := old.group.shared new.group op np
  obtain ⟨hanew, haold, hanp⟩ := c.mem_added.mp (hadded ▸ List.mem_cons_self : a ∈ w.added)
  have harole : a.role = .secondary := c.new_role hanew hanp
  have hnpomem : npo ∈ old.group.nodes := List.mem_of_find?_eq_some hnpo
  have hnpoaddress : npo.address = np.address := by simpa using List.find?_some hnpo
  have hnporole : npo.role = .secondary := c.old_role hnpomem (hnpoaddress ▸ hne.symm)
  have hold : ∀ x ∈ op ::ₘ (kept + (w.gone : Multiset PgDistNode)), x ∈ old.group.nodes := by
    intro x hx
    rcases Multiset.mem_cons.mp hx with rfl | hx
    · exact c.op_mem
    rcases Multiset.mem_add.mp hx with hx | hx
    · exact (PgDistGroup.mem_shared.mp (Multiset.mem_coe.mp hx)).1
    · exact (c.mem_gone.mp (Multiset.mem_coe.mp hx)).1
  have hstart : Midway hosts pid registered t t { w.setFailover with added := added }
      (npo ::ₘ op ::ₘ (kept + w.gone))
      (a ::ₘ np ::ₘ ((new.group.shared old.group np op : Multiset PgDistNode) + added)) := by
    have hother := c.midway_other h hreturned hne
    rw [hnpo, hop, hadded, ← Multiset.cons_coe] at hother
    refine Midway.congr ⟨hother.run, hother.returned, hother.mirrors, hother.group⟩ ?_ ?_
    · simp only [Option.toList_some, Multiset.coe_singleton, ← Multiset.singleton_add, kept]
      abel
    · simp only [Option.toList_none, Multiset.coe_nil, ← Multiset.singleton_add]
      abel
  obtain ⟨t₁, h₁⟩ := hstart.yieldChanged a' rfl rfl
    (by simp [a', PgDistNode.isPrimary, harole, hnporole]) (new.roles a hanew)
    (c.new_hosts a hanew) (tag_notMem fun x hx hsame =>
      haold (hsame ▸ List.mem_map_of_mem (hold x hx) : a.address ∈ _))
  let w₁ := w.setFailover.usePromotedRow op npo
  have hw₁ : w₁ = { ({ w.setFailover with added := added } : Work).yieldChanged a' with
      old := w.old.change { op with role := .secondary } } := by
    have hget : w.setFailover.self.get op = none := (c.self_get op).trans hop
    have hadded' : w.setFailover.added = a :: added := hadded
    simp only [w₁, Work.usePromotedRow, hget, hadded']
    rfl
  have h₂ : Midway hosts pid registered t t₁ w₁ (op ::ₘ a' ::ₘ (kept + w.gone))
      (np ::ₘ a' ::ₘ ((new.group.shared old.group np op : Multiset PgDistNode) + added)) := by
    rw [hw₁]
    exact Midway.congr ⟨h₁.run, h₁.returned, h₁.mirrors, h₁.group⟩
      (Multiset.cons_swap ..) (Multiset.cons_swap ..)
  obtain ⟨t₂, h₃⟩ := c.promote h₂ rfl c.op_primary hanp
  have hsame : SameBut op w₁.old old.group := by
    rw [hw₁, c.w_old]
    exact sameBut_change rfl
  have hgone : (w₁.yieldChanged np').gone = w.gone := by
    rw [hw₁]
    rfl
  have hadded₁ : (w₁.yieldChanged np').added = added := by
    rw [hw₁]
    rfl
  refine ⟨t₂, {np', a'}, c.started_pair (h₃.congr (by rw [hgone]) (by rw [hadded₁])) rfl harole
    hsame (hgone ▸ .refl _) ?_ ?_ (fillNode_of_not_has hsame c.op_mem haold)⟩
  · intro x hx
    rw [hadded₁] at hx
    exact hadded ▸ List.mem_cons_of_mem a hx
  · intro v hv
    have hv₁ : w₁.self.Has v := PgDistGroup.has_change.mp hv
    rw [hw₁] at hv₁
    exact .inl (c.self_has.mp (PgDistGroup.has_change.mp hv₁))

/-- The node that stands for the old primary in the new group, or is made for it. -/
def IsOldPrimary (new : Wanted) (op node : PgDistNode) : Prop :=
  new.group.get op = some node ∨
    new.group.get op = none ∧ node = ⟨op.host, op.port, .secondary, none⟩

theorem isOldPrimary (c : Compared hosts old new op np w) (hne : op.address ≠ np.address)
    {node : PgDistNode} (hnode : IsOldPrimary new op node) :
    node.address = op.address ∧ node.role = .secondary ∧ node.host ∈ hosts := by
  rcases hnode with hnode | ⟨-, rfl⟩
  · have hmem : node ∈ new.group.nodes := List.mem_of_find?_eq_some hnode
    have hsame : node.address = op.address := by simpa using List.find?_some hnode
    exact ⟨hsame, c.new_role hmem (hsame ▸ hne), c.new_hosts node hmem⟩
  · exact ⟨rfl, rfl, c.old_hosts op c.op_mem⟩

/-- The address of the old primary is put into the row of a secondary. -/
theorem placeOldPrimary (c : Compared hosts old new op np w) (hne : op.address ≠ np.address)
    {w₁ : Work} {m node : PgDistNode} {rows nodes : Multiset PgDistNode}
    (hnode : IsOldPrimary new op node)
    (h : Midway hosts pid registered t₀ t w₁ (m ::ₘ rows)
      (((new.group.get op).toList : Multiset PgDistNode) + nodes))
    (hself : ∀ v, w₁.self.Has v ↔ new.group.Has v) (hm : m.role = .secondary)
    (hrows : { node with nodeid := m.nodeid }.tag ∉ rows.map PgDistNode.tag) :
    ∃ t', Midway hosts pid registered t₀ t'
      (({ w₁ with self := w₁.self.add node } : Work).yieldChanged
        { node with nodeid := m.nodeid })
      ({ node with nodeid := m.nodeid } ::ₘ rows) ({ node with nodeid := m.nodeid } ::ₘ nodes) := by
  obtain ⟨hsame, hrole, hhost⟩ := c.isOldPrimary hne hnode
  have hadd : Midway hosts pid registered t₀ t { w₁ with self := w₁.self.add node }
      (m ::ₘ rows) (node ::ₘ nodes) := by
    refine ⟨h.run, h.returned, h.mirrors, ?_⟩
    rcases hnode with hnode | ⟨hnone, -⟩
    · have hhas : w₁.self.Has node :=
        (hself node).mpr (List.mem_map_of_mem (List.mem_of_find?_eq_some hnode))
      have hgroup := h.group
      rw [hnode, Option.toList_some, Multiset.coe_singleton, Multiset.singleton_add] at hgroup
      rw [PgDistGroup.add_of_has hhas]
      exact hgroup
    · have hhas : ¬ w₁.self.Has node := by
        intro hhas
        apply PgDistGroup.get_eq_none.mp hnone
        have hnew := (hself node).mp hhas
        rwa [PgDistGroup.Has, hsame] at hnew
      have hgroup := h.group
      rw [hnone] at hgroup
      rw [PgDistGroup.coe_add hhas, hgroup]
      simp
  exact hadd.yieldChanged _ rfl rfl (by simp [PgDistNode.isPrimary, hrole, hm]) (by simp [hrole])
    hhost hrows

/-- The groups still have the same addresses, apart from that of the old primary. -/
theorem has_placeOldPrimary (c : Compared hosts old new op np w)
    (hne : op.address ≠ np.address) {w₁ : Work} {node n v : PgDistNode}
    (hnode : IsOldPrimary new op node) (hself : ∀ v, w₁.self.Has v ↔ new.group.Has v)
    (hv : ((w₁.self.add node).change n).Has v) : new.group.Has v ∨ v.address = op.address := by
  rcases PgDistGroup.has_add.mp (PgDistGroup.has_change.mp hv) with hsame | hhas
  · exact .inr (hsame.trans (c.isOldPrimary hne hnode).1)
  · exact .inl ((hself v).mp hhas)

/-- The node of the old primary gets no id from the old group. -/
theorem fillNode_oldPrimary {g : PgDistGroup} {n : PgDistNode}
    (hg : ∀ v ∈ g.nodes, v.address = op.address → v.isPrimary) (hn : n.address = op.address) :
    Work.fillNode g n = n :=
  fillNode_of_not_replica fun v hv hsame => hg v hv (hsame.trans hn)

/-- The old primary is demoted in the table, unless it has been before. -/
theorem demoteOldPrimary (c : Compared hosts old new op np w) {w₁ : Work}
    {rows nodes : Multiset PgDistNode}
    (h : Midway hosts pid registered t₀ t w₁ (op ::ₘ rows) nodes) (hold : w₁.old = old.group)
    (hrows : ∀ x ∈ rows, x.address ≠ op.address) :
    ∃ t', Midway hosts pid registered t₀ t' (w₁.demoteOldPrimary op)
        ({ op with role := .demoted } ::ₘ rows) nodes ∧
      SameBut op (w₁.demoteOldPrimary op).old old.group ∧
      ∀ v ∈ (w₁.demoteOldPrimary op).old.nodes, v.address = op.address → v.isPrimary := by
  rw [Work.demoteOldPrimary, hold]
  split
  · obtain ⟨t', h'⟩ := h.yield { op with role := .demoted } rfl
      (by simpa [PgDistNode.isPrimary] using c.op_primary) (by simp) (c.old_hosts op c.op_mem)
      (tag_notMem hrows)
    refine ⟨t', ⟨h'.run, h'.returned, h'.mirrors, h'.group⟩, sameBut_change rfl, ?_⟩
    intro v hv hsame
    rw [eq_of_mem_change hv hsame]
    simp [PgDistNode.isPrimary]
  · next hrole =>
      have hdemoted : op.role = .demoted := by
        have hprimary := c.op_primary
        simpa [PgDistNode.isPrimary, hrole] using hprimary
      have hop : ({ op with role := .demoted } : PgDistNode) = op := by rw [← hdemoted]
      refine ⟨t, hop.symm ▸ h, ?_, ?_⟩
      · rw [hold]
        exact fun v _ => Iff.rfl
      · intro v hv hsame
        rw [hold] at hv
        rw [List.inj_on_of_nodup_map old.group.distinct hv c.op_mem hsame]
        exact c.op_primary

/-- What is done with the row of the promoted secondary, unless an added node can use it. -/
theorem usePromotedRow_eq (c : Compared hosts old new op np w) {npo : PgDistNode}
    (hop : new.group.get op ≠ none ∨ w.added = []) :
    w.setFailover.usePromotedRow op npo =
      let w₁ := w.setFailover.demoteOldPrimary op
      let node := (new.group.get op).getD ⟨op.host, op.port, npo.role, none⟩
      ({ w₁ with self := w₁.self.add node } : Work).yieldChanged
        { node with nodeid := npo.nodeid } := by
  have hget : w.setFailover.self.get op = new.group.get op := c.self_get op
  have hadded : w.setFailover.added = w.added := rfl
  cases hopn : new.group.get op with
  | none =>
      have hempty : w.added = [] := by simpa [hopn] using hop
      simp only [Work.usePromotedRow, hget, hopn, hadded, hempty, Option.getD_none]
  | some opn => simp only [Work.usePromotedRow, hget, hopn, Option.getD_some]

/-- The row of the old primary is given a name that is free, and the address of the old
primary is put into the row of the promoted secondary. -/
theorem usePromotedRow_oldPrimary (c : Compared hosts old new op np w)
    (h : Mirrors hosts pid registered t (old.group.nodes : Multiset PgDistNode))
    (hreturned : t.returned = []) (hne : op.address ≠ np.address) {npo : PgDistNode}
    (hnpo : old.group.get np = some npo) (hop : new.group.get op ≠ none ∨ w.added = []) :
    ∃ t' placed, Started hosts pid registered np.role t t'
      ((w.setFailover.usePromotedRow op npo).yieldChanged { np with nodeid := op.nodeid }) placed 0
      (new.group.shared old.group np op) (old.group.shared new.group op np) := by
  let np' := { np with nodeid := op.nodeid }
  let op' : PgDistNode := { op with role := .demoted }
  let kept : Multiset PgDistNode := old.group.shared new.group op np
  let keptNew : Multiset PgDistNode := new.group.shared old.group np op
  have hnpomem : npo ∈ old.group.nodes := List.mem_of_find?_eq_some hnpo
  have hnpoaddress : npo.address = np.address := by simpa using List.find?_some hnpo
  have hnpoop : npo.address ≠ op.address := hnpoaddress ▸ hne.symm
  have hnporole : npo.role = .secondary := c.old_role hnpomem hnpoop
  have hothers : ∀ x ∈ kept + (w.gone : Multiset PgDistNode), x.address ≠ op.address := by
    intro x hx
    rcases Multiset.mem_add.mp hx with hx | hx
    · exact (PgDistGroup.mem_shared.mp (Multiset.mem_coe.mp hx)).2.2.1
    · exact (c.mem_gone.mp (Multiset.mem_coe.mp hx)).2.2
  let w₁ := w.setFailover.demoteOldPrimary op
  let node := (new.group.get op).getD ⟨op.host, op.port, npo.role, none⟩
  let node' := { node with nodeid := npo.nodeid }
  have hw : w.setFailover.usePromotedRow op npo =
      ({ w₁ with self := w₁.self.add node } : Work).yieldChanged node' := c.usePromotedRow_eq hop
  have hnode : IsOldPrimary new op node := by
    cases hget : new.group.get op with
    | none => exact .inr ⟨hget, by simp [node, hget, hnporole]⟩
    | some opn => exact .inl (by simp [node, hget])
  obtain ⟨hnodeaddress, hnoderole, -⟩ := c.isOldPrimary hne hnode
  obtain ⟨t₁, h₁, hsame, hprimary⟩ := c.demoteOldPrimary
    (Midway.congr (c.midway_other h hreturned hne) rfl rfl) c.w_old (by
      intro x hx
      rw [hnpo, add_assoc] at hx
      rcases Multiset.mem_add.mp hx with hx | hx
      · rw [Multiset.mem_singleton.mp hx]
        exact hnpoop
      · exact hothers x hx)
  have hw₁ : ∀ v, w₁.self.Has v ↔ new.group.Has v := by
    intro v
    rw [Work.self_demoteOldPrimary]
    exact c.self_has
  have h₂ : Midway hosts pid registered t t₁ w₁ (npo ::ₘ op' ::ₘ (kept + w.gone))
      (((new.group.get op).toList : Multiset PgDistNode) + np ::ₘ (keptNew + w.added)) := by
    refine h₁.congr ?_ ?_
    · rw [hnpo]
      simp only [Option.toList_some, Multiset.coe_singleton, ← Multiset.singleton_add, kept, op']
      abel
    · simp only [← Multiset.singleton_add, keptNew]
      abel
  obtain ⟨t₂, h₃⟩ := c.placeOldPrimary hne hnode h₂ hw₁ hnporole (by
    rw [Multiset.map_cons, Multiset.mem_cons]
    rintro (htag | hmem)
    · simpa [hnoderole, op'] using (Prod.mk.inj htag).2
    · exact tag_notMem (fun x hx => hnodeaddress ▸ hothers x hx) hmem)
  rw [← hw] at h₃
  let w₂ := w.setFailover.usePromotedRow op npo
  have h₄ : Midway hosts pid registered t t₂ w₂ (op' ::ₘ node' ::ₘ (kept + w.gone))
      (np ::ₘ node' ::ₘ (keptNew + w.added)) :=
    h₃.congr (Multiset.cons_swap ..) (Multiset.cons_swap ..)
  obtain ⟨t₃, h₅⟩ := c.promote h₄ rfl (by simp [op', PgDistNode.isPrimary])
    fun hsame => hne (hnodeaddress.symm.trans hsame)
  have hgone : (w₂.yieldChanged np').gone = w.gone := by
    simp only [w₂, hw]
    exact Work.gone_demoteOldPrimary _ _
  have hadded : (w₂.yieldChanged np').added = w.added := by
    simp only [w₂, hw]
    exact Work.added_demoteOldPrimary _ _
  have hold : (w₂.yieldChanged np').old = w₁.old := by
    simp only [w₂, hw]
    rfl
  refine ⟨t₃, {np', node'}, c.started_pair (h₅.congr (by rw [hgone]) (by rw [hadded])) rfl
    hnoderole (hold ▸ hsame) (hgone ▸ .refl _) (fun a ha => hadded ▸ ha) ?_
    (hold ▸ fillNode_oldPrimary hprimary hnodeaddress)⟩
  intro v hv
  have hv₂ : w₂.self.Has v := PgDistGroup.has_change.mp hv
  simp only [w₂, hw] at hv₂
  exact c.has_placeOldPrimary hne hnode hw₁ hv₂

/-- The new primary, which was not registered, gets its row first. -/
theorem promoteNew (c : Compared hosts old new op np w)
    (h : Mirrors hosts pid registered t (old.group.nodes : Multiset PgDistNode))
    (hreturned : t.returned = []) (hne : op.address ≠ np.address)
    (hnpo : old.group.get np = none) :
    ∃ t', Midway hosts pid registered t t'
      (w.setFailover.yieldChanged { np with nodeid := op.nodeid })
      ({ np with nodeid := op.nodeid } ::ₘ
        ((old.group.shared new.group op np : Multiset PgDistNode) + w.gone))
      ({ np with nodeid := op.nodeid } ::ₘ (((new.group.get op).toList : Multiset PgDistNode) +
        new.group.shared old.group np op + w.added)) := by
  have hother := c.midway_other h hreturned hne
  rw [hnpo, Option.toList_none, Multiset.coe_nil, zero_add] at hother
  exact hother.yieldChanged _ rfl rfl (c.np_primary.trans c.op_primary.symm)
    (new.roles np c.np_mem) (c.new_hosts np c.np_mem) (c.np_tag _)

/-- The new primary is all that has changed. -/
theorem started_promoted (c : Compared hosts old new op np w) {id : Option ℕ}
    (h : Midway hosts pid registered t₀ t (w.setFailover.yieldChanged { np with nodeid := id })
      ({ np with nodeid := id } ::ₘ
        ((old.group.shared new.group op np : Multiset PgDistNode) + w.gone))
      ({ np with nodeid := id } ::ₘ (((new.group.get op).toList : Multiset PgDistNode) +
        new.group.shared old.group np op + w.added))) :
    Started hosts pid registered np.role t₀ t
      (w.setFailover.yieldChanged { np with nodeid := id }) { { np with nodeid := id } }
      (new.group.get op).toList (new.group.shared old.group np op)
      (old.group.shared new.group op np) := by
  refine c.started h ?_ ?_ c.sameBut_old (.refl _) (fun a ha => ha) ?_ ?_ (roles_singleton rfl)
  · rw [add_assoc, Multiset.singleton_add]
    rfl
  · rw [Multiset.singleton_add, Multiset.cons_add, Multiset.cons_add]
    rfl
  · exact fun v hv => .inl (c.self_has.mp (PgDistGroup.has_change.mp hv))
  · intro n hn
    rcases Multiset.mem_add.mp hn with hn | hn
    · rw [Multiset.mem_singleton.mp hn]
      exact fillNode_of_primary c.np_primary
    · have hopn : new.group.get op = some n := by simpa [eq_comm] using hn
      exact fillNode_oldPrimary c.isPrimary_of_address (by simpa using List.find?_some hopn)

/-- The address of the old primary is put into the row of a gone secondary. -/
theorem started_goneRow (c : Compared hosts old new op np w) (hne : op.address ≠ np.address)
    {id : Option ℕ} {g node : PgDistNode} {gone : List PgDistNode} (hgone : w.gone = g :: gone)
    (hnode : IsOldPrimary new op node)
    (h : Midway hosts pid registered t₀ t (w.setFailover.yieldChanged { np with nodeid := id })
      ({ np with nodeid := id } ::ₘ
        ((old.group.shared new.group op np : Multiset PgDistNode) + w.gone))
      ({ np with nodeid := id } ::ₘ (((new.group.get op).toList : Multiset PgDistNode) +
        new.group.shared old.group np op + w.added))) :
    ∃ t' placed, Started hosts pid registered np.role t₀ t'
      (({ w.setFailover.yieldChanged { np with nodeid := id } with
          self := (w.setFailover.yieldChanged { np with nodeid := id }).self.add node
          gone := gone } : Work).yieldChanged
        { node with nodeid := g.nodeid }) placed 0 (new.group.shared old.group np op)
      (old.group.shared new.group op np) := by
  let np' := { np with nodeid := id }
  let node' := { node with nodeid := g.nodeid }
  let kept : Multiset PgDistNode := old.group.shared new.group op np
  let keptNew : Multiset PgDistNode := new.group.shared old.group np op
  let w₁ : Work := { w.setFailover.yieldChanged np' with gone := gone }
  obtain ⟨hnodeaddress, hnoderole, -⟩ := c.isOldPrimary hne hnode
  have hgmem : ∀ x ∈ g :: gone, x ∈ old.group.nodes ∧ ¬ new.group.Has x ∧
      x.address ≠ op.address := fun x hx => c.mem_gone.mp (hgone ▸ hx)
  have hgrole : g.role = .secondary :=
    c.old_role (hgmem g List.mem_cons_self).1 (hgmem g List.mem_cons_self).2.2
  have h₁ : Midway hosts pid registered t₀ t w₁ (g ::ₘ np' ::ₘ (kept + gone))
      (((new.group.get op).toList : Multiset PgDistNode) + np' ::ₘ (keptNew + w.added)) := by
    rw [hgone, ← Multiset.cons_coe] at h
    refine Midway.congr ⟨h.run, h.returned, h.mirrors, h.group⟩ ?_ ?_
    · simp only [← Multiset.singleton_add, kept, np']
      abel
    · simp only [← Multiset.singleton_add, keptNew, np']
      abel
  have hself : ∀ v, w₁.self.Has v ↔ new.group.Has v :=
    fun v => PgDistGroup.has_change.trans c.self_has
  obtain ⟨t', h'⟩ := c.placeOldPrimary hne hnode h₁ hself hgrole (by
    apply tag_notMem
    intro x hx
    rw [show ({ node with nodeid := g.nodeid } : PgDistNode).address = op.address from hnodeaddress]
    rcases Multiset.mem_cons.mp hx with rfl | hx
    · exact hne.symm
    rcases Multiset.mem_add.mp hx with hx | hx
    · exact (PgDistGroup.mem_shared.mp (Multiset.mem_coe.mp hx)).2.2.1
    · exact (hgmem x (List.mem_cons_of_mem g (Multiset.mem_coe.mp hx))).2.2)
  refine ⟨t', {np', node'}, c.started_pair (h'.congr (Multiset.cons_swap ..)
    (Multiset.cons_swap ..)) rfl hnoderole c.sameBut_old ?_ (fun a ha => ha)
    (fun v hv => c.has_placeOldPrimary hne hnode hself hv)
    (fillNode_oldPrimary c.isPrimary_of_address hnodeaddress)⟩
  rw [hgone]
  exact List.sublist_cons_self g gone

/-- The new primary gets its row first, and the address of the old primary is put into the
row of a gone secondary, if there is one. -/
theorem useGoneRow (c : Compared hosts old new op np w)
    (h : Mirrors hosts pid registered t (old.group.nodes : Multiset PgDistNode))
    (hreturned : t.returned = []) (hne : op.address ≠ np.address)
    (hnpo : old.group.get np = none) :
    ∃ t' placed, Started hosts pid registered np.role t t'
      ((w.setFailover.yieldChanged { np with nodeid := op.nodeid }).useGoneRow op) placed
      (if w.gone = [] then ((new.group.get op).toList : Multiset PgDistNode) else 0)
      (new.group.shared old.group np op) (old.group.shared new.group op np) := by
  let np' := { np with nodeid := op.nodeid }
  obtain ⟨t₁, h₁⟩ := c.promoteNew h hreturned hne hnpo
  have hget : (w.setFailover.yieldChanged np').self.get op = new.group.get op := by
    have hne' : op.address ≠ np'.address := hne
    exact (PgDistGroup.get_change_of_ne hne').trans (c.self_get op)
  rw [Work.useGoneRow]
  split
  · next hgone =>
      rw [if_pos (show w.gone = [] from hgone)]
      exact ⟨t₁, _, c.started_promoted h₁⟩
  · next g gone hgone =>
      have hgone' : w.gone = g :: gone := hgone
      have hunplaced : (if w.gone = [] then ((new.group.get op).toList : Multiset PgDistNode)
          else 0) = 0 := if_neg (by simp [hgone'])
      rw [hunplaced, hget]
      cases hopn : new.group.get op with
      | some opn => exact c.started_goneRow hne hgone' (.inl hopn) h₁
      | none =>
          dsimp only
          split
          · next hnode =>
              split at hnode
              · cases hnode
              · have hstarted := c.started_promoted h₁
                rw [hopn] at hstarted
                exact ⟨t₁, _, hstarted⟩
          · next node hnode =>
              split at hnode
              · obtain rfl := Option.some.inj hnode
                exact c.started_goneRow hne hgone' (.inr ⟨hopn, rfl⟩) h₁
              · cases hnode

/-- What the part about the primary leaves without a row: the old primary, if neither the
row of the new one nor that of a gone secondary could be used for it. -/
def Forgotten (old : Registered) (new : Wanted) (op np : PgDistNode) : Prop :=
  op.address ≠ np.address ∧ old.group.get np = none ∧ old.group.only new.group op = []

instance : Decidable (Forgotten old new op np) := inferInstanceAs (Decidable (_ ∧ _ ∧ _))

theorem gone_eq_nil (c : Compared hosts old new op np w) :
    w.gone = [] ↔ old.group.only new.group op = [] := by
  rw [← Multiset.coe_eq_zero, c.gone, Multiset.coe_eq_zero]

/-- The primary gets its row. -/
theorem primaries (c : Compared hosts old new op np w)
    (h : Mirrors hosts pid registered t (old.group.nodes : Multiset PgDistNode))
    (hreturned : t.returned = []) :
    ∃ t' placed, Started hosts pid registered np.role t t' (w.primaries (some op) np) placed
      (if Forgotten old new op np then ((new.group.get op).toList : Multiset PgDistNode) else 0)
      (new.group.shared old.group np op) (old.group.shared new.group op np) := by
  simp only [Work.primaries]
  split
  · next hsame =>
      rw [if_neg fun hforgotten => hforgotten.1 hsame]
      exact c.samePrimary h hreturned hsame
  · next hne =>
      rw [Work.otherPrimary, c.w_old]
      cases hnpo : old.group.get np with
      | some npo =>
          rw [if_neg (by simp [Forgotten, hnpo])]
          by_cases hop : new.group.get op = none ∧ w.added ≠ []
          · obtain ⟨a, added, hadded⟩ := List.exists_cons_of_ne_nil hop.2
            exact c.usePromotedRow_added h hreturned hne hnpo hop.1 hadded
          · have hop' : new.group.get op ≠ none ∨ w.added = [] := by tauto
            exact c.usePromotedRow_oldPrimary h hreturned hne hnpo hop'
      | none =>
          have hforgotten : Forgotten old new op np ↔ w.gone = [] := by
            rw [c.gone_eq_nil]
            exact ⟨fun h => h.2.2, fun h => ⟨hne, hnpo, h⟩⟩
          simp only [hforgotten]
          exact c.useGoneRow h hreturned hne hnpo

end Compared

end Started

end Citus

end Metatroni
