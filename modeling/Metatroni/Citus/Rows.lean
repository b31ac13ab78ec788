import Mathlib.Data.Multiset.Basic
import Mathlib.Algebra.Order.Group.Multiset
import Metatroni.Citus.Group

/-!
# The rows of a group

While the nodes that `transition` yields are executed, the table has at each
moment the rows of a collection of nodes, in which no two have the same address
unless one of them is demoted. Each kind of statement changes this collection by
one node.
-/

namespace Metatroni

namespace Citus

/-! ## Rows -/

/-- The row of a node. -/
def PgDistNode.row (n : PgDistNode) : Row := ⟨n.nodeid.getD 0, n.nodename, n.port, n.isPrimary⟩

/-- What makes the address of a row. -/
def PgDistNode.tag (n : PgDistNode) : Address × Bool := (n.address, n.role = .demoted)

/-- No host is called like another one that is demoted. -/
def RealHosts (hosts : Set String) : Prop := ∀ a ∈ hosts, ∀ b ∈ hosts, a ≠ b ++ "-demoted"

/-- The address of a row tells the node and whether it is demoted. -/
theorem tag_eq_of_address_eq {hosts : Set String} (hreal : RealHosts hosts) {n m : PgDistNode}
    (hn : n.host ∈ hosts) (hm : m.host ∈ hosts) (h : n.row.address = m.row.address) :
    n.tag = m.tag := by
  obtain ⟨hname, hport⟩ := Prod.mk.inj h
  have hport' : n.port = m.port := hport
  simp only [PgDistNode.row, PgDistNode.nodename] at hname
  split at hname <;> split at hname
  · next hn' hm' =>
      have hhost : n.host = m.host := (String.append_left_inj "-demoted").mp hname
      simp [PgDistNode.tag, PgDistNode.address, hhost, hport', hn', hm']
  · exact absurd hname.symm (hreal _ hm _ hn)
  · exact absurd hname (hreal _ hn _ hm)
  · next hn' hm' =>
      simp [PgDistNode.tag, PgDistNode.address, hname, hport', hn', hm']

section Mirrors

variable (hosts : Set String) (pid : ℕ) (registered : Prop)

/-- The table has the rows of these nodes, and the row of a primary has one id. -/
structure Mirrors (t : Table) (nodes : Multiset PgDistNode) : Prop where
  rows : t.rows = nodes.map PgDistNode.row
  tags : (nodes.map PgDistNode.tag).Nodup
  ids : (nodes.map PgDistNode.nodeid).Nodup
  placed : ∀ n ∈ nodes, n.role ≠ .removed ∧ n.host ∈ hosts ∧ ∃ id < t.next, n.nodeid = some id
  primary : ∀ n ∈ nodes, n.isPrimary → n.nodeid = some pid
  primary_mem : registered → ∃ n ∈ nodes, n.isPrimary

variable {hosts pid registered}

/-- Other nodes have other ids. -/
theorem Mirrors.row_nodeid_ne {t : Table} {m : PgDistNode} {nodes : Multiset PgDistNode}
    (h : Mirrors hosts pid registered t (m ::ₘ nodes)) {id : ℕ} (hid : m.nodeid = some id)
    {n : PgDistNode} (hn : n ∈ nodes) : n.row.nodeid ≠ id := by
  obtain ⟨-, -, id', -, hid'⟩ := h.placed n (Multiset.mem_cons_of_mem hn)
  have hids := h.ids
  rw [Multiset.map_cons, Multiset.nodup_cons] at hids
  rintro rfl
  apply hids.1
  rw [hid]
  exact Multiset.mem_map.mpr ⟨n, hn, by simp [PgDistNode.row, hid']⟩

/-- A row is updated. -/
theorem Mirrors.update {t : Table} {m n : PgDistNode} {nodes : Multiset PgDistNode}
    (h : Mirrors hosts pid registered t (m ::ₘ nodes)) (hid : n.nodeid = m.nodeid)
    (hprimary : n.isPrimary = m.isPrimary) (hrole : n.role ≠ .removed) (hhost : n.host ∈ hosts)
    (htag : n.tag ∉ nodes.map PgDistNode.tag) :
    ∃ t', updateNode n t = some t' ∧ Mirrors hosts pid registered t' (n ::ₘ nodes) ∧
      t'.next = t.next ∧ t'.returned = t.returned := by
  obtain ⟨-, -, id, hlt, hm⟩ := h.placed m (Multiset.mem_cons_self m nodes)
  have hn : n.nodeid = some id := hid.trans hm
  have hupdate : updateNode n t = t.update id (n.nodename, n.port) := by
    rw [updateNode, hn]
    cases hr : n.role <;> first | rfl | exact absurd hr hrole
  have hrows : t.update id (n.nodename, n.port) =
      some { t with rows := (n ::ₘ nodes).map PgDistNode.row } := by
    have hmem : id ∈ t.rows.map Row.nodeid := by
      rw [h.rows, Multiset.map_cons, Multiset.map_cons]
      exact Multiset.mem_cons.mpr (.inl (by simp [PgDistNode.row, hm]))
    rw [Table.update, if_pos hmem, h.rows]
    congr 2
    rw [Multiset.map_cons, Multiset.map_cons, Multiset.map_cons, Multiset.map_map]
    congr 1
    · simp [PgDistNode.row, hm, hn, hprimary]
    · apply Multiset.map_congr rfl
      intro x hx
      simp [h.row_nodeid_ne hm hx]
  refine ⟨_, hupdate.trans hrows, ⟨rfl, ?_, ?_, ?_, ?_, ?_⟩, rfl, rfl⟩
  · have htags := h.tags
    rw [Multiset.map_cons, Multiset.nodup_cons] at htags ⊢
    exact ⟨htag, htags.2⟩
  · have hids := h.ids
    rwa [Multiset.map_cons, ← hid, ← Multiset.map_cons] at hids
  · intro x hx
    rcases Multiset.mem_cons.mp hx with rfl | hx
    · exact ⟨hrole, hhost, id, hlt, hn⟩
    · exact h.placed x (Multiset.mem_cons_of_mem hx)
  · intro x hx hxp
    rcases Multiset.mem_cons.mp hx with rfl | hx
    · rw [hid]
      exact h.primary m (Multiset.mem_cons_self m nodes) (hprimary ▸ hxp)
    · exact h.primary x (Multiset.mem_cons_of_mem hx) hxp
  · intro hregistered
    obtain ⟨x, hx, hxp⟩ := h.primary_mem hregistered
    rcases Multiset.mem_cons.mp hx with rfl | hx
    · exact ⟨n, Multiset.mem_cons_self n nodes, hprimary.trans hxp⟩
    · exact ⟨x, Multiset.mem_cons_of_mem hx, hxp⟩

/-- The addresses of the rows are distinct. -/
theorem Mirrors.addresses_nodup (hreal : RealHosts hosts) {t : Table}
    {nodes : Multiset PgDistNode} (h : Mirrors hosts pid registered t nodes) :
    (t.rows.map Row.address).Nodup := by
  rw [h.rows, Multiset.map_map]
  refine Multiset.Nodup.map_on ?_ (Multiset.Nodup.of_map _ h.tags)
  intro x hx y hy hxy
  have htag : x.tag = y.tag :=
    tag_eq_of_address_eq hreal (h.placed x hx).2.1 (h.placed y hy).2.1 hxy
  exact Multiset.inj_on_of_nodup_map h.tags x hx y hy htag

theorem row_address_of_ne_demoted {n : PgDistNode} (h : n.role ≠ .demoted) :
    n.row.address = n.address := by
  simp [PgDistNode.row, PgDistNode.nodename, Row.address, PgDistNode.address, h]

/-- No other row has the address of a secondary. -/
theorem Mirrors.row_address_ne {t : Table} {m x : PgDistNode} {nodes : Multiset PgDistNode}
    (h : Mirrors hosts pid registered t (m ::ₘ nodes)) (hm : m.role = .secondary) (hx : x ∈ nodes)
    (hreal : RealHosts hosts ∨ x.role ≠ .demoted) : x.row.address ≠ m.address := by
  intro hsame
  have hmrow : m.row.address = m.address := row_address_of_ne_demoted (by simp [hm])
  have htag : x.tag = m.tag := by
    rcases hreal with hreal | hrole
    · exact tag_eq_of_address_eq hreal (h.placed x (Multiset.mem_cons_of_mem hx)).2.1
        (h.placed m (Multiset.mem_cons_self m nodes)).2.1 (hsame.trans hmrow.symm)
    · rw [row_address_of_ne_demoted hrole] at hsame
      simp [PgDistNode.tag, hsame, hrole, hm]
  have htags := h.tags
  rw [Multiset.map_cons, Multiset.nodup_cons] at htags
  exact htags.1 (htag ▸ Multiset.mem_map_of_mem _ hx)

/-- The row of a secondary is removed. -/
theorem Mirrors.remove {t : Table} {m : PgDistNode} {nodes : Multiset PgDistNode}
    (h : Mirrors hosts pid registered t (m ::ₘ nodes)) (hrole : m.role = .secondary)
    (hother : ∀ x ∈ nodes, x.row.address ≠ m.address) :
    ∃ t', updateNode ⟨m.host, m.port, .removed, none⟩ t = some t' ∧
      Mirrors hosts pid registered t' nodes ∧ t'.next = t.next ∧ t'.returned = t.returned := by
  have haddress : m.row.address = m.address := row_address_of_ne_demoted (by simp [hrole])
  have hremove : t.remove m.address = some { t with rows := nodes.map PgDistNode.row } := by
    have hmem : m.address ∈ t.rows.map Row.address := by
      rw [h.rows, Multiset.map_cons, Multiset.map_cons]
      exact Multiset.mem_cons.mpr (.inl haddress.symm)
    rw [Table.remove, if_pos hmem, h.rows, Multiset.map_cons,
      Multiset.filter_cons_of_neg _ (by simp [haddress])]
    congr 2
    apply Multiset.filter_eq_self.mpr
    intro r hr
    obtain ⟨x, hx, rfl⟩ := Multiset.mem_map.mp hr
    simpa using hother x hx
  refine ⟨_, hremove, ⟨rfl, ?_, ?_, ?_, ?_, ?_⟩, rfl, rfl⟩
  · exact (Multiset.nodup_cons.mp (Multiset.map_cons _ m nodes ▸ h.tags)).2
  · exact (Multiset.nodup_cons.mp (Multiset.map_cons _ m nodes ▸ h.ids)).2
  · exact fun x hx => h.placed x (Multiset.mem_cons_of_mem hx)
  · exact fun x hx => h.primary x (Multiset.mem_cons_of_mem hx)
  · intro hregistered
    obtain ⟨x, hx, hxp⟩ := h.primary_mem hregistered
    rcases Multiset.mem_cons.mp hx with rfl | hx
    · simp [PgDistNode.isPrimary, hrole] at hxp
    · exact ⟨x, hx, hxp⟩

/-- A row is added. -/
theorem Mirrors.add {t : Table} {n : PgDistNode} {nodes : Multiset PgDistNode}
    (h : Mirrors hosts pid registered t nodes) (hid : n.nodeid = none)
    (hrole : n.role = .primary ∨ n.role = .secondary) (hhost : n.host ∈ hosts)
    (htag : n.tag ∉ nodes.map PgDistNode.tag) (hprimary : n.isPrimary → t.next = pid) :
    ∃ t', updateNode n t = some t' ∧
      Mirrors hosts pid registered t' ({ n with nodeid := some t.next } ::ₘ nodes) ∧
      t'.returned = (n.address, t.next) :: t.returned := by
  have hupdate : updateNode n t = some (t.add n.address n.isPrimary) := by
    rcases hrole with hr | hr <;> simp [updateNode, hid, hr, PgDistNode.isPrimary]
  refine ⟨_, hupdate, ⟨?_, ?_, ?_, ?_, ?_, ?_⟩, rfl⟩
  · rw [Multiset.map_cons, ← h.rows]
    rcases hrole with hr | hr <;>
      simp [Table.add, PgDistNode.row, PgDistNode.nodename, PgDistNode.isPrimary,
        PgDistNode.address, hr]
  · rw [Multiset.map_cons]
    exact Multiset.nodup_cons.mpr ⟨htag, h.tags⟩
  · rw [Multiset.map_cons]
    refine Multiset.nodup_cons.mpr ⟨?_, h.ids⟩
    intro hmem
    obtain ⟨x, hx, hxid⟩ := Multiset.mem_map.mp hmem
    obtain ⟨-, -, id, hlt, hid'⟩ := h.placed x hx
    rw [hid'] at hxid
    exact hlt.ne (Option.some.inj hxid)
  · intro x hx
    rcases Multiset.mem_cons.mp hx with rfl | hx
    · exact ⟨by rcases hrole with hr | hr <;> simp [hr], hhost, t.next, Nat.lt_succ_self _, rfl⟩
    · obtain ⟨hxrole, hxhost, id, hlt, hxid⟩ := h.placed x hx
      exact ⟨hxrole, hxhost, id, hlt.trans (Nat.lt_succ_self _), hxid⟩
  · intro x hx hxp
    rcases Multiset.mem_cons.mp hx with rfl | hx
    · exact congrArg some (hprimary hxp)
    · exact h.primary x hx hxp
  · intro hregistered
    obtain ⟨x, hx, hxp⟩ := h.primary_mem hregistered
    exact ⟨x, Multiset.mem_cons_of_mem hx, hxp⟩

end Mirrors

/-! ## Groups as collections of nodes -/

namespace PgDistGroup

variable {g : PgDistGroup} {n m : PgDistNode} {rest : Multiset PgDistNode}

/-- A list with distinct keys is what it has for one key, and the others. -/
theorem coe_find_add_filter {α β : Type} [DecidableEq β] (key : α → β) (b : β) {l : List α}
    (h : (l.map key).Nodup) :
    (l : Multiset α) = ((l.find? fun x => key x = b).toList : Multiset α) +
      (l.filter fun x => key x ≠ b : List α) := by
  induction l with
  | nil => rfl
  | cons x l ih =>
      obtain ⟨hx, hl⟩ := List.nodup_cons.mp h
      by_cases hb : key x = b
      · have hfilter : l.filter (fun y => key y ≠ b) = l := by
          apply List.filter_eq_self.mpr
          intro y hy
          have hne : key y ≠ key x := fun hyx => hx (hyx ▸ List.mem_map_of_mem hy)
          simpa [← hb] using hne
        rw [List.find?_cons_of_pos (by simpa using hb), List.filter_cons_of_neg (by simpa using hb),
          hfilter]
        rfl
      · rw [List.find?_cons_of_neg (by simpa using hb), List.filter_cons_of_pos (by simpa using hb),
          ← Multiset.cons_coe, ← Multiset.cons_coe, Multiset.add_cons, ← ih hl]

/-- A group is the node at an address, and the others. -/
theorem nodes_eq (g : PgDistGroup) (n : PgDistNode) :
    (g.nodes : Multiset PgDistNode) = ((g.get n).toList : Multiset PgDistNode) +
      (g.nodes.filter fun v => v.address ≠ n.address : List PgDistNode) :=
  coe_find_add_filter PgDistNode.address n.address g.distinct

/-- The addresses of a group are distinct. -/
theorem addresses_nodup (h : (g.nodes : Multiset PgDistNode) = rest) :
    (rest.map PgDistNode.address).Nodup := by
  rw [← h, Multiset.map_coe]
  exact Multiset.coe_nodup.mpr g.distinct

/-- The addresses of the others. -/
theorem address_ne_of_mem (h : (g.nodes : Multiset PgDistNode) = m ::ₘ rest) {v : PgDistNode}
    (hv : v ∈ rest) : v.address ≠ m.address := by
  have hnodup := addresses_nodup h
  rw [Multiset.map_cons, Multiset.nodup_cons] at hnodup
  exact fun hsame => hnodup.1 (hsame ▸ Multiset.mem_map_of_mem _ hv)

theorem coe_change (n : PgDistNode) (h : (g.nodes : Multiset PgDistNode) = m ::ₘ rest)
    (hn : n.address = m.address) :
    ((g.change n).nodes : Multiset PgDistNode) = n ::ₘ rest := by
  have hrest : rest.map (fun v => if v.address = n.address then n else v) = rest := by
    calc rest.map (fun v => if v.address = n.address then n else v) = rest.map id := by
          apply Multiset.map_congr rfl
          intro v hv
          rw [if_neg (hn ▸ address_ne_of_mem h hv), id]
      _ = rest := Multiset.map_id rest
  have hmap : ((g.change n).nodes : Multiset PgDistNode) =
      (g.nodes : Multiset PgDistNode).map fun v => if v.address = n.address then n else v := rfl
  rw [hmap, h, Multiset.map_cons, hrest, if_pos hn.symm]

theorem has_change {v : PgDistNode} : (g.change n).Has v ↔ g.Has v := by
  have haddresses : (g.change n).nodes.map PgDistNode.address =
      g.nodes.map PgDistNode.address := by
    simp only [change, map, List.map_map]
    apply List.map_congr_left
    intro x _
    dsimp only [Function.comp_apply]
    split
    · next h => exact h.symm
    · rfl
  rw [Has, haddresses, Has]

/-- A node at another address is not changed. -/
theorem get_change_of_ne {v : PgDistNode} (hv : v.address ≠ n.address) :
    (g.change n).get v = g.get v := by
  let f : PgDistNode → PgDistNode := fun x => if x.address = n.address then n else x
  have haddress : ∀ x, (f x).address = x.address := by
    intro x
    simp only [f]
    split
    · next h => exact h.symm
    · rfl
  have hfind : (g.change n).get v = (g.get v).map f := by
    simp only [get, change, map]
    rw [List.find?_map]
    congr 2
    funext x
    exact congrArg (fun a => decide (a = v.address)) (haddress x)
  rw [hfind]
  cases hget : g.get v with
  | none => rfl
  | some x =>
      have hx : x.address = v.address := by simpa using List.find?_some hget
      simp [f, hx, hv]

theorem has_add {v : PgDistNode} : (g.add n).Has v ↔ v.address = n.address ∨ g.Has v := by
  rw [add]
  split
  · next hn =>
      constructor
      · exact .inr
      · rintro (hv | hv)
        · rwa [Has, hv]
        · exact hv
  · rw [Has, List.map_cons, List.mem_cons, Has]

theorem get_eq_none : g.get n = none ↔ ¬ g.Has n := by
  simp [get, Has, List.find?_eq_none]

theorem coe_add (h : ¬ g.Has n) :
    ((g.add n).nodes : Multiset PgDistNode) = n ::ₘ (g.nodes : Multiset PgDistNode) := by
  rw [add, dif_neg h, Multiset.cons_coe]

theorem add_of_has (h : g.Has n) : g.add n = g := by
  rw [add, dif_pos h]

theorem coe_discard (h : (g.nodes : Multiset PgDistNode) = m ::ₘ rest) :
    ((g.discard m).nodes : Multiset PgDistNode) = rest := by
  have hfilter : ((g.discard m).nodes : Multiset PgDistNode) =
      (g.nodes : Multiset PgDistNode).filter fun v => v.address ≠ m.address := by
    rw [Multiset.filter_coe]
    rfl
  rw [hfilter, h, Multiset.filter_cons_of_neg _ (by simp)]
  apply Multiset.filter_eq_self.mpr
  intro v hv
  exact address_ne_of_mem h hv

end PgDistGroup

/-- A group whose nodes all have their rows. -/
structure Registered where
  group : PgDistGroup
  /-- The next value of the sequence of node ids. -/
  next : ℕ
  roles : ∀ n ∈ group.nodes, n.role ≠ .removed
  ids : ∀ n ∈ group.nodes, ∃ id < next, n.nodeid = some id
  distinctIds : (group.nodes.map PgDistNode.nodeid).Nodup
  onePrimary : group.nodes ≠ [] → (group.nodes.filter PgDistNode.isPrimary).length = 1

/-- A group as `add_task` makes it. -/
structure Wanted where
  group : PgDistGroup
  roles : ∀ n ∈ group.nodes, n.role ≠ .removed
  ids : ∀ n ∈ group.nodes, n.nodeid = none
  onePrimary : (group.nodes.filter PgDistNode.isPrimary).length = 1

/-- The rows of a registered group. -/
def Registered.table (old : Registered) : Table where
  rows := (old.group.nodes : Multiset PgDistNode).map PgDistNode.row
  next := old.next
  returned := []

/-- The id of the row of the primary: the registered one, or the first that is given. -/
def Registered.primaryId (old : Registered) : ℕ :=
  (old.group.primary.bind PgDistNode.nodeid).getD old.next

/-- A group with one primary. -/
theorem exists_primary {g : PgDistGroup}
    (h : (g.nodes.filter PgDistNode.isPrimary).length = 1) :
    ∃ p, g.primary = some p ∧ p ∈ g.nodes ∧ p.isPrimary ∧ g.get p = some p ∧
      ∀ n ∈ g.nodes, n.isPrimary → n = p := by
  obtain ⟨p, hp⟩ := List.length_eq_one_iff.mp h
  have hone : ∀ n, n ∈ g.nodes → n.isPrimary → n = p := by
    intro n hn hprimary
    have hmem : n ∈ g.nodes.filter PgDistNode.isPrimary := List.mem_filter.mpr ⟨hn, hprimary⟩
    rw [hp] at hmem
    exact List.mem_singleton.mp hmem
  have hmem : p ∈ g.nodes ∧ p.isPrimary := by
    apply List.mem_filter.mp
    rw [hp]
    exact List.mem_singleton_self p
  have hfind : g.primary = some p := by
    cases hprimary : g.primary with
    | none => exact absurd hmem.2 (by simpa using List.find?_eq_none.mp hprimary p hmem.1)
    | some q =>
        rw [hone q (List.mem_of_find?_eq_some hprimary) (List.find?_some hprimary)]
  have hget : g.get p = some p := by
    cases hp' : g.get p with
    | none => exact absurd (List.mem_map_of_mem hmem.1) (PgDistGroup.get_eq_none.mp hp')
    | some q =>
        have hsame : q.address = p.address := by simpa using List.find?_some hp'
        rw [List.inj_on_of_nodup_map g.distinct (List.mem_of_find?_eq_some hp') hmem.1 hsame]
  exact ⟨p, hfind, hmem.1, hmem.2, hget, hone⟩

theorem role_eq_secondary {n : PgDistNode} (hrole : n.role ≠ .removed)
    (hprimary : ¬ n.isPrimary) : n.role = .secondary := by
  cases hr : n.role with
  | primary => simp [PgDistNode.isPrimary, hr] at hprimary
  | secondary => rfl
  | demoted => simp [PgDistNode.isPrimary, hr] at hprimary
  | removed => exact absurd hr hrole

/-- The table of a registered group has its rows. -/
theorem Registered.mirrors (old : Registered) {hosts : Set String}
    (hhosts : ∀ n ∈ old.group.nodes, n.host ∈ hosts) :
    Mirrors hosts old.primaryId (old.group.nodes ≠ []) old.table
      (old.group.nodes : Multiset PgDistNode) where
  rows := rfl
  tags := by
    apply Multiset.Nodup.of_map Prod.fst
    rw [Multiset.map_map, Multiset.map_coe]
    exact Multiset.coe_nodup.mpr old.group.distinct
  ids := by
    rw [Multiset.map_coe]
    exact Multiset.coe_nodup.mpr old.distinctIds
  placed n hn := ⟨old.roles n hn, hhosts n hn, old.ids n hn⟩
  primary := by
    intro n hn hprimary
    obtain ⟨p, hp, hpmem, -, -, hone⟩ :=
      exists_primary (old.onePrimary (List.ne_nil_of_mem (Multiset.mem_coe.mp hn)))
    rw [hone n hn hprimary]
    obtain ⟨id, -, hid⟩ := old.ids p hpmem
    simp [Registered.primaryId, hp, hid]
  primary_mem := by
    intro hne
    obtain ⟨p, -, hpmem, hprimary, -⟩ := exists_primary (old.onePrimary hne)
    exact ⟨p, Multiset.mem_coe.mpr hpmem, hprimary⟩

end Citus

end Metatroni
