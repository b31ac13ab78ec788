import Metatroni.Lib.Runs
import Metatroni.Citus.Rows

/-!
# The secondaries of a transition

The part of `transition` that comes after the primary: nodes that are in both
groups keep their rows, added nodes get the rows of gone nodes, and the rest is
removed and added, or kept and left out when the primary was updated.
-/

namespace Metatroni

namespace Citus

open Runs

/-! ## Ids that are returned -/

/-- A node with the id that was returned when it was added. -/
def PgDistNode.withId (returned : List (Address × ℕ)) (n : PgDistNode) : PgDistNode :=
  if n.nodeid = none then { n with nodeid := returned.lookup n.address } else n

theorem withId_nil (n : PgDistNode) : n.withId [] = n := by
  rw [PgDistNode.withId]
  split
  · next hn =>
      obtain ⟨host, port, role, nodeid⟩ := n
      obtain rfl : nodeid = none := hn
      rfl
  · rfl

variable {returned : List (Address × ℕ)}

theorem withId_of_some {n : PgDistNode} {id : ℕ} (h : n.nodeid = some id) :
    n.withId returned = n := by
  simp [PgDistNode.withId, h]

theorem eq_of_withId_nodeid {n : PgDistNode} (h : (n.withId returned).nodeid = none) :
    n.withId returned = n := by
  rw [PgDistNode.withId] at h ⊢
  split at h
  · next hn =>
      rw [if_pos hn]
      obtain ⟨host, port, role, nodeid⟩ := n
      obtain rfl : nodeid = none := hn
      simpa using h
  · next hn => rw [if_neg hn]

theorem address_withId (n : PgDistNode) : (n.withId returned).address = n.address := by
  rw [PgDistNode.withId]
  split <;> rfl

theorem tag_notMem {n : PgDistNode} {nodes : Multiset PgDistNode}
    (h : ∀ x ∈ nodes, x.address ≠ n.address) : n.tag ∉ nodes.map PgDistNode.tag := by
  intro hmem
  obtain ⟨x, hx, htag⟩ := Multiset.mem_map.mp hmem
  exact h x hx (Prod.mk.inj htag).1

/-! ## Placed nodes and nodes that wait -/

section Sound

variable (hosts : Set String) (pid : ℕ) (registered : Prop) (role : Role)

/-- Executing some nodes leads from one table to another, and each table on the way has
the rows of some nodes. -/
abbrev Reaches (t₀ : Table) (yields : List PgDistNode) (t : Table) : Prop :=
  Run updateNode (fun _ t => ∃ nodes, Mirrors hosts pid registered t nodes) t₀ yields t

/-- What has been yielded so far is executed: the table has the rows of the nodes that
have their place, and of the gone nodes; the rest of the group waits to be added, or has
been forgotten. -/
structure Sound (t₀ t : Table) (w : Work) (placed unplaced : Multiset PgDistNode) : Prop where
  run : Reaches hosts pid registered t₀ w.yields t
  mirrors : Mirrors hosts pid registered t (placed + w.gone)
  group : (w.self.nodes : Multiset PgDistNode).map (PgDistNode.withId t.returned) =
    placed + unplaced + w.added
  gone : ∀ g ∈ w.gone, g.role = .secondary ∧ ¬ w.self.Has g
  gone_nodup : (w.gone.map PgDistNode.address).Nodup
  added : ∀ a ∈ w.added, a.role = .secondary ∧ a.nodeid = none ∧ a.host ∈ hosts
  roles : ∀ n ∈ placed, n.isPrimary → n.role = role

variable {hosts pid registered role} {t₀ t : Table} {w : Work}
  {placed unplaced : Multiset PgDistNode}

theorem Reaches.snoc {yields : List PgDistNode} {t' : Table} {n : PgDistNode}
    {nodes : Multiset PgDistNode} (run : Reaches hosts pid registered t₀ yields t)
    (h : Mirrors hosts pid registered t nodes) (hstep : updateNode n t = some t') :
    Reaches hosts pid registered t₀ (yields ++ [n]) t' :=
  Run.snoc run ⟨nodes, h⟩ hstep

/-- The nodes that have their place are in the group. -/
theorem Sound.has_of_mem (h : Sound hosts pid registered role t₀ t w placed unplaced)
    {n : PgDistNode} (hn : n ∈ placed + unplaced + w.added) : w.self.Has n := by
  rw [← h.group] at hn
  obtain ⟨x, hx, rfl⟩ := Multiset.mem_map.mp hn
  rw [PgDistGroup.Has, address_withId]
  exact List.mem_map_of_mem (Multiset.mem_coe.mp hx)

/-- The next gone node, in the table. -/
theorem Sound.mirrors_cons (h : Sound hosts pid registered role t₀ t w placed unplaced)
    {g : PgDistNode} {gone : List PgDistNode} (hgone : w.gone = g :: gone) :
    Mirrors hosts pid registered t (g ::ₘ (placed + gone)) := by
  have hmirrors := h.mirrors
  rwa [hgone, ← Multiset.cons_coe, Multiset.add_cons] at hmirrors

/-- The next node to be added, in the group. -/
theorem Sound.nodes_eq (h : Sound hosts pid registered role t₀ t w placed unplaced)
    {a : PgDistNode} {added : List PgDistNode} (ha : w.added = a :: added) :
    ∃ rest, (w.self.nodes : Multiset PgDistNode) = a ::ₘ rest ∧
      rest.map (PgDistNode.withId t.returned) = placed + unplaced + added := by
  have hgroup := h.group
  have hsplit : placed + unplaced + (w.added : Multiset PgDistNode) =
      a ::ₘ (placed + unplaced + added) := by
    rw [ha, ← Multiset.cons_coe, Multiset.add_cons]
  rw [hsplit] at hgroup
  obtain ⟨x, hx, hxa⟩ := Multiset.mem_map.mp (hgroup ▸ Multiset.mem_cons_self a _)
  have hid : a.nodeid = none := (h.added a (by simp [ha])).2.1
  obtain rfl : a = x := by
    rw [← hxa]
    exact eq_of_withId_nodeid (by rw [hxa, hid])
  obtain ⟨rest, hrest⟩ := Multiset.exists_cons_of_mem hx
  refine ⟨rest, hrest, ?_⟩
  rw [hrest, Multiset.map_cons, hxa] at hgroup
  exact Multiset.cons_inj_right a |>.mp hgroup

/-- The other nodes that have their place have other addresses. -/
theorem Sound.address_ne (h : Sound hosts pid registered role t₀ t w placed unplaced)
    {a : PgDistNode} {added : List PgDistNode} (ha : w.added = a :: added)
    {x : PgDistNode} (hx : x ∈ placed + w.gone) : x.address ≠ a.address := by
  have hmem : a ∈ placed + unplaced + (w.added : Multiset PgDistNode) := by
    rw [ha]
    simp
  rcases Multiset.mem_add.mp hx with hx | hx
  · obtain ⟨rest, hrest, hplaced⟩ := h.nodes_eq ha
    have hx' : x ∈ rest.map (PgDistNode.withId t.returned) := by
      rw [hplaced]
      simp [hx]
    obtain ⟨y, hy, rfl⟩ := Multiset.mem_map.mp hx'
    rw [address_withId]
    exact PgDistGroup.address_ne_of_mem hrest hy
  · intro hsame
    apply (h.gone x (Multiset.mem_coe.mp hx)).2
    rw [PgDistGroup.Has, hsame]
    exact h.has_of_mem hmem

theorem roles_cons {n : PgDistNode} (hn : n.role = .secondary)
    (h : ∀ x ∈ placed, x.isPrimary → x.role = role) :
    ∀ x ∈ n ::ₘ placed, x.isPrimary → x.role = role := by
  intro x hx hxp
  rcases Multiset.mem_cons.mp hx with rfl | hx
  · simp [PgDistNode.isPrimary, hn] at hxp
  · exact h x hx hxp

/-- Added nodes get the rows of gone nodes, as long as there are any. -/
theorem Sound.reuse {gone added : List PgDistNode}
    (h : Sound hosts pid registered role t₀ t { w with gone := gone, added := added } placed
      unplaced) :
    ∃ t' placed', Sound hosts pid registered role t₀ t' (Work.reuse gone added w) placed'
      unplaced := by
  fun_induction Work.reuse gone added w generalizing t placed with
  | case2 gone added w hempty => exact ⟨t, placed, h⟩
  | case1 g gone a added w ih =>
      let a' := { a with nodeid := g.nodeid }
      obtain ⟨hgrole, hgself⟩ := h.gone g (by simp)
      obtain ⟨harole, haid, hahost⟩ := h.added a (by simp)
      have hmirrors : Mirrors hosts pid registered t (g ::ₘ (placed + gone)) := h.mirrors_cons rfl
      have htag : a'.tag ∉ (placed + gone).map PgDistNode.tag := by
        apply tag_notMem
        intro x hx
        apply h.address_ne rfl
        rcases Multiset.mem_add.mp hx with hx | hx
        · exact Multiset.mem_add.mpr (.inl hx)
        · exact Multiset.mem_add.mpr (.inr (List.mem_cons_of_mem g hx))
      obtain ⟨t', hstep, hmirrors', -, hreturned⟩ := hmirrors.update (n := a') rfl
        (by simp [a', PgDistNode.isPrimary, harole, hgrole]) (by simp [a', harole]) hahost htag
      obtain ⟨rest, hrest, hplaced⟩ := h.nodes_eq rfl
      refine @ih t' (a' ::ₘ placed)
        { run := h.run.snoc hmirrors hstep
          mirrors := by rwa [Multiset.cons_add]
          group := by
            obtain ⟨-, -, id, -, hid⟩ := hmirrors.placed g (Multiset.mem_cons_self g _)
            have hchange : ((w.self.change a').nodes : Multiset PgDistNode) = a' ::ₘ rest :=
              PgDistGroup.coe_change a' hrest rfl
            have ha' : a'.withId t'.returned = a' := withId_of_some hid
            calc
              ((w.self.change a').nodes : Multiset PgDistNode).map (PgDistNode.withId t'.returned)
              _ = a' ::ₘ (placed + unplaced + added) := by
                  rw [hchange, Multiset.map_cons, ha', hreturned, hplaced]
              _ = a' ::ₘ placed + unplaced + added := by
                  rw [Multiset.cons_add, Multiset.cons_add]
          gone := by
            intro x hx
            obtain ⟨hrole, hself⟩ := h.gone x (List.mem_cons_of_mem g hx)
            exact ⟨hrole, fun hhas => hself (PgDistGroup.has_change.mp hhas)⟩
          gone_nodup := (List.nodup_cons.mp h.gone_nodup).2
          added := fun x hx => h.added x (List.mem_cons_of_mem a hx)
          roles := roles_cons harole h.roles }

/-- A gone node is kept in the group, or its row is removed. -/
theorem Sound.dropGone (hreal : RealHosts hosts ∨ role ≠ .demoted) {g : PgDistNode}
    {gone : List PgDistNode}
    (h : Sound hosts pid registered role t₀ t { w with gone := g :: gone } placed unplaced) :
    ∃ t' placed', Sound hosts pid registered role t₀ t' { w.dropGone g with gone := gone } placed'
      unplaced := by
  obtain ⟨hgrole, hgself⟩ := h.gone g (by simp)
  obtain ⟨hgnew, hgone⟩ := List.nodup_cons.mp h.gone_nodup
  have hmirrors : Mirrors hosts pid registered t (g ::ₘ (placed + gone)) := h.mirrors_cons rfl
  by_cases hfailover : w.self.failover
  · refine ⟨t, g ::ₘ placed, ?_⟩
    rw [Work.dropGone, if_pos hfailover]
    exact
      { run := h.run
        mirrors := by rwa [Multiset.cons_add]
        group := by
          obtain ⟨-, -, id, -, hid⟩ := hmirrors.placed g (Multiset.mem_cons_self g _)
          have hold := h.group
          dsimp only at hold ⊢
          rw [PgDistGroup.coe_add hgself, Multiset.map_cons, withId_of_some hid, hold,
            Multiset.cons_add, Multiset.cons_add]
        gone := by
          intro x hx
          obtain ⟨hrole, hself⟩ := h.gone x (List.mem_cons_of_mem g hx)
          refine ⟨hrole, fun hhas => ?_⟩
          rcases PgDistGroup.has_add.mp hhas with hsame | hhas
          · exact hgnew (hsame ▸ List.mem_map_of_mem hx)
          · exact hself hhas
        gone_nodup := hgone
        added := h.added
        roles := roles_cons hgrole h.roles }
  · have hother : ∀ x ∈ placed + (gone : Multiset PgDistNode), x.row.address ≠ g.address := by
      intro x hx
      apply hmirrors.row_address_ne hgrole hx
      refine hreal.imp_right fun hrole hdemoted => ?_
      rcases Multiset.mem_add.mp hx with hx | hx
      · have hxrole := h.roles x hx (by simp [PgDistNode.isPrimary, hdemoted])
        exact hrole (hxrole.symm.trans hdemoted)
      · have hxrole := (h.gone x (List.mem_cons_of_mem g (Multiset.mem_coe.mp hx))).1
        simp [hdemoted] at hxrole
    obtain ⟨t', hstep, hmirrors', -, hreturned⟩ := hmirrors.remove hgrole hother
    refine ⟨t', placed, ?_⟩
    rw [Work.dropGone, if_neg hfailover]
    exact
      { run := h.run.snoc hmirrors hstep
        mirrors := hmirrors'
        group := by
          rw [hreturned]
          exact h.group
        gone := fun x hx => h.gone x (List.mem_cons_of_mem g hx)
        gone_nodup := hgone
        added := h.added
        roles := h.roles }

theorem Sound.dropAllGone (hreal : RealHosts hosts ∨ role ≠ .demoted) {gone : List PgDistNode}
    (h : Sound hosts pid registered role t₀ t { w with gone := gone } placed unplaced) :
    ∃ t' placed', Sound hosts pid registered role t₀ t'
      { gone.foldl Work.dropGone w with gone := [] } placed' unplaced := by
  induction gone generalizing w t placed with
  | nil => exact ⟨t, placed, h⟩
  | cons g gone ih =>
      obtain ⟨t', placed', h'⟩ := h.dropGone hreal
      exact ih h'

/-- The row of an added node is added, or it is left out of the group. -/
theorem Sound.takeAdded {a : PgDistNode} {added : List PgDistNode}
    (h : Sound hosts pid registered role t₀ t { w with gone := [], added := a :: added } placed
      unplaced) :
    ∃ t' placed', Sound hosts pid registered role t₀ t'
      { w.takeAdded a with gone := [], added := added } placed' unplaced := by
  obtain ⟨harole, haid, hahost⟩ := h.added a (by simp)
  obtain ⟨rest, hrest, hplaced⟩ := h.nodes_eq rfl
  have hadded : ∀ x ∈ added, x.role = .secondary ∧ x.nodeid = none ∧ x.host ∈ hosts :=
    fun x hx => h.added x (List.mem_cons_of_mem a hx)
  by_cases hfailover : w.self.failover
  · refine ⟨t, placed, ?_⟩
    rw [Work.takeAdded, if_pos hfailover]
    exact
      { run := h.run
        mirrors := h.mirrors
        group := by
          dsimp only
          rw [PgDistGroup.coe_discard hrest, hplaced]
        gone := by simp
        gone_nodup := by simp
        added := hadded
        roles := h.roles }
  · have htag : a.tag ∉ (placed + ([] : List PgDistNode)).map PgDistNode.tag :=
      tag_notMem fun x hx => h.address_ne rfl hx
    obtain ⟨t', hstep, hmirrors', hreturned⟩ := h.mirrors.add haid (.inr harole) hahost htag
      (by simp [PgDistNode.isPrimary, harole])
    let a' := { a with nodeid := some t.next }
    refine ⟨t', a' ::ₘ placed, ?_⟩
    rw [Work.takeAdded, if_neg hfailover]
    exact
      { run := h.run.snoc h.mirrors hstep
        mirrors := by rwa [Multiset.cons_add]
        group := by
          have ha' : a.withId t'.returned = a' := by
            simp [PgDistNode.withId, haid, hreturned, a']
          have hothers : rest.map (PgDistNode.withId t'.returned) =
              rest.map (PgDistNode.withId t.returned) := by
            apply Multiset.map_congr rfl
            intro x hx
            have hne : (x.address == a.address) = false :=
              beq_false_of_ne (PgDistGroup.address_ne_of_mem hrest hx)
            simp [PgDistNode.withId, hreturned, List.lookup_cons, hne]
          calc (w.self.nodes : Multiset PgDistNode).map (PgDistNode.withId t'.returned)
              _ = a' ::ₘ (placed + unplaced + added) := by
                rw [show (w.self.nodes : Multiset PgDistNode) = a ::ₘ rest from hrest,
                  Multiset.map_cons, ha', hothers, hplaced]
              _ = a' ::ₘ placed + unplaced + added := by
                rw [Multiset.cons_add, Multiset.cons_add]
        gone := by simp
        gone_nodup := by simp
        added := hadded
        roles := roles_cons harole h.roles }

theorem Sound.takeAllAdded {added : List PgDistNode}
    (h : Sound hosts pid registered role t₀ t { w with gone := [], added := added } placed
      unplaced) :
    ∃ t' placed', Sound hosts pid registered role t₀ t'
      { added.foldl Work.takeAdded w with gone := [], added := [] } placed' unplaced := by
  induction added generalizing w t placed with
  | nil => exact ⟨t, placed, h⟩
  | cons a added ih =>
      obtain ⟨t', placed', h'⟩ := h.takeAdded
      exact ih h'

/-- The secondaries are placed, kept, removed, added or left out. -/
theorem Sound.secondaries (hreal : RealHosts hosts ∨ role ≠ .demoted)
    (h : Sound hosts pid registered role t₀ t w.fill placed unplaced) :
    ∃ t' nodes, Reaches hosts pid registered t₀ w.secondaries.yields t' ∧
      Mirrors hosts pid registered t' nodes ∧
      (w.secondaries.self.nodes : Multiset PgDistNode).map (PgDistNode.withId t'.returned) =
        nodes + unplaced ∧ ∀ n ∈ nodes, n.isPrimary → n.role = role := by
  let w₁ := Work.reuse w.gone w.added w.fill
  let w₂ := w₁.gone.foldl Work.dropGone w₁
  obtain ⟨t₁, placed₁, h₁⟩ : ∃ t placed, Sound hosts pid registered role t₀ t w₁ placed unplaced :=
    Sound.reuse h
  obtain ⟨t₂, placed₂, h₂⟩ : ∃ t placed, Sound hosts pid registered role t₀ t
      { w₂ with gone := [] } placed unplaced := Sound.dropAllGone hreal h₁
  obtain ⟨t₃, placed₃, h₃⟩ : ∃ t placed, Sound hosts pid registered role t₀ t
      { w₂.added.foldl Work.takeAdded w₂ with gone := [], added := [] } placed unplaced :=
    Sound.takeAllAdded h₂
  refine ⟨t₃, placed₃, h₃.run, ?_, ?_, h₃.roles⟩
  · simpa using h₃.mirrors
  · have hgroup := h₃.group
    rwa [Multiset.coe_nil, add_zero] at hgroup

end Sound

end Citus

end Metatroni
