import Metatroni.Citus.Primaries

/-!
# Whole transitions

What `transition` yields can be executed, statement by statement, and at the end
the table has the rows of the group that is put into the cache, apart from the
nodes that were forgotten.
-/

namespace Metatroni

namespace Citus

open Runs

section Whole

variable {hosts : Set String} {old : Registered} {new : Wanted} {op np : PgDistNode}

/-- The two groups at the beginning of `transition`. -/
theorem compared_work (hold : ∀ n ∈ old.group.nodes, n.host ∈ hosts)
    (hnew : ∀ n ∈ new.group.nodes, n.host ∈ hosts) (hop : old.group.primary = some op)
    (hnp : new.group.primary = some np) (popGone popAdded : PopOrder) :
    Compared hosts old new op np (new.group.work old.group popGone popAdded np) := by
  have hne : old.group.nodes ≠ [] := List.ne_nil_of_mem (List.mem_of_find?_eq_some hop)
  obtain ⟨op', hop', hopmem, hopprimary, hopget, hoponly⟩ := exists_primary (old.onePrimary hne)
  obtain ⟨np', hnp', hnpmem, hnpprimary, hnpget, hnponly⟩ := exists_primary new.onePrimary
  obtain rfl := Option.some.inj (hop.symm.trans hop')
  obtain rfl := Option.some.inj (hnp.symm.trans hnp')
  have hgone : new.group.gone old.group = old.group.only new.group op := by
    simp [PgDistGroup.gone, PgDistGroup.only, hop]
  exact
    { old_hosts := hold
      new_hosts := hnew
      op_mem := hopmem
      op_primary := hopprimary
      op_get := hopget
      op_only := hoponly
      np_mem := hnpmem
      np_primary := hnpprimary
      np_get := hnpget
      np_only := hnponly
      w_self := rfl
      w_old := rfl
      gone := hgone ▸ Multiset.coe_eq_coe.mpr (popGone.perm _)
      added := Multiset.coe_eq_coe.mpr (popAdded.perm _)
      yields := rfl }

/-- `transition` compares a new group with one that has no nodes. -/
structure First (hosts : Set String) (new : Wanted) (np : PgDistNode) (w : Work) : Prop where
  np_mem : np ∈ new.group.nodes
  np_primary : np.isPrimary
  new_hosts : ∀ n ∈ new.group.nodes, n.host ∈ hosts
  nodes : (new.group.nodes : Multiset PgDistNode) = np ::ₘ w.added
  filled : w.fill.self.nodes = new.group.nodes
  gone : w.gone = []
  added : ∀ a ∈ w.added, a.role = .secondary ∧ a.nodeid = none ∧ a.host ∈ hosts

theorem first_work (hnew : ∀ n ∈ new.group.nodes, n.host ∈ hosts)
    (hempty : old.group.nodes = []) (hnp : new.group.primary = some np)
    (popGone popAdded : PopOrder) :
    First hosts new np (new.group.work old.group popGone popAdded np) := by
  obtain ⟨np', hnp', hmem, hprimary, hget, honly⟩ := exists_primary new.onePrimary
  obtain rfl := Option.some.inj (hnp.symm.trans hnp')
  have hid : ∀ n ∈ new.group.nodes, Work.fillNode old.group n = id n := by
    intro n _
    apply fillNode_of_not_replica
    simp [hempty]
  have hnodes : (new.group.nodes : Multiset PgDistNode) =
      np ::ₘ (new.group.work old.group popGone popAdded np).added := by
    rw [PgDistGroup.nodes_eq_cons hget, Multiset.filter_coe]
    congr 1
    apply Multiset.coe_eq_coe.mpr
    refine List.Perm.trans ?_ (popAdded.perm _).symm
    simp [PgDistGroup.added, PgDistGroup.Has, hempty]
  have hnone : new.group.gone old.group = [] := by simp [PgDistGroup.gone, hempty]
  have hperm := popGone.perm (new.group.gone old.group)
  rw [hnone] at hperm
  refine ⟨hmem, hprimary, hnew, hnodes, ?_, (congrArg popGone.order hnone).trans hperm.eq_nil, ?_⟩
  · calc new.group.nodes.map (Work.fillNode old.group) = new.group.nodes.map id :=
          List.map_congr_left hid
      _ = new.group.nodes := List.map_id _
  · intro a ha
    have hamem : a ∈ new.group.nodes := by
      rw [← Multiset.mem_coe, hnodes]
      exact Multiset.mem_cons_of_mem (Multiset.mem_coe.mpr ha)
    have hanp : a.address ≠ np.address :=
      PgDistGroup.address_ne_of_mem hnodes (Multiset.mem_coe.mpr ha)
    exact ⟨role_eq_secondary (new.roles a hamem) fun hp =>
      hanp (congrArg PgDistNode.address (honly a hamem hp)), new.ids a hamem, hnew a hamem⟩

/-- The primary has been executed, and the other nodes wait. -/
theorem First.sound {w : Work} (f : First hosts new np w) {pid : ℕ} {registered : Prop}
    {t₀ t : Table} {placed unplaced : Multiset PgDistNode}
    (hrun : Reaches hosts pid registered t₀ (w.yield np).yields t)
    (hmirrors : Mirrors hosts pid registered t placed)
    (hplaced : placed + unplaced = {np.withId t.returned})
    (hwait : ∀ a ∈ w.added, t.returned.lookup a.address = none)
    (hroles : ∀ n ∈ placed, n.isPrimary → n.role = np.role) :
    Sound hosts pid registered np.role t₀ t (w.yield np).fill placed unplaced where
  run := hrun
  mirrors := by
    rw [show (w.yield np).fill.gone = [] from f.gone]
    simpa using hmirrors
  group := by
    have hadded : (w.added : Multiset PgDistNode).map (PgDistNode.withId t.returned) = w.added := by
      refine (Multiset.map_congr rfl fun a ha => ?_).trans (Multiset.map_id _)
      have hlookup := hwait a (Multiset.mem_coe.mp ha)
      have hid := (f.added a (Multiset.mem_coe.mp ha)).2.1
      exact eq_of_withId_nodeid (by simp [PgDistNode.withId, hlookup, hid])
    rw [show (w.yield np).fill.self.nodes = new.group.nodes from f.filled, f.nodes,
      Multiset.map_cons, hadded, hplaced, Multiset.singleton_add]
    rfl
  gone := fun g hg => absurd (f.gone ▸ hg : g ∈ []) List.not_mem_nil
  gone_nodup := (congrArg (·.map PgDistNode.address) f.gone : _ = []) ▸ List.nodup_nil
  added := f.added
  roles := hroles

/-- The first nodes of a group are added; a demoted primary is not. -/
theorem sound_first (hnew : ∀ n ∈ new.group.nodes, n.host ∈ hosts)
    (hempty : old.group.nodes = []) (hnp : new.group.primary = some np)
    (popGone popAdded : PopOrder) :
    ∃ t' placed, Sound hosts old.primaryId (old.group.nodes ≠ []) np.role old.table t'
      ((new.group.work old.group popGone popAdded np).yield np).fill placed
      (if np.role = .demoted then {np} else 0) := by
  have f := first_work hnew hempty hnp popGone popAdded
  have hnone := new.ids np f.np_mem
  have hmirrors : Mirrors hosts old.primaryId (old.group.nodes ≠ []) old.table 0 := by
    have h : Mirrors hosts old.primaryId (old.group.nodes ≠ []) old.table
        (old.group.nodes : Multiset PgDistNode) := old.mirrors (by simp [hempty])
    have hzero : (old.group.nodes : Multiset PgDistNode) = 0 := congrArg _ hempty
    rwa [hzero] at h
  by_cases hrole : np.role = .demoted
  · rw [if_pos hrole]
    have hstep : updateNode np old.table = some old.table := by simp [updateNode, hrole, hnone]
    refine ⟨old.table, 0, f.sound (Reaches.snoc (.nil _) hmirrors hstep) hmirrors ?_ ?_ ?_⟩
    · rw [zero_add, show old.table.returned = [] from rfl, withId_nil]
    · intro a _
      rfl
    · simp
  · rw [if_neg hrole]
    have hprimary : np.role = .primary := by simpa [PgDistNode.isPrimary, hrole] using f.np_primary
    have hnext : old.table.next = old.primaryId := by
      simp [Registered.table, Registered.primaryId, PgDistGroup.primary, hempty]
    obtain ⟨t', hstep, hmirrors', hreturned⟩ := hmirrors.add hnone (.inl hprimary)
      (hnew np f.np_mem) (by simp) fun _ => hnext
    let np' := { np with nodeid := some old.table.next }
    refine ⟨t', {np'}, f.sound (Reaches.snoc (.nil _) hmirrors hstep) hmirrors' ?_ ?_ ?_⟩
    · simp [PgDistNode.withId, hnone, hreturned, np']
    · intro a ha
      have hne : (a.address == np.address) = false :=
        beq_false_of_ne (PgDistGroup.address_ne_of_mem f.nodes (Multiset.mem_coe.mpr ha))
      simp [hreturned, List.lookup_cons, hne, Registered.table]
    · exact Compared.roles_singleton rfl

/-- The nodes that a transition leaves in the group without a row: a demoted primary that
was never registered, or the old primary. -/
def forgotten (old : Registered) (new : Wanted) : Multiset PgDistNode :=
  match old.group.primary, new.group.primary with
  | _, none => 0
  | none, some np => if np.role = .demoted then {np} else 0
  | some op, some np =>
      if Compared.Forgotten old new op np then ((new.group.get op).toList : Multiset PgDistNode)
      else 0

/-- What is yielded can be executed, and at the end the table has the rows of the group,
apart from what was forgotten. -/
theorem transition_executes (hold : ∀ n ∈ old.group.nodes, n.host ∈ hosts)
    (hnew : ∀ n ∈ new.group.nodes, n.host ∈ hosts) (hnp : new.group.primary = some np)
    (hreal : RealHosts hosts ∨ np.role ≠ .demoted) (popGone popAdded : PopOrder) :
    ∃ group yields t nodes,
      new.group.transition old.group popGone popAdded = some (group, yields) ∧
      Reaches hosts old.primaryId (old.group.nodes ≠ []) old.table yields t ∧
      Mirrors hosts old.primaryId (old.group.nodes ≠ []) t nodes ∧
      (group.nodes : Multiset PgDistNode).map (PgDistNode.withId t.returned) =
        nodes + forgotten old new ∧
      ∀ n ∈ nodes, n.isPrimary → n.role = np.role := by
  let w := new.group.work old.group popGone popAdded np
  have htransition : new.group.transition old.group popGone popAdded =
      some ((w.primaries old.group.primary np).secondaries.self,
        (w.primaries old.group.primary np).secondaries.yields) := by
    simp only [PgDistGroup.transition, hnp, w]
  obtain ⟨t, placed, hsound⟩ : ∃ t placed, Sound hosts old.primaryId (old.group.nodes ≠ []) np.role
      old.table t (w.primaries old.group.primary np).fill placed (forgotten old new) := by
    cases hop : old.group.primary with
    | none =>
        have hempty : old.group.nodes = [] := by
          by_contra hne
          obtain ⟨op, hop', -⟩ := exists_primary (old.onePrimary hne)
          rw [hop] at hop'
          cases hop'
        simp only [forgotten, hop, hnp]
        exact sound_first hnew hempty hnp popGone popAdded
    | some op =>
        obtain ⟨t, placed, hstarted⟩ :=
          (compared_work hold hnew hop hnp popGone popAdded).primaries (old.mirrors hold) rfl
        simp only [forgotten, hop, hnp]
        exact ⟨t, _, hstarted.sound⟩
  obtain ⟨t', nodes, hrun, hmirrors, hgroup, hroles⟩ := hsound.secondaries hreal
  exact ⟨_, _, t', nodes, htransition, hrun, hmirrors, hgroup, hroles⟩

end Whole

/-! ## Distinct addresses -/

/-- The hosts of two groups. -/
def hostsOf (old : Registered) (new : Wanted) : Set String :=
  {host | ∃ n ∈ old.group.nodes ++ new.group.nodes, n.host = host}

theorem mem_hostsOf_old {old : Registered} {new : Wanted} {n : PgDistNode}
    (hn : n ∈ old.group.nodes) : n.host ∈ hostsOf old new :=
  ⟨n, List.mem_append_left _ hn, rfl⟩

theorem mem_hostsOf_new {old : Registered} {new : Wanted} {n : PgDistNode}
    (hn : n ∈ new.group.nodes) : n.host ∈ hostsOf old new :=
  ⟨n, List.mem_append_right _ hn, rfl⟩

/-- After each statement of a transition the addresses of the rows are distinct, and the
row of the primary has the id that it had before, or was given first. -/
theorem transition_keeps_addresses_distinct (old : Registered) (new : Wanted)
    (popGone popAdded : PopOrder)
    (hreal : ∀ a ∈ old.group.nodes ++ new.group.nodes,
      ∀ b ∈ old.group.nodes ++ new.group.nodes, a.host ≠ b.host ++ "-demoted") :
    ∃ group yields, new.group.transition old.group popGone popAdded = some (group, yields) ∧
      ∀ executed, executed <+: yields →
        ∃ t, exec updateNode executed old.table = some t ∧ (t.rows.map Row.address).Nodup ∧
          (∀ r ∈ t.rows, r.primary → r.nodeid = old.primaryId) ∧
          (old.group.nodes ≠ [] → ∃ r ∈ t.rows, r.primary) := by
  have hhosts : RealHosts (hostsOf old new) := by
    rintro _ ⟨a, ha, rfl⟩ _ ⟨b, hb, rfl⟩
    exact hreal a ha b hb
  obtain ⟨np, hnp, -⟩ := exists_primary new.onePrimary
  obtain ⟨group, yields, t, nodes, htransition, hrun, hmirrors, -⟩ :=
    transition_executes (fun n => mem_hostsOf_old) (fun n => mem_hostsOf_new) hnp (.inl hhosts)
      popGone popAdded
  refine ⟨group, yields, htransition, fun executed hexecuted => ?_⟩
  obtain ⟨t', ht', hend⟩ := hrun.exec_of_isPrefix hexecuted
  obtain ⟨nodes', hnodes'⟩ : ∃ nodes, Mirrors (hostsOf old new) old.primaryId
      (old.group.nodes ≠ []) t' nodes := by
    rcases hend with rfl | ⟨-, hguard⟩
    · exact ⟨nodes, hmirrors⟩
    · exact hguard
  refine ⟨t', ht', hnodes'.addresses_nodup hhosts, ?_, ?_⟩
  · intro r hr hprimary
    rw [hnodes'.rows] at hr
    obtain ⟨n, hn, rfl⟩ := Multiset.mem_map.mp hr
    simp [PgDistNode.row, hnodes'.primary n hn hprimary]
  · intro hne
    obtain ⟨n, hn, hprimary⟩ := hnodes'.primary_mem hne
    refine ⟨n.row, ?_, hprimary⟩
    rw [hnodes'.rows]
    exact Multiset.mem_map_of_mem _ hn

/-- Sets that yield their elements in the order of the list. -/
def inOrder : PopOrder := ⟨id, fun _ => .refl _⟩

/-- A primary and a secondary. -/
def pair : Registered where
  group := ⟨[⟨"1", 5432, .primary, some 1⟩, ⟨"2", 5432, .secondary, some 2⟩], false, by decide⟩
  next := 3
  roles := by decide
  ids := by simp
  distinctIds := by decide
  onePrimary := by decide

/-- The other way round. -/
def switched : Wanted where
  group := ⟨[⟨"1", 5432, .secondary, none⟩, ⟨"2", 5432, .primary, none⟩], false, by decide⟩
  roles := by decide
  ids := by decide
  onePrimary := by decide

theorem transition_keeps_addresses_distinct_in_switchover :
    ∃ group, switched.group.transition pair.group inOrder inOrder =
        some (group, [⟨"1", 5432, .demoted, some 1⟩, ⟨"1", 5432, .secondary, some 2⟩,
          ⟨"2", 5432, .primary, some 1⟩]) ∧
      ∃ t, exec updateNode [⟨"1", 5432, .demoted, some 1⟩, ⟨"1", 5432, .secondary, some 2⟩]
          pair.table = some t ∧
        (t.rows.map Row.address).Nodup ∧ (∀ r ∈ t.rows, r.primary → r.nodeid = 1) ∧
        ∃ r ∈ t.rows, r.primary := by
  obtain ⟨group, yields, htransition, hexecuted⟩ :=
    transition_keeps_addresses_distinct pair switched inOrder inOrder (by decide +kernel)
  have hyields : (switched.group.transition pair.group inOrder inOrder).map Prod.snd =
      some [⟨"1", 5432, .demoted, some 1⟩, ⟨"1", 5432, .secondary, some 2⟩,
        ⟨"2", 5432, .primary, some 1⟩] := by decide +kernel
  rw [htransition] at hyields
  obtain rfl := Option.some.inj hyields
  obtain ⟨t, ht, hdistinct, hid, hprimary⟩ := hexecuted
    [⟨"1", 5432, .demoted, some 1⟩, ⟨"1", 5432, .secondary, some 2⟩] ⟨_, rfl⟩
  exact ⟨group, htransition, t, ht, hdistinct, hid, hprimary (by decide)⟩

end Citus

end Metatroni
