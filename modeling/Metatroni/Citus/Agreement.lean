import Metatroni.Citus.Transition

/-!
# The cache of `pg_dist_node`

After an `after_promote` task has been executed, `process_tasks` puts its group
into the cache. The group agrees with the table exactly if the old primary did
not have to be forgotten.
-/

namespace Metatroni

namespace Citus

open Runs

/-- `as_tuple` with the id of the node. -/
def PgDistNode.asTuple (n : PgDistNode) : String × ℕ × Role × Option ℕ :=
  (n.host, n.port, n.role, n.nodeid)

/-- A row as a tuple. -/
def Row.asTuple (r : Row) : String × ℕ × Role × Option ℕ :=
  (r.nodename, r.nodeport, if r.primary then .primary else .secondary, some r.nodeid)

/-- The group as it is put into the cache: a node that was added has the id that
`citus_add_node` has returned. -/
def cached (group : PgDistGroup) (t : Table) : Multiset PgDistNode :=
  (group.nodes : Multiset PgDistNode).map (PgDistNode.withId t.returned)

/-- The old primary is a secondary of the new group, the new primary was not registered, and
no registered node has gone away whose row could be used. -/
def Unplaceable (old : Registered) (new : Wanted) : Prop :=
  ∃ op ∈ old.group.primary, ∃ np ∈ new.group.primary,
    op.address ≠ np.address ∧ ¬ old.group.Has np ∧ new.group.Has op ∧
      ∀ n ∈ old.group.nodes, n.address ≠ op.address → new.group.Has n

theorem only_eq_nil {g h : PgDistGroup} {p : PgDistNode} :
    g.only h p = [] ↔ ∀ n ∈ g.nodes, n.address ≠ p.address → h.Has n := by
  rw [PgDistGroup.only, List.filter_eq_nil_iff]
  constructor
  · intro hempty n hn hne
    by_contra hhas
    exact hempty n hn (by simp [hhas, hne])
  · intro hall n hn hfilter
    have hpair : ¬ h.Has n ∧ n.address ≠ p.address := by simpa using hfilter
    exact hpair.1 (hall n hn hpair.2)

/-- Something is forgotten exactly in this situation. -/
theorem forgotten_eq_zero_iff {old : Registered} {new : Wanted}
    (hrole : ∀ np ∈ new.group.primary, np.role = .primary) :
    forgotten old new = 0 ↔ ¬ Unplaceable old new := by
  obtain ⟨np, hnp, -⟩ := exists_primary new.onePrimary
  cases hop : old.group.primary with
  | none =>
      have hzero : forgotten old new = 0 := by
        simp [forgotten, hop, hnp, hrole np hnp]
      simp [hzero, Unplaceable, hop]
  | some op =>
      have hforgotten : forgotten old new = 0 ↔
          (Compared.Forgotten old new op np → ¬ new.group.Has op) := by
        rw [← PgDistGroup.get_eq_none]
        simp only [forgotten, hop, hnp]
        split
        · next h => cases new.group.get op <;> simp [h]
        · next h => simp [h]
      have hunplaceable : Unplaceable old new ↔
          Compared.Forgotten old new op np ∧ new.group.Has op := by
        simp only [Unplaceable, hop, hnp, Option.mem_some_iff, exists_eq_left',
          Compared.Forgotten, only_eq_nil, PgDistGroup.get_eq_none]
        tauto
      rw [hforgotten, hunplaceable]
      tauto

/-- The tuple of the row of a node. -/
theorem asTuple_row {n : PgDistNode} (hrole : n.role = .primary ∨ n.role = .secondary) {id : ℕ}
    (hid : n.nodeid = some id) : n.row.asTuple = n.asTuple := by
  rcases hrole with hr | hr <;>
    simp [PgDistNode.row, Row.asTuple, PgDistNode.asTuple, PgDistNode.nodename,
      PgDistNode.isPrimary, hr, hid]

/-- After an `after_promote` task the rows are those of the cached group, if and only if the
old primary could be placed. -/
theorem cache_agrees_iff (old : Registered) (new : Wanted) (popGone popAdded : PopOrder)
    (hrole : ∀ np ∈ new.group.primary, np.role = .primary) :
    ∃ group yields t, new.group.transition old.group popGone popAdded = some (group, yields) ∧
      exec updateNode yields old.table = some t ∧
      (t.rows.map Row.asTuple = (cached group t).map PgDistNode.asTuple ↔
        ¬ Unplaceable old new) := by
  obtain ⟨np, hnp, -⟩ := exists_primary new.onePrimary
  have hnprole : np.role = .primary := hrole np hnp
  have hold : ∀ n ∈ old.group.nodes, n.host ∈ hostsOf old new := fun n => mem_hostsOf_old
  obtain ⟨group, yields, t, nodes, htransition, hrun, hmirrors, hgroup, hroles⟩ :=
    transition_executes hold (fun n => mem_hostsOf_new) hnp (.inr (by simp [hnprole]))
      popGone popAdded
  refine ⟨group, yields, t, htransition, hrun.exec_eq, ?_⟩
  have hrows : t.rows.map Row.asTuple = nodes.map PgDistNode.asTuple := by
    rw [hmirrors.rows, Multiset.map_map]
    apply Multiset.map_congr rfl
    intro n hn
    obtain ⟨hremoved, -, id, -, hid⟩ := hmirrors.placed n hn
    apply asTuple_row _ hid
    by_cases hprimary : n.isPrimary
    · exact .inl ((hroles n hn hprimary).trans hnprole)
    · exact .inr (role_eq_secondary hremoved hprimary)
  rw [← forgotten_eq_zero_iff hrole, hrows, cached, hgroup, Multiset.map_add]
  constructor
  · intro hsame
    rw [left_eq_add] at hsame
    exact Multiset.map_eq_zero.mp hsame
  · intro hzero
    simp [hzero]

/-- The primary of `pair` and a node that is to be promoted. -/
def promotedNew : Wanted where
  group := ⟨[⟨"1", 5432, .secondary, none⟩, ⟨"3", 5432, .primary, none⟩], false, by decide⟩
  roles := by decide
  ids := by decide
  onePrimary := by decide

/-- A primary alone. -/
def alone : Registered where
  group := ⟨[⟨"1", 5432, .primary, some 1⟩], false, by decide⟩
  next := 2
  roles := by decide
  ids := by simp
  distinctIds := by decide
  onePrimary := by decide

theorem cache_agrees_iff_in_switchover :
    ∃ group yields t, switched.group.transition pair.group inOrder inOrder = some (group, yields) ∧
      exec updateNode yields pair.table = some t ∧
      t.rows.map Row.asTuple = (cached group t).map PgDistNode.asTuple := by
  obtain ⟨group, yields, t, htransition, ht, hiff⟩ :=
    cache_agrees_iff pair switched inOrder inOrder (by decide)
  refine ⟨group, yields, t, htransition, ht, hiff.mpr ?_⟩
  rintro ⟨op, hop, np, hnp, -, hhas, -⟩
  have hnp' : np = ⟨"2", 5432, .primary, none⟩ := (Option.some.inj hnp).symm
  rw [hnp'] at hhas
  exact hhas (by decide)

/-- The only registered node has become the secondary of one that was not registered: it
stays in the cached group, and has no row. An identical task would change nothing, because
the cache has the hosts, ports and roles that it wants. -/
theorem old_primary_is_forgotten :
    ∃ group yields t, promotedNew.group.transition alone.group inOrder inOrder =
        some (group, yields) ∧
      exec updateNode yields alone.table = some t ∧
      t.rows.map Row.asTuple = {("3", 5432, .primary, some 1)} ∧
      (cached group t).map PgDistNode.asTuple =
        {("1", 5432, .secondary, none), ("3", 5432, .primary, some 1)} ∧
      (cached group t).map (fun n => (n.host, n.port, n.role)) =
        (promotedNew.group.nodes : Multiset PgDistNode).map (fun n => (n.host, n.port, n.role)) ∧
      t.rows.map Row.asTuple ≠ (cached group t).map PgDistNode.asTuple := by
  have hresult : (promotedNew.group.transition alone.group inOrder inOrder).map
      (fun result => (result.1.nodes, result.2)) =
      some ([⟨"1", 5432, .secondary, none⟩, ⟨"3", 5432, .primary, some 1⟩],
        [⟨"3", 5432, .primary, some 1⟩]) := by decide +kernel
  obtain ⟨⟨group, yields⟩, htransition, hnodes⟩ := Option.map_eq_some_iff.mp hresult
  obtain ⟨hgroup, rfl⟩ := Prod.mk.inj hnodes
  refine ⟨group, _, ⟨{⟨1, "3", 5432, true⟩}, 2, []⟩, htransition, by decide +kernel, by decide,
    ?_, ?_, ?_⟩
  · rw [cached, show group.nodes = _ from hgroup]
    decide
  · rw [cached, show group.nodes = _ from hgroup]
    decide
  · rw [cached, show group.nodes = _ from hgroup]
    decide

end Citus

end Metatroni
