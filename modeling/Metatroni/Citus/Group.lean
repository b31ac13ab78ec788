import Mathlib.Data.Multiset.Filter
import Mathlib.Data.Multiset.Dedup
import Mathlib.Data.Multiset.Basic

/-!
# Groups of `pg_dist_node` and transitions between them

A worker group is a set of nodes that are compared by host and port.
`transition` compares the wanted group with the registered one, and yields the
rows that have to be updated, added or removed.

## Implementation notes

A node is an object that the group and the yielded values share. Here a group is
a list of values and a change of a node replaces it. A yielded node is not
changed any more before it is executed, so it is yielded as it is. The order in
which a set yields its elements is arbitrary, so `transition` gets it as an
argument.
-/

namespace Metatroni

namespace Citus

/-- The role of a node; `removed` is the empty string. -/
inductive Role
  | primary | secondary | demoted | removed
  deriving DecidableEq

/-- Host and port. -/
abbrev Address := String × ℕ

/-- A row of `pg_dist_node`. -/
structure PgDistNode where
  host : String
  port : ℕ
  role : Role
  nodeid : Option ℕ := none
  deriving DecidableEq

namespace PgDistNode

/-- What `__hash__` and `__eq__` look at. -/
def address (n : PgDistNode) : Address := (n.host, n.port)

/-- `is_primary`. -/
def isPrimary (n : PgDistNode) : Bool := n.role = .primary ∨ n.role = .demoted

/-- The `nodename` in the database. -/
def nodename (n : PgDistNode) : String :=
  if n.role = .demoted then n.host ++ "-demoted" else n.host

end PgDistNode

/-- A set of nodes. -/
structure PgDistGroup where
  nodes : List PgDistNode
  failover : Bool
  distinct : (nodes.map PgDistNode.address).Nodup

namespace PgDistGroup

/-- `n in self`. -/
def Has (g : PgDistGroup) (n : PgDistNode) : Prop := n.address ∈ g.nodes.map PgDistNode.address

instance (g : PgDistGroup) (n : PgDistNode) : Decidable (g.Has n) :=
  inferInstanceAs (Decidable (_ ∈ _))

/-- `primary`. -/
def primary (g : PgDistGroup) : Option PgDistNode := g.nodes.find? PgDistNode.isPrimary

/-- `get`. -/
def get (g : PgDistGroup) (n : PgDistNode) : Option PgDistNode :=
  g.nodes.find? fun v => v.address = n.address

/-- Change the nodes, not their addresses. -/
def map (g : PgDistGroup) (f : PgDistNode → PgDistNode) (hf : ∀ n, (f n).address = n.address) :
    PgDistGroup where
  nodes := g.nodes.map f
  failover := g.failover
  distinct := by
    have h : PgDistNode.address ∘ f = PgDistNode.address := funext hf
    rw [List.map_map, h]
    exact g.distinct

/-- `add`, which keeps a node that is there. -/
def add (g : PgDistGroup) (n : PgDistNode) : PgDistGroup :=
  if h : g.Has n then g
  else ⟨n :: g.nodes, g.failover, List.nodup_cons.mpr ⟨h, g.distinct⟩⟩

/-- A node of the group is changed. -/
def change (g : PgDistGroup) (n : PgDistNode) : PgDistGroup :=
  g.map (fun v => if v.address = n.address then n else v) fun v => by
    split
    · next h => exact h.symm
    · rfl

/-- `discard`. -/
def discard (g : PgDistGroup) (n : PgDistNode) : PgDistGroup where
  nodes := g.nodes.filter fun v => v.address ≠ n.address
  failover := g.failover
  distinct := (List.filter_sublist.map _).nodup g.distinct

end PgDistGroup

/-! ## `transition` -/

/-- The orders in which sets yield their elements. -/
structure PopOrder where
  order : List PgDistNode → List PgDistNode
  perm : ∀ nodes, (order nodes).Perm nodes

/-- The local variables of `transition`, and what it has yielded. -/
structure Work where
  self : PgDistGroup
  old : PgDistGroup
  gone : List PgDistNode
  added : List PgDistNode
  yields : List PgDistNode

namespace Work

/-- Yield a node. -/
def yield (w : Work) (n : PgDistNode) : Work := { w with yields := w.yields ++ [n] }

/-- Change a node of the group and yield it. -/
def yieldChanged (w : Work) (n : PgDistNode) : Work := { w with self := w.self.change n }.yield n

/-- `self.failover = True`. -/
def setFailover (w : Work) : Work := { w with self := { w.self with failover := true } }

/-- The primary is the same. -/
def samePrimary (w : Work) (oldPrimary newPrimary : PgDistNode) : Work :=
  let newPrimary := { newPrimary with nodeid := oldPrimary.nodeid }
  if oldPrimary.role ≠ newPrimary.role then w.setFailover.yieldChanged newPrimary
  else { w with self := w.self.change newPrimary }

/-- The primary record is changed to the demoted one before its address is put into
another row. -/
def demoteOldPrimary (w : Work) (oldPrimary : PgDistNode) : Work :=
  let demoted := { oldPrimary with role := .demoted }
  if oldPrimary.role = .primary then { w with old := w.old.change demoted }.yield demoted else w

section DemoteOldPrimary

variable (w : Work) (oldPrimary : PgDistNode)

@[simp]
theorem self_demoteOldPrimary : (w.demoteOldPrimary oldPrimary).self = w.self := by
  rw [demoteOldPrimary]
  split <;> rfl

@[simp]
theorem gone_demoteOldPrimary : (w.demoteOldPrimary oldPrimary).gone = w.gone := by
  rw [demoteOldPrimary]
  split <;> rfl

@[simp]
theorem added_demoteOldPrimary : (w.demoteOldPrimary oldPrimary).added = w.added := by
  rw [demoteOldPrimary]
  split <;> rfl

end DemoteOldPrimary

/-- The new primary was registered as a secondary before failover. -/
def usePromotedRow (w : Work) (oldPrimary newPrimaryOldNode : PgDistNode) : Work :=
  match w.self.get oldPrimary, w.added with
  | none, newNode :: added =>
      -- the row of the promoted secondary is used to add the new secondary
      let w := { w with added := added }.yieldChanged
        { newNode with nodeid := newPrimaryOldNode.nodeid }
      { w with old := w.old.change { oldPrimary with role := .secondary } }
  | oldPrimaryNewNode, _ =>
      let w := w.demoteOldPrimary oldPrimary
      -- the old primary is put instead of the promoted secondary, if need be as a new node
      let node := oldPrimaryNewNode.getD
        ⟨oldPrimary.host, oldPrimary.port, newPrimaryOldNode.role, none⟩
      { w with self := w.self.add node }.yieldChanged
        { node with nodeid := newPrimaryOldNode.nodeid }

/-- The new primary was never registered, and there are secondaries that have gone away. -/
def useGoneRow (w : Work) (oldPrimary : PgDistNode) : Work :=
  match w.gone with
  | [] => w
  | gone :: rest =>
      let oldPrimaryNewNode :=
        match w.self.get oldPrimary with
        | some node => some node
        | none =>
            if oldPrimary.role = .demoted ∧ w.added.length < w.gone.length then
              some ⟨oldPrimary.host, oldPrimary.port, .secondary, none⟩
            else none
      match oldPrimaryNewNode with
      | none => w
      | some node =>
          { w with self := w.self.add node, gone := rest }.yieldChanged
            { node with nodeid := gone.nodeid }

/-- The primary has changed. -/
def otherPrimary (w : Work) (oldPrimary newPrimary : PgDistNode) : Work :=
  let promoted := { newPrimary with nodeid := oldPrimary.nodeid }
  match w.old.get newPrimary with
  | some newPrimaryOldNode =>
      (w.setFailover.usePromotedRow oldPrimary newPrimaryOldNode).yieldChanged promoted
  | none => (w.setFailover.yieldChanged promoted).useGoneRow oldPrimary

/-- A standby gets its nodeid from the registered ones. -/
def fillNode (old : PgDistGroup) (n : PgDistNode) : PgDistNode :=
  match (old.nodes.filter fun v => !v.isPrimary).find? fun v => v.address = n.address with
  | some v =>
      if n.isPrimary = false ∧ (n.nodeid = none ∨ n.nodeid = some 0) then
        { n with nodeid := v.nodeid }
      else n
  | none => n

theorem address_fillNode (old : PgDistGroup) (n : PgDistNode) :
    (fillNode old n).address = n.address := by
  rw [fillNode]
  split
  · split <;> rfl
  · rfl

/-- Fill nodeid for standbys in the new topology from the old ones. -/
def fill (w : Work) : Work :=
  { w with self := w.self.map (fillNode w.old) (address_fillNode w.old) }

/-- Reuse nodeids of gone standbys to add new standbys. -/
def reuse : List PgDistNode → List PgDistNode → Work → Work
  | g :: gone, a :: added, w => reuse gone added (w.yieldChanged { a with nodeid := g.nodeid })
  | gone, added, w => { w with gone := gone, added := added }

/-- Remove the node if the metadata is in sync, otherwise keep it. -/
def dropGone (w : Work) (g : PgDistNode) : Work :=
  if w.self.failover then { w with self := w.self.add g }
  else w.yield ⟨g.host, g.port, .removed, none⟩

/-- Add the node if the metadata is in sync, otherwise leave it out. -/
def takeAdded (w : Work) (a : PgDistNode) : Work :=
  if w.self.failover then { w with self := w.self.discard a } else w.yield a

/-- The part of `transition` about the primary. -/
def primaries (w : Work) (oldPrimary : Option PgDistNode) (newPrimary : PgDistNode) : Work :=
  match oldPrimary with
  | none => w.yield newPrimary
  | some oldPrimary =>
      if oldPrimary.address = newPrimary.address then w.samePrimary oldPrimary newPrimary
      else w.otherPrimary oldPrimary newPrimary

/-- The part of `transition` about the secondaries. -/
def secondaries (w : Work) : Work :=
  let w := reuse w.gone w.added w.fill
  let w := w.gone.foldl dropGone w
  w.added.foldl takeAdded w

end Work

namespace PgDistGroup

/-- `gone_nodes`. -/
def gone (self old : PgDistGroup) : List PgDistNode :=
  old.nodes.filter fun v => ¬ self.Has v ∧ ∀ p ∈ old.primary, v.address ≠ p.address

/-- `added_nodes`. -/
def added (self old : PgDistGroup) (newPrimary : PgDistNode) : List PgDistNode :=
  self.nodes.filter fun v => ¬ old.Has v ∧ v.address ≠ newPrimary.address

/-- The local variables at the beginning of `transition`. -/
def work (self old : PgDistGroup) (popGone popAdded : PopOrder) (newPrimary : PgDistNode) :
    Work where
  self := { self with failover := old.failover }
  old := old
  gone := popGone.order (self.gone old)
  added := popAdded.order (self.added old newPrimary)
  yields := []

/-- `transition`: the group as it is changed, and the yielded nodes. -/
def transition (self old : PgDistGroup) (popGone popAdded : PopOrder) :
    Option (PgDistGroup × List PgDistNode) :=
  match self.primary with
  | none => none
  | some newPrimary =>
      let w := self.work old popGone popAdded newPrimary
      let w := (w.primaries old.primary newPrimary).secondaries
      some (w.self, w.yields)

end PgDistGroup

/-! ## `update_node` -/

/-- A row in the database. -/
structure Row where
  nodeid : ℕ
  nodename : String
  nodeport : ℕ
  /-- The `noderole` is that of a primary. -/
  primary : Bool
  deriving DecidableEq

/-- The columns with the constraint `UNIQUE`. -/
def Row.address (r : Row) : Address := (r.nodename, r.nodeport)

/-- The rows of a group, the next value of the sequence of node ids, and the ids that
`citus_add_node` has returned for nodes. -/
structure Table where
  rows : Multiset Row
  next : ℕ
  returned : List (Address × ℕ)
  deriving DecidableEq

namespace Table

/-- `citus_remove_node`. -/
def remove (t : Table) (address : Address) : Option Table :=
  if address ∈ t.rows.map Row.address then
    some { t with rows := t.rows.filter fun r => r.address ≠ address }
  else none

/-- `citus_update_node`, which leaves the role alone. -/
def update (t : Table) (nodeid : ℕ) (address : Address) : Option Table :=
  if nodeid ∈ t.rows.map Row.nodeid then
    some { t with
      rows := t.rows.map fun r =>
        if r.nodeid = nodeid then { r with nodename := address.1, nodeport := address.2 } else r }
  else none

/-- `citus_add_node`. -/
def add (t : Table) (address : Address) (primary : Bool) : Table where
  rows := ⟨t.next, address.1, address.2, primary⟩ ::ₘ t.rows
  next := t.next + 1
  returned := (address, t.next) :: t.returned

end Table

/-- `update_node`. -/
def updateNode (n : PgDistNode) (t : Table) : Option Table :=
  match n.role, n.nodeid with
  | .removed, _ => t.remove n.address
  | _, some nodeid => t.update nodeid (n.nodename, n.port)
  | .demoted, none => some t
  | role, none => some (t.add n.address (role = .primary))

end Citus

end Metatroni
