import Mathlib.Data.Finset.Basic
import Metatroni.Lib.Runs

/-!
# The leader lock in etcd

The lock is a key with the name of its holder, attached to a lease of that
holder. Etcd executes transactions atomically and deletes the key when its lease
expires. A node keeps the id of its lease and renews it; if it has read that the
key is attached to the lease it still has, it does not write the key again.

## Implementation notes

Every request is a step. Its answer may be lost, and then the call repeats the
request or gives up; what a request does it has done by then. The calls of one
node come one after the other, those of different nodes in any order. The result
of a call that needs no further request is part of the step of its last one.

A node reads what the store holds at that moment. The watch cache, which may lag
behind the store, is not part of the model.
-/

namespace Metatroni

namespace Etcd3

open Runs

variable {ν : Type} [DecidableEq ν]

/-- The leader key. -/
structure Key (ν : Type) where
  value : ν
  lease : Option ℕ
  deriving DecidableEq

/-- What follows `_do_refresh_lease`. -/
inductive Next (ν : Type)
  | done
  /-- The write of `_do_attempt_to_acquire_leader`, the second one if the lease had
  disappeared. -/
  | acquire (again : Bool)
  | update (leader : Key ν)
  deriving DecidableEq

/-- The request that a call is about to make. -/
inductive Call (ν : Type)
  /-- `lease_keepalive`, or `lease_grant` without a lease. -/
  | refresh (next : Next ν)
  | acquire (again : Bool)
  | update (leader : Key ν)
  | delete
  deriving DecidableEq

/-- A node. -/
structure Node (ν : Type) where
  /-- `_lease`. -/
  lease : Option ℕ
  /-- What the node has read of the leader key since it last deleted it. -/
  readings : List (Key ν)
  call : Option (Call ν)

/-- Etcd and the nodes. -/
structure System (ν : Type) where
  key : Option (Key ν)
  /-- The leases that have not expired. -/
  alive : Finset ℕ
  /-- The number of leases that were ever granted. -/
  granted : ℕ
  /-- The node that a lease was granted to. -/
  owner : ℕ → Option ν
  nodes : ν → Node ν
  /-- The calls of `_update_leader` that have returned `True`, the last one first. -/
  updated : List ν

namespace System

/-- Nothing has happened yet. -/
def init : System ν := ⟨none, ∅, 0, fun _ => none, fun _ => ⟨none, [], none⟩, []⟩

/-- Change one node. -/
def setNode (s : System ν) (name : ν) (node : Node ν) : System ν :=
  { s with nodes := Function.update s.nodes name node }

/-- The call of a node goes on, or ends. -/
def setCall (s : System ν) (name : ν) (call : Option (Call ν)) : System ν :=
  s.setNode name { s.nodes name with call := call }

/-- The lease of a node is replaced. -/
def setLease (s : System ν) (name : ν) (lease : Option ℕ) : System ν :=
  s.setNode name { s.nodes name with lease := lease }

/-- A call of `_update_leader` returns `True`. -/
def succeed (s : System ν) (name : ν) : System ν :=
  { s.setCall name none with updated := name :: s.updated }

/-- The rest of a call after its lease was refreshed. -/
def continueWith (s : System ν) (name : ν) : Next ν → System ν
  | .done => s.setCall name none
  | .acquire again => s.setCall name (some (.acquire again))
  | .update leader =>
      match (s.nodes name).lease with
      | none => s.setCall name none
      | some lease =>
          if leader.lease ≠ some lease then s.setCall name (some (.update leader))
          else s.succeed name

/-- `lease_grant`; without its answer the new lease stays unknown. -/
def leaseGrant (s : System ν) (name : ν) (next : Next ν) (answered : Bool) : System ν :=
  let s' := { s with
    alive := insert s.granted s.alive
    granted := s.granted + 1
    owner := Function.update s.owner s.granted (some name) }
  if answered then (s'.setLease name (some s.granted)).continueWith name next else s'

/-- `lease_keepalive`. -/
def leaseKeepalive (s : System ν) (name : ν) (lease : ℕ) (next : Next ν) (answered : Bool) :
    System ν :=
  if answered then
    if lease ∈ s.alive then s.continueWith name next
    else s.setLease name none
  else s

/-- A put is possible without a lease, or with one that has not expired. -/
def Grants (s : System ν) (lease : Option ℕ) : Prop := ∀ l ∈ lease, l ∈ s.alive

instance (s : System ν) (lease : Option ℕ) : Decidable (s.Grants lease) :=
  inferInstanceAs (Decidable (∀ l ∈ lease, l ∈ s.alive))

/-- The write of `_do_attempt_to_acquire_leader`: only if there is no key. -/
def acquire (s : System ν) (name : ν) (again answered : Bool) : System ν :=
  let lease := (s.nodes name).lease
  match s.key with
  | some _ => if answered then s.setCall name none else s
  | none =>
      if s.Grants lease then
        let s' := { s with key := some ⟨name, lease⟩ }
        if answered then s'.setCall name none else s'
      else if answered then
        -- `LeaseNotFound`; only the first one is caught, and the lease forgotten
        if again then s.setCall name none
        else (s.setLease name none).setCall name (some (.refresh (.acquire true)))
      else s

/-- The transaction of `_update_leader`: put the key if it holds the own name, or
if there is none. -/
def update (s : System ν) (name : ν) (answered : Bool) : System ν :=
  let lease := (s.nodes name).lease
  if ∀ key ∈ s.key, key.value = name then
    if s.Grants lease then
      let s' := { s with key := some ⟨name, lease⟩ }
      if answered then s'.succeed name else s'
    else if answered then s.setCall name none else s
  else if answered then s.setCall name none else s

/-- The transaction of `_delete_leader`. -/
def delete (s : System ν) (name : ν) (answered : Bool) : System ν :=
  let s := s.setNode name { s.nodes name with readings := [] }
  let s := if ∃ key ∈ s.key, key.value = name then { s with key := none } else s
  if answered then s.setCall name none else s

/-- The steps of the nodes and of etcd. -/
inductive Label (ν : Type)
  /-- The leader key is read. -/
  | read (name : ν)
  /-- `refresh_lease`. -/
  | refreshLease (name : ν)
  | attemptToAcquireLeader (name : ν)
  | updateLeader (name : ν) (leader : Key ν)
  | deleteLeader (name : ν)
  /-- A lease that was refreshed recently is not refreshed again. -/
  | skipRefresh (name : ν)
  /-- The next request of a call is executed. -/
  | request (name : ν) (answered : Bool)
  /-- A call fails. -/
  | giveUp (name : ν)
  /-- `set_ttl`, and every other place where the lease is forgotten. -/
  | forgetLease (name : ν)
  /-- Patroni starts anew. -/
  | restart (name : ν)
  | expire (lease : ℕ)

/-- A node starts a call. -/
def start (s : System ν) (name : ν) (call : Call ν) : Option (System ν) :=
  if (s.nodes name).call = none then some (s.setCall name (some call)) else none

/-- The next request of a call. -/
def request (s : System ν) (name : ν) (answered : Bool) : Option (System ν) :=
  match (s.nodes name).call with
  | none => none
  | some (.refresh next) =>
      match (s.nodes name).lease with
      | none => some (s.leaseGrant name next answered)
      | some lease => some (s.leaseKeepalive name lease next answered)
  | some (.acquire again) => some (s.acquire name again answered)
  | some (.update _) => some (s.update name answered)
  | some .delete => some (s.delete name answered)

/-- `_do_refresh_lease` returns at once; `_update_leader` forces it. -/
def skipRefresh (s : System ν) (name : ν) : Option (System ν) :=
  match (s.nodes name).call, (s.nodes name).lease with
  | some (.refresh .done), some _ => some (s.continueWith name .done)
  | some (.refresh (.acquire again)), some _ => some (s.continueWith name (.acquire again))
  | _, _ => none

/-- A lease expires, and the key with it. -/
def expire (s : System ν) (lease : ℕ) : System ν :=
  { s with
    alive := s.alive.erase lease
    key := s.key.filter fun key => key.lease ≠ some lease }

/-- One step. -/
def step (l : Label ν) (s : System ν) : Option (System ν) :=
  match l with
  | .read name =>
      s.key.map fun key =>
        s.setNode name { s.nodes name with readings := key :: (s.nodes name).readings }
  | .refreshLease name => s.start name (.refresh .done)
  | .attemptToAcquireLeader name => s.start name (.refresh (.acquire false))
  | .updateLeader name leader =>
      if leader ∈ (s.nodes name).readings then s.start name (.refresh (.update leader)) else none
  | .deleteLeader name => s.start name .delete
  | .skipRefresh name => s.skipRefresh name
  | .request name answered => s.request name answered
  | .giveUp name => some (s.setCall name none)
  | .forgetLease name =>
      if (s.nodes name).call = none then some (s.setLease name none) else none
  | .restart name => some (s.setNode name ⟨none, [], none⟩)
  | .expire lease => some (s.expire lease)

/-! ## The invariant -/

/-- What a node knows is true: above all, a key that it has read to be attached to
the lease it has is still there while the lease lives. -/
structure NodeSound (s : System ν) (name : ν) (node : Node ν) : Prop where
  owned : ∀ l ∈ node.lease, l < s.granted ∧ s.owner l = some name
  bounded : ∀ r ∈ node.readings, ∀ l ∈ r.lease, l < s.granted
  holds : ∀ r ∈ node.readings, ∀ l ∈ r.lease, node.lease = some l → l ∈ s.alive →
    s.key = some ⟨name, some l⟩
  reading : ∀ leader, node.call = some (.refresh (.update leader)) → leader ∈ node.readings
  leased : ∀ leader, node.call = some (.update leader) → node.lease ≠ none

/-- The key is attached to a lease of its holder, and all nodes are sound. -/
structure Inv (s : System ν) : Prop where
  attached : ∀ key ∈ s.key, ∀ l ∈ key.lease, l < s.granted ∧ s.owner l = some key.value
  nodes : ∀ name, s.NodeSound name (s.nodes name)

omit [DecidableEq ν] in
theorem inv_init : (init : System ν).Inv where
  attached := by simp [init]
  nodes name := ⟨by simp [init], by simp [init], by simp [init], by simp [init], by simp [init]⟩

/-- One node changes. -/
theorem Inv.setNode {s : System ν} (h : s.Inv) {name : ν} {node : Node ν}
    (hnode : s.NodeSound name node) : (s.setNode name node).Inv where
  attached := h.attached
  nodes := by
    intro other
    have hsound : s.NodeSound other ((s.setNode name node).nodes other) := by
      by_cases hother : other = name
      · subst hother
        simpa [System.setNode] using hnode
      · simpa [System.setNode, hother] using h.nodes other
    exact ⟨hsound.owned, hsound.bounded, hsound.holds, hsound.reading, hsound.leased⟩

/-- A call ends, or goes on with another request. -/
theorem Inv.setCall {s : System ν} (h : s.Inv) (name : ν) {call : Option (Call ν)}
    (hreading : ∀ leader, call = some (.refresh (.update leader)) →
      leader ∈ (s.nodes name).readings)
    (hleased : ∀ leader, call = some (.update leader) → (s.nodes name).lease ≠ none) :
    (s.setCall name call).Inv :=
  h.setNode ⟨(h.nodes name).owned, (h.nodes name).bounded, (h.nodes name).holds, hreading, hleased⟩

theorem Inv.endCall {s : System ν} (h : s.Inv) (name : ν) : (s.setCall name none).Inv :=
  h.setCall name (by simp) (by simp)

theorem Inv.succeed {s : System ν} (h : s.Inv) (name : ν) : (s.succeed name).Inv where
  attached := h.attached
  nodes other := by
    have hsound := (h.endCall name).nodes other
    exact ⟨hsound.owned, hsound.bounded, hsound.holds, hsound.reading, hsound.leased⟩

/-- A lease is forgotten by a call that is not past its refreshing. -/
theorem Inv.forgetLease {s : System ν} (h : s.Inv) {name : ν}
    (hcall : ∀ leader, (s.nodes name).call ≠ some (.update leader)) :
    (s.setLease name none).Inv :=
  h.setNode ⟨by simp, (h.nodes name).bounded, by simp, (h.nodes name).reading,
    fun leader hleader => absurd hleader (hcall leader)⟩

omit [DecidableEq ν] in
/-- A node puts its name where no other name is. -/
theorem Inv.put {s : System ν} (h : s.Inv) (name : ν) (hfree : ∀ key ∈ s.key, key.value = name) :
    Inv { s with key := some ⟨name, (s.nodes name).lease⟩ } where
  attached := by
    intro key hkey
    obtain rfl := Option.some.inj hkey
    exact (h.nodes name).owned
  nodes := by
    intro other
    have hsound := h.nodes other
    refine ⟨hsound.owned, hsound.bounded, ?_, hsound.reading, hsound.leased⟩
    intro r hr l hl hlease halive
    obtain rfl : other = name := hfree _ (hsound.holds r hr l hl hlease halive)
    rw [hlease]

omit [DecidableEq ν] in
/-- The key disappears, if nobody may count on it. -/
theorem Inv.drop {s : System ν} (h : s.Inv) {alive : Finset ℕ} (halive : alive ⊆ s.alive)
    {key : Option (Key ν)} (hkey : ∀ k ∈ key, s.key = some k)
    (hholds : ∀ name l, (s.nodes name).readings ≠ [] → (s.nodes name).lease = some l → l ∈ alive →
      s.key = some ⟨name, some l⟩ → key = s.key) :
    Inv { s with alive := alive, key := key } where
  attached k hk := h.attached k (hkey k hk)
  nodes name := by
    have hsound := h.nodes name
    refine ⟨hsound.owned, hsound.bounded, ?_, hsound.reading, hsound.leased⟩
    intro r hr l hl hlease hl'
    have hs := hsound.holds r hr l hl hlease (halive hl')
    exact (hholds name l (List.ne_nil_of_mem hr) hlease hl' hs).trans hs

/-! ## Requests -/

theorem Inv.continueWith {s : System ν} (h : s.Inv) (name : ν) (next : Next ν) :
    (s.continueWith name next).Inv := by
  cases next with
  | done => exact h.endCall name
  | acquire again => exact h.setCall name (by simp) (by simp)
  | update leader =>
      rw [System.continueWith]
      split
      · exact h.endCall name
      · next lease hlease =>
          split
          · exact h.setCall name (by simp) (by simp [hlease])
          · exact h.succeed name

theorem leaseGrant_inv {s : System ν} (h : s.Inv) (name : ν) (next : Next ν) (answered : Bool) :
    (s.leaseGrant name next answered).Inv := by
  have hnew : ∀ l, l < s.granted → l < s.granted + 1 ∧
      Function.update s.owner s.granted (some name) l = s.owner l := fun l hl =>
    ⟨by omega, Function.update_of_ne (Nat.ne_of_lt hl) _ _⟩
  have hgranted : Inv { s with
      alive := insert s.granted s.alive
      granted := s.granted + 1
      owner := Function.update s.owner s.granted (some name) } := by
    constructor
    · intro key hkey l hl
      obtain ⟨hlt, howner⟩ := h.attached key hkey l hl
      exact ⟨(hnew l hlt).1, (hnew l hlt).2.trans howner⟩
    · intro other
      have hsound := h.nodes other
      refine ⟨?_, ?_, ?_, hsound.reading, hsound.leased⟩
      · intro l hl
        obtain ⟨hlt, howner⟩ := hsound.owned l hl
        exact ⟨(hnew l hlt).1, (hnew l hlt).2.trans howner⟩
      · intro r hr l hl
        exact (hnew l (hsound.bounded r hr l hl)).1
      · intro r hr l hl hother halive
        have hlt := hsound.bounded r hr l hl
        apply hsound.holds r hr l hl hother
        exact (Finset.mem_insert.mp halive).resolve_left (Nat.ne_of_lt hlt)
  rw [leaseGrant]
  split
  · apply Inv.continueWith
    -- nothing was read about a lease that is new
    have hsound := hgranted.nodes name
    refine hgranted.setNode ⟨?_, hsound.bounded, ?_, hsound.reading, by simp⟩
    · intro l hl
      obtain rfl := Option.some.inj hl
      exact ⟨Nat.lt_succ_self _, Function.update_self ..⟩
    · intro r hr l hl hl'
      obtain rfl := Option.some.inj hl'
      exact absurd ((h.nodes name).bounded r hr _ hl) (Nat.lt_irrefl _)
  · exact hgranted

theorem leaseKeepalive_inv {s : System ν} (h : s.Inv) (name : ν) (lease : ℕ) {next : Next ν}
    (answered : Bool) (hcall : (s.nodes name).call = some (.refresh next)) :
    (s.leaseKeepalive name lease next answered).Inv := by
  rw [leaseKeepalive]
  split
  · split
    · exact h.continueWith name next
    · exact h.forgetLease (by simp [hcall])
  · exact h

theorem acquire_inv {s : System ν} (h : s.Inv) {name : ν} {again : Bool} (answered : Bool)
    (hcall : (s.nodes name).call = some (.acquire again)) :
    (s.acquire name again answered).Inv := by
  rw [acquire]
  split
  · split
    · exact h.endCall name
    · exact h
  · next hkey =>
      split
      · have hput := h.put name (by simp [hkey])
        dsimp only
        split
        · exact hput.endCall name
        · exact hput
      · split
        · split
          · exact h.endCall name
          · have hforget : (s.setLease name none).Inv := h.forgetLease (by simp [hcall])
            exact hforget.setCall name (by simp) (by simp)
        · exact h

theorem update_inv {s : System ν} (h : s.Inv) (name : ν) (answered : Bool) :
    (s.update name answered).Inv := by
  rw [update]
  dsimp only
  split
  · next hfree =>
      split
      · have hput := h.put name hfree
        split
        · exact hput.succeed name
        · exact hput
      · split
        · exact h.endCall name
        · exact h
  · split
    · exact h.endCall name
    · exact h

/-- A node that deletes the key forgets what it has read of it. -/
theorem delete_inv {s : System ν} (h : s.Inv) (name : ν) (answered : Bool)
    (hcall : (s.nodes name).call = some .delete) : (s.delete name answered).Inv := by
  have hforget : (s.setNode name { s.nodes name with readings := [] }).Inv :=
    h.setNode ⟨(h.nodes name).owned, by simp, by simp, by simp [hcall], by simp [hcall]⟩
  have hdelete : Inv (if ∃ key ∈ s.key, key.value = name then
      { s.setNode name { s.nodes name with readings := [] } with key := none }
      else s.setNode name { s.nodes name with readings := [] }) := by
    split
    · next hown =>
        obtain ⟨key, hkey, hvalue⟩ := hown
        apply hforget.drop (Finset.Subset.refl _) (by simp)
        intro other l hread _ _ hs
        -- the key that somebody else counts on has another name in it
        have hother : other = name := by
          rw [← hvalue]
          exact congrArg Key.value (Option.some.inj (hs.symm.trans hkey))
        simp [System.setNode, hother] at hread
    · exact hforget
  rw [delete]
  dsimp only
  split
  · exact hdelete.endCall name
  · exact hdelete

theorem request_inv {s s' : System ν} {name : ν} {answered : Bool}
    (h : s.request name answered = some s') (hinv : s.Inv) : s'.Inv := by
  rw [request] at h
  split at h
  · cases h
  · next next hcall =>
      split at h
      · obtain rfl := Option.some.inj h
        exact leaseGrant_inv hinv name next answered
      · next lease hlease =>
          obtain rfl := Option.some.inj h
          exact leaseKeepalive_inv hinv name lease answered hcall
  · next again hcall =>
      obtain rfl := Option.some.inj h
      exact acquire_inv hinv answered hcall
  · obtain rfl := Option.some.inj h
    exact update_inv hinv name answered
  · next hcall =>
      obtain rfl := Option.some.inj h
      exact delete_inv hinv name answered hcall

theorem start_inv {s s' : System ν} {name : ν} {call : Call ν} (h : s.start name call = some s')
    (hinv : s.Inv)
    (hreading : ∀ leader, call = .refresh (.update leader) → leader ∈ (s.nodes name).readings)
    (hcall : ∀ leader, call ≠ .update leader) : s'.Inv := by
  rw [start] at h
  split at h
  · obtain rfl := Option.some.inj h
    apply hinv.setCall
    · intro leader hleader
      exact hreading leader (Option.some.inj hleader)
    · intro leader hleader
      exact absurd (Option.some.inj hleader) (hcall leader)
  · cases h

/-- What is read of the own lease is a key with the own name. -/
theorem read_inv {s : System ν} (hinv : s.Inv) (name : ν) {key : Key ν} (hkey : s.key = some key) :
    (s.setNode name { s.nodes name with readings := key :: (s.nodes name).readings }).Inv := by
  have hsound := hinv.nodes name
  apply hinv.setNode
  refine ⟨hsound.owned, ?_, ?_, ?_, hsound.leased⟩
  · intro r hr l hl
    rcases List.mem_cons.mp hr with rfl | hr
    · exact (hinv.attached r hkey l hl).1
    · exact hsound.bounded r hr l hl
  · intro r hr l hl hlease halive
    rcases List.mem_cons.mp hr with rfl | hr
    · have hvalue : some r.value = some name :=
        (hinv.attached r hkey l hl).2.symm.trans (hsound.owned l hlease).2
      rw [hkey, ← Option.some.inj hvalue, ← Option.mem_def.mp hl]
    · exact hsound.holds r hr l hl hlease halive
  · intro leader hleader
    exact List.mem_cons_of_mem key (hsound.reading leader hleader)

omit [DecidableEq ν] in
theorem expire_inv {s : System ν} (hinv : s.Inv) (lease : ℕ) : (s.expire lease).Inv := by
  apply hinv.drop (Finset.erase_subset _ _)
  · intro key hkey
    exact (Option.filter_eq_some_iff.mp hkey).1
  · intro name l _ _ hl hs
    rw [hs, Option.filter_some, if_pos]
    simpa using (Finset.mem_erase.mp hl).1

theorem step_inv {l : Label ν} {s s' : System ν} (h : step l s = some s') (hinv : s.Inv) :
    s'.Inv := by
  cases l with
  | read name =>
      obtain ⟨key, hkey, rfl⟩ := Option.map_eq_some_iff.mp h
      exact read_inv hinv name hkey
  | refreshLease name => exact start_inv h hinv (by simp) (by simp)
  | attemptToAcquireLeader name => exact start_inv h hinv (by simp) (by simp)
  | updateLeader name leader =>
      simp only [step] at h
      split at h
      · next hleader => exact start_inv h hinv (by simpa using hleader) (by simp)
      · cases h
  | deleteLeader name => exact start_inv h hinv (by simp) (by simp)
  | skipRefresh name =>
      simp only [step, skipRefresh] at h
      split at h
      · obtain rfl := Option.some.inj h
        exact hinv.continueWith name .done
      · obtain rfl := Option.some.inj h
        exact hinv.continueWith name _
      · cases h
  | request name answered => exact request_inv h hinv
  | giveUp name =>
      obtain rfl := Option.some.inj h
      exact hinv.endCall name
  | forgetLease name =>
      simp only [step] at h
      split at h
      · next hcall =>
          obtain rfl := Option.some.inj h
          exact hinv.forgetLease (by simp [hcall])
      · cases h
  | restart name =>
      obtain rfl := Option.some.inj h
      exact hinv.setNode ⟨by simp, by simp, by simp, by simp, by simp⟩
  | expire lease =>
      obtain rfl := Option.some.inj h
      exact expire_inv hinv lease

/-- Only a request and an expiring lease touch the key, and only a request ends
an update successfully. -/
theorem step_cases {l : Label ν} {s s' : System ν} (h : step l s = some s') :
    s'.key = s.key ∧ s'.updated = s.updated ∨
      (∃ name answered, s.request name answered = some s') ∨ ∃ lease, s' = s.expire lease := by
  have hstart : ∀ name call, s.start name call = some s' →
      s'.key = s.key ∧ s'.updated = s.updated := by
    intro name call hcall
    rw [start] at hcall
    split at hcall
    · obtain rfl := Option.some.inj hcall
      exact ⟨rfl, rfl⟩
    · cases hcall
  cases l with
  | read name =>
      obtain ⟨key, hkey, rfl⟩ := Option.map_eq_some_iff.mp h
      exact .inl ⟨rfl, rfl⟩
  | refreshLease name => exact .inl (hstart name _ h)
  | attemptToAcquireLeader name => exact .inl (hstart name _ h)
  | updateLeader name leader =>
      simp only [step] at h
      split at h
      · exact .inl (hstart name _ h)
      · cases h
  | deleteLeader name => exact .inl (hstart name _ h)
  | skipRefresh name =>
      simp only [step, skipRefresh] at h
      split at h
      · obtain rfl := Option.some.inj h
        exact .inl ⟨rfl, rfl⟩
      · obtain rfl := Option.some.inj h
        exact .inl ⟨rfl, rfl⟩
      · cases h
  | request name answered => exact .inr (.inl ⟨name, answered, h⟩)
  | giveUp name =>
      obtain rfl := Option.some.inj h
      exact .inl ⟨rfl, rfl⟩
  | forgetLease name =>
      simp only [step] at h
      split at h
      · obtain rfl := Option.some.inj h
        exact .inl ⟨rfl, rfl⟩
      · cases h
  | restart name =>
      obtain rfl := Option.some.inj h
      exact .inl ⟨rfl, rfl⟩
  | expire lease => exact .inr (.inr ⟨lease, (Option.some.inj h).symm⟩)

/-! ## Handing over the key -/

/-- What a step can do to the key: nothing, take it away, or put a name where no
other name is. -/
def KeyStep (s s' : System ν) : Prop :=
  s'.key = s.key ∨ s'.key = none ∨
    ∃ name, (∀ key ∈ s.key, key.value = name) ∧ s'.key = some ⟨name, (s.nodes name).lease⟩

@[simp] theorem key_continueWith (s : System ν) (name : ν) (next : Next ν) :
    (s.continueWith name next).key = s.key := by
  cases next with
  | done => rfl
  | acquire again => rfl
  | update leader =>
      rw [continueWith]
      split
      · rfl
      · split <;> rfl

theorem request_keyStep {s s' : System ν} {name : ν} {answered : Bool}
    (h : s.request name answered = some s') : s.KeyStep s' := by
  rw [request] at h
  split at h
  · cases h
  · split at h
    · obtain rfl := Option.some.inj h
      left
      simp only [leaseGrant]
      split
      · exact key_continueWith _ name _
      · rfl
    · obtain rfl := Option.some.inj h
      left
      simp only [leaseKeepalive]
      split
      · split
        · exact key_continueWith _ name _
        · rfl
      · rfl
  · obtain rfl := Option.some.inj h
    rw [acquire]
    split
    · split <;> exact .inl rfl
    · next hkey =>
        split
        · exact .inr (.inr ⟨name, by simp [hkey], by dsimp only; split <;> rfl⟩)
        · split
          · split <;> exact .inl rfl
          · exact .inl rfl
  · obtain rfl := Option.some.inj h
    rw [update]
    dsimp only
    split
    · next hfree =>
        split
        · exact .inr (.inr ⟨name, hfree, by split <;> rfl⟩)
        · split <;> exact .inl rfl
    · split <;> exact .inl rfl
  · obtain rfl := Option.some.inj h
    rw [delete]
    dsimp only
    split <;> split <;> first | exact .inr (.inl rfl) | exact .inl rfl

theorem step_keyStep {l : Label ν} {s s' : System ν} (h : step l s = some s') : s.KeyStep s' := by
  rcases step_cases h with hlocal | ⟨name, answered, hrequest⟩ | ⟨lease, rfl⟩
  · exact .inl hlocal.1
  · exact request_keyStep hrequest
  · cases hkey : s.key with
    | none => exact .inr (.inl (by simp [expire, hkey]))
    | some key =>
        by_cases hlease : key.lease = some lease
        · exact .inr (.inl (by simp [expire, hkey, hlease]))
        · exact .inl (by simp [expire, hkey, hlease])

omit [DecidableEq ν] in
theorem KeyStep.value_eq {s s' : System ν} (h : s.KeyStep s') {key key' : Key ν}
    (hkey : s.key = some key) (hkey' : s'.key = some key') : key'.value = key.value := by
  rcases h with hsame | hnone | ⟨name, hfree, hput⟩
  · rw [hsame, hkey] at hkey'
    rw [Option.some.inj hkey']
  · rw [hnone] at hkey'
    cases hkey'
  · rw [hput] at hkey'
    rw [← Option.some.inj hkey']
    exact (hfree key hkey).symm

/-! ## Successful updates -/

/-- The caller has the key, attached to the lease it has. -/
def HoldsKey (s : System ν) (name : ν) : Prop :=
  ∃ lease, s.key = some ⟨name, some lease⟩ ∧ (s.nodes name).lease = some lease

/-- A call that ends after the refresh has read about the lease that it has. -/
theorem continueWith_updated {s : System ν} {name : ν} {next : Next ν}
    (hreading : ∀ leader, next = .update leader → ∀ lease, leader.lease = some lease →
      (s.nodes name).lease = some lease → s.key = some ⟨name, some lease⟩) :
    (s.continueWith name next).updated = s.updated ∨
      (s.continueWith name next).updated = name :: s.updated ∧
        (s.continueWith name next).HoldsKey name := by
  cases next with
  | done => exact .inl rfl
  | acquire again => exact .inl rfl
  | update leader =>
      rw [continueWith]
      split
      · exact .inl rfl
      · next lease hlease =>
          split
          · exact .inl rfl
          · next hleader =>
              rw [not_not] at hleader
              refine .inr ⟨rfl, lease, hreading leader rfl lease hleader hlease, ?_⟩
              simpa [succeed, setCall, setNode] using hlease

/-- A lease that was granted just now is not one that the node has read about. -/
theorem leaseGrant_updated {s : System ν} {name : ν} {next : Next ν} {answered : Bool}
    (hinv : s.Inv) (hcall : (s.nodes name).call = some (.refresh next)) :
    (s.leaseGrant name next answered).updated = s.updated ∨
      (s.leaseGrant name next answered).updated = name :: s.updated ∧
        (s.leaseGrant name next answered).HoldsKey name := by
  have hsound := hinv.nodes name
  simp only [leaseGrant]
  split
  · apply continueWith_updated
    rintro leader rfl lease hleader hlease
    obtain rfl : s.granted = lease := by simpa [setLease, setNode] using hlease
    have hlt := hsound.bounded leader (hsound.reading leader hcall) _ hleader
    exact absurd hlt (Nat.lt_irrefl _)
  · exact .inl rfl

/-- While the lease lives, the key that the node has read to be attached to it is there. -/
theorem leaseKeepalive_updated {s : System ν} {name : ν} {lease : ℕ} {next : Next ν}
    {answered : Bool} (hinv : s.Inv) (hcall : (s.nodes name).call = some (.refresh next))
    (hlease : (s.nodes name).lease = some lease) :
    (s.leaseKeepalive name lease next answered).updated = s.updated ∨
      (s.leaseKeepalive name lease next answered).updated = name :: s.updated ∧
        (s.leaseKeepalive name lease next answered).HoldsKey name := by
  have hsound := hinv.nodes name
  rw [leaseKeepalive]
  split
  · split
    · next halive =>
        apply continueWith_updated
        rintro leader rfl lease' hleader hlease'
        obtain rfl := Option.some.inj (hlease.symm.trans hlease')
        exact hsound.holds leader (hsound.reading leader hcall) lease hleader hlease halive
    · exact .inl rfl
  · exact .inl rfl

/-- The key is written with the lease that the node has. -/
theorem update_updated {s : System ν} {name : ν} {leader : Key ν} {answered : Bool}
    (hinv : s.Inv) (hcall : (s.nodes name).call = some (.update leader)) :
    (s.update name answered).updated = s.updated ∨
      (s.update name answered).updated = name :: s.updated ∧
        (s.update name answered).HoldsKey name := by
  rw [update]
  dsimp only
  split
  · split
    · split
      · right
        obtain ⟨lease, hlease⟩ :=
          Option.ne_none_iff_exists'.mp ((hinv.nodes name).leased leader hcall)
        exact ⟨rfl, lease, by simp [succeed, setCall, setNode, hlease],
          by simp [succeed, setCall, setNode, hlease]⟩
      · exact .inl rfl
    · split <;> exact .inl rfl
  · split <;> exact .inl rfl

theorem acquire_updated (s : System ν) (name : ν) (again answered : Bool) :
    (s.acquire name again answered).updated = s.updated := by
  rw [acquire]
  split
  · split <;> rfl
  · split
    · dsimp only
      split <;> rfl
    · split
      · split <;> rfl
      · rfl

theorem delete_updated (s : System ν) (name : ν) (answered : Bool) :
    (s.delete name answered).updated = s.updated := by
  rw [delete]
  dsimp only
  split <;> split <;> rfl

theorem request_updated {s s' : System ν} {name : ν} {answered : Bool} (hinv : s.Inv)
    (h : s.request name answered = some s') :
    s'.updated = s.updated ∨ s'.updated = name :: s.updated ∧ s'.HoldsKey name := by
  rw [request] at h
  split at h
  · cases h
  · next next hcall =>
      split at h
      · obtain rfl := Option.some.inj h
        exact leaseGrant_updated hinv hcall
      · next lease hlease =>
          obtain rfl := Option.some.inj h
          exact leaseKeepalive_updated hinv hcall hlease
  · obtain rfl := Option.some.inj h
    exact .inl (s.acquire_updated name _ answered)
  · next leader hcall =>
      obtain rfl := Option.some.inj h
      exact update_updated hinv hcall
  · obtain rfl := Option.some.inj h
    exact .inl (s.delete_updated name answered)

theorem step_updated {l : Label ν} {s s' : System ν} (hinv : s.Inv) (h : step l s = some s') :
    s'.updated = s.updated ∨ ∃ name, s'.updated = name :: s.updated ∧ s'.HoldsKey name := by
  rcases step_cases h with hlocal | ⟨name, answered, hrequest⟩ | ⟨lease, rfl⟩
  · exact .inl hlocal.2
  · exact (request_updated hinv hrequest).imp_right fun hnew => ⟨name, hnew⟩
  · exact .inl rfl

/-- At every step of every run the key keeps its name or disappears, and a call of
`_update_leader` that returns `True` has left the caller with the key, attached
to the lease it has. -/
theorem lease_lock_is_safe {s s' : System ν} {ls : List (Label ν)} {l : Label ν}
    (run : Run step (fun _ _ => True) init ls s) (hstep : step l s = some s') :
    (∀ key ∈ s.key, ∀ key' ∈ s'.key, key'.value = key.value) ∧
      ∀ name, s'.updated = name :: s.updated →
        ∃ lease, s'.key = some ⟨name, some lease⟩ ∧ (s'.nodes name).lease = some lease := by
  have hinv : s.Inv := run.invariant (fun _ _ _ _ => step_inv) inv_init
  constructor
  · intro key hkey key' hkey'
    exact (step_keyStep hstep).value_eq hkey hkey'
  · intro name hname
    rcases step_updated hinv hstep with hsame | ⟨other, hother, hholds⟩
    · rw [hname] at hsame
      simp at hsame
    · rw [hname] at hother
      obtain ⟨rfl, -⟩ := List.cons.inj hother
      exact hholds

/-- A node takes the lock, reads the key, and updates it twice: first with the
lease that the key is attached to, then after that lease has expired. -/
def renewal : List (Label String) :=
  [.attemptToAcquireLeader "a", .request "a" true, .request "a" true, .read "a",
    .updateLeader "a" ⟨"a", some 0⟩, .request "a" true, .expire 0,
    .updateLeader "a" ⟨"a", some 0⟩, .request "a" true, .request "a" true]

theorem lease_lock_is_safe_after_expiry :
    ∃ s s', Run step (fun _ _ => True) init renewal s ∧ step (.request "a" true) s = some s' ∧
      s'.updated = "a" :: s.updated ∧
      ∃ lease, s'.key = some ⟨"a", some lease⟩ ∧ (s'.nodes "a").lease = some lease := by
  obtain ⟨s, hs⟩ : ∃ s, exec step renewal init = some s :=
    Option.isSome_iff_exists.mp (by decide +kernel)
  have run : Run step (fun _ _ => True) init renewal s := run_of_exec hs (guarded_true _ _)
  obtain ⟨s', hs'⟩ : ∃ s', step (.request "a" true) s = some s' := by
    have hlast : ((exec step renewal init).bind (step (.request "a" true))).isSome := by
      decide +kernel
    rw [hs] at hlast
    exact Option.isSome_iff_exists.mp hlast
  have hupdated : s'.updated = "a" :: s.updated := by
    have hend : ((exec step renewal init).map (·.updated) = some ["a"]) ∧
        ((exec step renewal init).bind (step (.request "a" true))).map (·.updated) =
          some ["a", "a"] := by decide +kernel
    rw [hs] at hend
    simp only [Option.map_some, Option.bind_some, hs', Option.some.injEq] at hend
    rw [hend.1, hend.2]
  exact ⟨s, s', run, hs', hupdated, (lease_lock_is_safe run hs').2 "a" hupdated⟩

end System

end Etcd3

end Metatroni
