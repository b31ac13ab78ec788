import Mathlib.Data.Int.Basic
import Metatroni.Lib.Runs
import Metatroni.Lib.Versioned

/-!
# The leader lock in Kubernetes

The lock is an object with annotations. A node decides by a copy of the object
in its watch cache, by the resource version and the record that it has
memorised when it loaded the cluster, and on a conflict by the object that it
reads directly; every write carries the resource version that goes with the copy
it was decided by.

## Implementation notes

The watch cache of a node may hold any version that the object has had, or
nothing, and changes at any time; it is more than `ObjectCache` can do, and it
covers what a node puts there itself. A request may be executed late, or again
after its answer was lost, as long as its resource version fits. Of the other
annotations only those are kept that `update_leader` writes.
-/

namespace Metatroni

namespace Kubernetes

open Runs Versioned

/-! ## Annotations -/

/-- The annotations that make up the leader record. -/
structure Record where
  leader : Option String
  ttl : Option String
  renewTime : Option String
  acquireTime : Option String
  transitions : Option String
  deriving DecidableEq

/-- The empty record. -/
def Record.empty : Record := ⟨none, none, none, none, none⟩

/-- The other annotations of the leader object. -/
structure Extra where
  optime : Option String
  slots : Option String
  retainSlots : Option String
  failsafe : Option String
  deriving DecidableEq

/-- The annotations of the leader object. -/
structure Kind where
  record : Record
  extra : Extra
  deriving DecidableEq

/-- The other annotations of a request: not mentioned, set, or set to `None`. -/
structure ExtraPatch where
  optime : Option (Option String)
  slots : Option (Option String)
  retainSlots : Option (Option String)
  failsafe : Option (Option String)
  deriving DecidableEq

/-- The annotations of a request. It always mentions the whole record. -/
structure Annotations where
  record : Record
  extra : ExtraPatch
  deriving DecidableEq

namespace Annotations

/-- The object that a request creates; annotations that are `None` are skipped. -/
def create (annotations : Annotations) : Kind where
  record := annotations.record
  extra :=
    { optime := annotations.extra.optime.join
      slots := annotations.extra.slots.join
      retainSlots := annotations.extra.retainSlots.join
      failsafe := annotations.extra.failsafe.join }

/-- The object that a request makes of another one. -/
def patch (annotations : Annotations) (kind : Kind) : Kind where
  record := annotations.record
  extra :=
    { optime := annotations.extra.optime.getD kind.extra.optime
      slots := annotations.extra.slots.getD kind.extra.slots
      retainSlots := annotations.extra.retainSlots.getD kind.extra.retainSlots
      failsafe := annotations.extra.failsafe.getD kind.extra.failsafe }

/-- `all(kind_annotations.get(k) == v for k, v in annotations.items())`. -/
def Match (annotations : Annotations) (kind : Kind) : Prop :=
  kind.record = annotations.record ∧
    (∀ v ∈ annotations.extra.optime, kind.extra.optime = v) ∧
    (∀ v ∈ annotations.extra.slots, kind.extra.slots = v) ∧
    (∀ v ∈ annotations.extra.retainSlots, kind.extra.retainSlots = v) ∧
    (∀ v ∈ annotations.extra.failsafe, kind.extra.failsafe = v)

instance (annotations : Annotations) (kind : Kind) : Decidable (annotations.Match kind) :=
  inferInstanceAs (Decidable (_ ∧ _ ∧ _ ∧ _ ∧ _))

end Annotations

/-- `value or default` for an annotation. -/
def orElse (value : Option String) (default : String) : String :=
  match value with
  | none => default
  | some text => if text = "" then default else text

/-- The digits of `int`, with single underscores between them. -/
def parseDigits : Bool → ℕ → List Char → Option ℕ
  | true, n, [] => some n
  | false, _, [] => none
  | afterDigit, n, c :: cs =>
      if c.isDigit then parseDigits true (10 * n + (c.toNat - 48)) cs
      else if c = '_' ∧ afterDigit then parseDigits false n cs
      else none

/-- `int`. -/
def parseInt (text : String) : Option ℤ :=
  let blank := text.toList.dropWhile Char.isWhitespace
  match (blank.reverse.dropWhile Char.isWhitespace).reverse with
  | '-' :: cs => (parseDigits false 0 cs).map fun n => -(n : ℤ)
  | '+' :: cs => (parseDigits false 0 cs).map fun n => (n : ℤ)
  | cs => (parseDigits false 0 cs).map fun n => (n : ℤ)

/-- The record that `attempt_to_acquire_leader` writes. -/
def acquireRecord (name now ttl : String) (observed : Record) : Record :=
  if observed = .empty then ⟨some name, some ttl, some now, some now, some "0"⟩
  else
    let transitions := (observed.transitions.bind parseInt).getD 0
    if observed.leader ≠ some name then
      ⟨some name, some ttl, some now, some now, some (toString (transitions + 1))⟩
    else
      ⟨some name, some ttl, some now, some (orElse observed.acquireTime now),
        some (toString transitions)⟩

/-- The record that `update_leader` writes. -/
def updateRecord (name now ttl : String) (observed : Record) : Record :=
  ⟨some name, some ttl, some now, some (orElse observed.acquireTime now),
    some (orElse observed.transitions "0")⟩

/-! ## Nodes and the API server -/

/-- The two calls that write the leader object. -/
inductive Role
  | acquire
  | update
  deriving DecidableEq, Repr

/-- A write of the leader object, `_patch_or_create`. A call is known by the name
of the node and the time it was started. -/
structure Request where
  role : Role
  name : String
  now : String
  annotations : Annotations
  resourceVersion : Option ℕ
  /-- The record that the node saw when it last loaded the cluster. -/
  loaded : Record
  deriving DecidableEq

/-- Where a call waits. -/
inductive Call
  /-- For the answer to its first write. -/
  | first (request : Request)
  /-- For the object, after a conflict. -/
  | conflict (request : Request)
  /-- For the answer to the write with the new resource version. -/
  | second (request : Request)
  deriving DecidableEq

/-- The request that the call is about. -/
def Call.request : Call → Request
  | .first request | .conflict request | .second request => request

/-- What a node knows. -/
structure Node where
  /-- The leader object in the watch cache. -/
  cache : Option (ℕ × Kind)
  /-- `_leader_observed_record`. -/
  leaderObservedRecord : Record
  /-- `_leader_resource_version`. -/
  leaderResourceVersion : Option ℕ
  /-- The record in the cluster that was loaded last. -/
  loaded : Record
  /-- The times at which calls were started. -/
  times : List String
  call : Option Call

/-- A node that has just started. -/
def Node.init (times : List String) : Node := ⟨none, .empty, none, .empty, times, none⟩

/-- A write that the API server has executed, and what was there before. -/
structure Applied where
  request : Request
  before : Option Kind

/-- The end of a call. -/
structure Returned where
  role : Role
  name : String
  now : String
  result : Bool
  deriving DecidableEq

/-- What a write counts on finding: an acquisition the record that was loaded, an
update its own name. -/
def Request.Expects (request : Request) (kind : Kind) : Prop :=
  match request.role with
  | .acquire => kind.record = request.loaded
  | .update => kind.record.leader = some request.name

/-- The version in a request has been seen with what the request counts on, and
the request is signed with the name and the time of its call. -/
structure Request.Sound (store : Store Kind) (request : Request) : Prop where
  seen : ∀ version ∈ request.resourceVersion,
    ∃ kind, (version, kind) ∈ store.history ∧ request.Expects kind
  leader : request.annotations.record.leader = some request.name
  renewTime : request.annotations.record.renewTime = some request.now

theorem Request.Sound.mono {store store' : Store Kind} {request : Request}
    (h : request.Sound store) (hhistory : store.history ⊆ store'.history) :
    request.Sound store' where
  seen version hversion := by
    obtain ⟨kind, hkind, hexpects⟩ := h.seen version hversion
    exact ⟨kind, hhistory hkind, hexpects⟩
  leader := h.leader
  renewTime := h.renewTime

/-- What a node has memorised are versions that have existed. -/
structure Node.Sound (store : Store Kind) (node : Node) : Prop where
  cached : ∀ entry ∈ node.cache, entry ∈ store.history
  observed : node.leaderObservedRecord = node.loaded
  memorised : ∀ version ∈ node.leaderResourceVersion,
    ∃ kind, (version, kind) ∈ store.history ∧ kind.record = node.loaded

theorem Node.Sound.mono {store store' : Store Kind} {node : Node} (h : node.Sound store)
    (hhistory : store.history ⊆ store'.history) : node.Sound store' where
  cached entry hentry := hhistory (h.cached entry hentry)
  observed := h.observed
  memorised version hversion := by
    obtain ⟨kind, hkind, hrecord⟩ := h.memorised version hversion
    exact ⟨kind, hhistory hkind, hrecord⟩

/-- Calls and times do not count. -/
theorem Node.Sound.call {store : Store Kind} {node : Node} (h : node.Sound store)
    (times : List String) (call : Option Call) :
    Node.Sound store { node with times := times, call := call } :=
  ⟨h.cached, h.observed, h.memorised⟩

/-- The API server and the nodes. -/
structure System where
  store : Store Kind
  nodes : String → Node
  /-- The requests on their way to the server. -/
  sent : List Request
  applied : List Applied
  returned : List Returned

namespace System

/-- Nothing has happened yet. -/
def init : System := ⟨.empty, fun _ => .init [], [], [], []⟩

/-- Change one node. -/
def setNode (w : System) (name : String) (node : Node) : System :=
  { w with nodes := Function.update w.nodes name node }

/-- A call ends. -/
def finish (w : System) (request : Request) (result : Bool) : System :=
  { w.setNode request.name { w.nodes request.name with call := none } with
    returned := ⟨request.role, request.name, request.now, result⟩ :: w.returned }

/-- A call goes on to another point. -/
def proceed (w : System) (name : String) (call : Call) : System :=
  w.setNode name { w.nodes name with call := some call }

/-- The watch cache gets some version of the object, or loses it. -/
def watch (w : System) (name : String) (version : Option (ℕ × Kind)) : Option System :=
  if ∀ entry ∈ version, entry ∈ w.store.history then
    some (w.setNode name { w.nodes name with cache := version })
  else none

/-- `_cluster_from_nodes`, as far as the leader race is concerned. -/
def load (w : System) (name : String) : System :=
  let node := w.nodes name
  let leaderRecord := (node.cache.map fun entry => entry.2.record).getD .empty
  w.setNode name
    { node with
      leaderResourceVersion := node.cache.map Prod.fst
      leaderObservedRecord :=
        if (leaderRecord ≠ .empty ∨ node.leaderObservedRecord ≠ .empty) ∧
            leaderRecord ≠ node.leaderObservedRecord then leaderRecord
        else node.leaderObservedRecord
      loaded := leaderRecord }

/-- A call writes for the first time. -/
def send (w : System) (request : Request) : System :=
  let node := w.nodes request.name
  { w.setNode request.name
      { node with times := request.now :: node.times, call := some (.first request) } with
    sent := request :: w.sent }

/-- `attempt_to_acquire_leader` up to its write. -/
def attemptToAcquireLeader (w : System) (name now ttl : String) : Option System :=
  let node := w.nodes name
  if node.call = none ∧ now ∉ node.times then
    -- a fresher resource version, but only if the record didn't change
    let resourceVersion :=
      match node.leaderResourceVersion, node.cache with
      | some version, some (cached, kind) =>
          if cached ≠ version ∧ kind.record = node.leaderObservedRecord then some cached
          else some version
      | version, _ => version
    some (w.send
      { role := .acquire
        name := name
        now := now
        annotations :=
          ⟨acquireRecord name now ttl node.leaderObservedRecord, ⟨none, none, none, none⟩⟩
        resourceVersion := resourceVersion
        loaded := node.loaded })
  else none

/-- `update_leader` up to its write. -/
def updateLeader (w : System) (name now ttl : String) (extra : ExtraPatch) : Option System :=
  let node := w.nodes name
  if node.call = none ∧ now ∉ node.times then
    if ∃ entry ∈ node.cache, entry.2.record.leader ≠ some name then
      some { w with returned := ⟨.update, name, now, false⟩ :: w.returned }
    else
      let observed :=
        match node.cache with
        | some (_, kind) =>
            if kind = ⟨.empty, ⟨none, none, none, none⟩⟩ then node.leaderObservedRecord
            else kind.record
        | none => node.leaderObservedRecord
      some (w.send
        { role := .update
          name := name
          now := now
          annotations := ⟨updateRecord name now ttl observed, extra⟩
          resourceVersion := node.cache.map Prod.fst
          loaded := node.loaded })
  else none

/-- The API server executes a request: it creates an absent object, and patches
one of the given resource version. -/
def serve (w : System) (request : Request) : Option System :=
  if request ∈ w.sent then
    match request.resourceVersion, w.store.current with
    | none, none =>
        some { w with
          store := w.store.put request.annotations.create
          applied := ⟨request, none⟩ :: w.applied }
    | some version, some (current, kind) =>
        if version = current then
          some { w with
            store := w.store.put (request.annotations.patch kind)
            applied := ⟨request, some kind⟩ :: w.applied }
        else none
    | _, _ => none
  else none

/-- What a node learns about its write. -/
inductive Answer
  | ok
  /-- Status 409. -/
  | conflict
  /-- Another error, or the retries have failed. -/
  | failed
  deriving DecidableEq, Repr

/-- A write is answered, maybe after retries. -/
def answer (w : System) (name : String) (answer : Answer) : Option System :=
  match (w.nodes name).call, answer with
  | some (.first request), .ok | some (.second request), .ok =>
      if ∃ e ∈ w.applied, e.request = request then some (w.finish request true) else none
  | some (.first request), .conflict =>
      if request.role = .acquire ∧ request.resourceVersion = none then
        some (w.finish request false)
      else some (w.proceed name (.conflict request))
  | some (.first request), .failed => some (w.finish request false)
  | some (.second request), .conflict | some (.second request), .failed =>
      some (w.finish request false)
  | _, _ => none

/-- The object is read after a conflict, or cannot be read. -/
def read (w : System) (name : String) (version : Option (ℕ × Kind)) (inTime : Bool) :
    Option System :=
  if ∀ entry ∈ version, entry ∈ w.store.history then
    match (w.nodes name).call, version with
    | some (.conflict request), none => some (w.finish request false)
    | some (.conflict request), some (version, kind) =>
        match request.role with
        | .acquire =>
            some (w.finish request
              (decide (some version ≠ request.resourceVersion ∧ request.annotations.Match kind)))
        | .update =>
            if kind.record.leader ≠ some name ∨ some version = request.resourceVersion then
              some (w.finish request false)
            else if request.annotations.Match kind then some (w.finish request true)
            else if inTime then
              let again := { request with resourceVersion := some version }
              some { w.proceed name (.second again) with sent := again :: w.sent }
            else some (w.finish request false)
    | _, _ => none
  else none

/-- The steps of the nodes and of the server. -/
inductive Label
  | watch (name : String) (version : Option (ℕ × Kind))
  | load (name : String)
  | attemptToAcquireLeader (name now ttl : String)
  | updateLeader (name now ttl : String) (extra : ExtraPatch)
  | serve (request : Request)
  | answer (name : String) (answer : Answer)
  | read (name : String) (version : Option (ℕ × Kind)) (inTime : Bool)
  /-- Patroni starts anew. -/
  | restart (name : String)
  /-- Annotations outside the record are changed. -/
  | touch (extra : Extra)
  /-- `delete_leader` takes the leader's name away. -/
  | release
  /-- The object is deleted. -/
  | remove

/-- One step. -/
def step (l : Label) (w : System) : Option System :=
  match l with
  | .watch name version => w.watch name version
  | .load name => some (w.load name)
  | .attemptToAcquireLeader name now ttl => w.attemptToAcquireLeader name now ttl
  | .updateLeader name now ttl extra => w.updateLeader name now ttl extra
  | .serve request => w.serve request
  | .answer name answer => w.answer name answer
  | .read name version inTime => w.read name version inTime
  | .restart name => some (w.setNode name (.init (w.nodes name).times))
  | .touch extra =>
      w.store.current.map fun entry =>
        { w with store := w.store.put { entry.2 with extra := extra } }
  | .release =>
      w.store.current.map fun entry =>
        { w with
          store := w.store.put { entry.2 with record := { entry.2.record with leader := none } } }
  | .remove => some { w with store := w.store.remove }

/-! ## The invariant -/

/-- Some request of a call was executed. -/
def Executed (w : System) (name now : String) : Prop :=
  ∃ e ∈ w.applied, e.request.name = name ∧ e.request.now = now

/-- The lock as a whole. -/
structure Inv (w : System) : Prop where
  nodes : ∀ name, (w.nodes name).Sound w.store
  /-- A call waits for a request of its own. -/
  calls : ∀ name, ∀ call ∈ (w.nodes name).call,
    call.request ∈ w.sent ∧ call.request.name = name
  requests : ∀ r ∈ w.sent, r.Sound w.store ∧ r.now ∈ (w.nodes r.name).times
  /-- One time belongs to one call. -/
  roles : ∀ r ∈ w.sent, ∀ r' ∈ w.sent, r.name = r'.name → r.now = r'.now → r.role = r'.role
  applied : ∀ e ∈ w.applied, e.request ∈ w.sent ∧ ∀ kind ∈ e.before, e.request.Expects kind
  /-- Every record with a name in it comes from a call of that node. -/
  written : ∀ entry ∈ w.store.history, ∀ name, entry.2.record.leader = some name →
    ∃ now, entry.2.record.renewTime = some now ∧ w.Executed name now
  returned : ∀ r ∈ w.returned, r.role = .update → r.result →
    ∃ e ∈ w.applied, e.request.role = .update ∧ e.request.name = r.name ∧ e.request.now = r.now

theorem inv_init : init.Inv where
  nodes name := ⟨by simp [init, Node.init], rfl, by simp [init, Node.init]⟩
  calls := by simp [init, Node.init]
  requests := by simp [init]
  roles := by simp [init]
  applied := by simp [init]
  written := by simp [init, Store.empty]
  returned := by simp [init]

/-- One node changes. -/
theorem Inv.setNode {w : System} (h : w.Inv) {name : String} {node : Node}
    (hsound : node.Sound w.store)
    (hcall : ∀ call ∈ node.call, call.request ∈ w.sent ∧ call.request.name = name)
    (htimes : (w.nodes name).times ⊆ node.times) : (w.setNode name node).Inv where
  nodes := by
    intro other
    by_cases hother : other = name
    · subst hother
      simpa [System.setNode] using hsound
    · simpa [System.setNode, hother] using h.nodes other
  calls := by
    intro other call hmem
    by_cases hother : other = name
    · subst hother
      exact hcall call (by simpa [System.setNode] using hmem)
    · exact h.calls other call (by simpa [System.setNode, hother] using hmem)
  requests := by
    intro r hr
    refine ⟨(h.requests r hr).1, ?_⟩
    by_cases hother : r.name = name
    · subst hother
      simpa [System.setNode] using htimes (h.requests r hr).2
    · simpa [System.setNode, hother] using (h.requests r hr).2
  roles := h.roles
  applied := h.applied
  written := h.written
  returned := h.returned

/-- The object changes; its new record is accounted for. -/
theorem Inv.put {w : System} (h : w.Inv) {kind : Kind}
    (hwritten : ∀ name, kind.record.leader = some name →
      ∃ now, kind.record.renewTime = some now ∧ w.Executed name now) :
    Inv { w with store := w.store.put kind } where
  nodes name := (h.nodes name).mono (w.store.history_subset_put kind)
  calls := h.calls
  requests r hr :=
    ⟨(h.requests r hr).1.mono (w.store.history_subset_put kind), (h.requests r hr).2⟩
  roles := h.roles
  applied := h.applied
  written := by
    intro entry hentry
    rcases Store.mem_history_put.mp hentry with rfl | hentry
    · exact hwritten
    · exact h.written entry hentry
  returned := h.returned

/-- A request is executed. -/
theorem Inv.apply {w : System} (h : w.Inv) {e : Applied} (hsent : e.request ∈ w.sent)
    (hexpects : ∀ kind ∈ e.before, e.request.Expects kind) :
    Inv { w with applied := e :: w.applied } where
  nodes := h.nodes
  calls := h.calls
  requests := h.requests
  roles := h.roles
  applied := by
    intro e' he'
    rcases List.mem_cons.mp he' with rfl | he'
    · exact ⟨hsent, hexpects⟩
    · exact h.applied e' he'
  written := by
    intro entry hentry name hleader
    obtain ⟨now, hnow, e', he', hcall⟩ := h.written entry hentry name hleader
    exact ⟨now, hnow, e', List.mem_cons_of_mem e he', hcall⟩
  returned := by
    intro r hr hrole hresult
    obtain ⟨e', he', hcall⟩ := h.returned r hr hrole hresult
    exact ⟨e', List.mem_cons_of_mem e he', hcall⟩

/-- A request is sent, by a call that is new or has sent one before. -/
theorem Inv.push {w : System} (h : w.Inv) {request : Request} (hsound : request.Sound w.store)
    (htime : request.now ∈ (w.nodes request.name).times)
    (hrole : ∀ r ∈ w.sent, r.name = request.name → r.now = request.now → r.role = request.role) :
    Inv { w with sent := request :: w.sent } where
  nodes := h.nodes
  calls name call hcall :=
    ⟨List.mem_cons_of_mem request (h.calls name call hcall).1, (h.calls name call hcall).2⟩
  requests := by
    intro r hr
    rcases List.mem_cons.mp hr with rfl | hr
    · exact ⟨hsound, htime⟩
    · exact h.requests r hr
  roles := by
    intro r hr r' hr' hname hnow
    rcases List.mem_cons.mp hr with rfl | hold <;> rcases List.mem_cons.mp hr' with rfl | hold'
    · rfl
    · exact (hrole r' hold' hname.symm hnow.symm).symm
    · exact hrole r hold hname hnow
    · exact h.roles r hold r' hold' hname hnow
  applied e he := ⟨List.mem_cons_of_mem request (h.applied e he).1, (h.applied e he).2⟩
  written := h.written
  returned := h.returned

/-- The call of a node ends; if an update reports success, one of its requests was
executed. -/
theorem Inv.finish {w : System} (h : w.Inv) (request : Request) {result : Bool}
    (hresult : request.role = .update → result →
      ∃ e ∈ w.applied, e.request.role = .update ∧ e.request.name = request.name ∧
        e.request.now = request.now) : (w.finish request result).Inv := by
  have hnode : (w.setNode request.name { w.nodes request.name with call := none }).Inv :=
    h.setNode ((h.nodes request.name).call _ none) (by simp) (List.Subset.refl _)
  refine ⟨hnode.nodes, hnode.calls, hnode.requests, hnode.roles, hnode.applied, hnode.written, ?_⟩
  intro r hr
  rcases List.mem_cons.mp hr with rfl | hr
  · exact hresult
  · exact h.returned r hr

/-- The call of a node goes on. -/
theorem Inv.proceed {w : System} (h : w.Inv) {name : String} (call : Call)
    (hsent : call.request ∈ w.sent) (hname : call.request.name = name) :
    (w.proceed name call).Inv := by
  apply h.setNode ((h.nodes name).call _ (some call))
  · intro call' hcall'
    obtain rfl := Option.some.inj hcall'
    exact ⟨hsent, hname⟩
  · exact List.Subset.refl _

/-- A new call sends its first request. -/
theorem Inv.send {w : System} (h : w.Inv) {request : Request}
    (hfresh : request.now ∉ (w.nodes request.name).times) (hsound : request.Sound w.store) :
    (w.send request).Inv := by
  let node := w.nodes request.name
  -- the time is entered and the request sent before the call waits for it
  let entered := w.setNode request.name { node with times := request.now :: node.times }
  have hentered : entered.Inv :=
    h.setNode ((h.nodes request.name).call (request.now :: node.times) node.call)
      (h.calls request.name) (List.subset_cons_self _ _)
  have hpushed : Inv { entered with sent := request :: entered.sent } := by
    apply hentered.push hsound
    · simp [entered, System.setNode]
    · intro r hr hname hnow
      exact absurd (hname ▸ hnow ▸ (h.requests r hr).2) hfresh
  have hcalled := hpushed.proceed (.first request) List.mem_cons_self rfl
  have heq : System.proceed { entered with sent := request :: entered.sent } request.name
      (.first request) = w.send request := by
    simp [System.proceed, System.send, System.setNode, entered, node]
  exact heq ▸ hcalled

/-! ## Steps -/

theorem attemptToAcquireLeader_inv {w w' : System} {name now ttl : String}
    (h : w.attemptToAcquireLeader name now ttl = some w') (hinv : w.Inv) : w'.Inv := by
  rw [attemptToAcquireLeader] at h
  dsimp only at h
  split at h
  · next hcall =>
      obtain rfl := Option.some.inj h
      have hnode := hinv.nodes name
      apply hinv.send hcall.2
      constructor
      · intro version hversion
        dsimp only at hversion
        split at hversion
        · next memorised cached kind hmemorised hcached =>
            split at hversion
            · next hfresh =>
                obtain rfl := Option.some.inj hversion
                exact ⟨kind, hnode.cached _ hcached, hfresh.2.trans hnode.observed⟩
            · obtain rfl := Option.some.inj hversion
              exact hnode.memorised _ hmemorised
        · exact hnode.memorised _ hversion
      · simp only [acquireRecord]
        split
        · rfl
        · split <;> rfl
      · simp only [acquireRecord]
        split
        · rfl
        · split <;> rfl
  · cases h

theorem updateLeader_inv {w w' : System} {name now ttl : String} {extra : ExtraPatch}
    (h : w.updateLeader name now ttl extra = some w') (hinv : w.Inv) : w'.Inv := by
  rw [updateLeader] at h
  dsimp only at h
  split at h
  · next hcall =>
      split at h
      · obtain rfl := Option.some.inj h
        refine ⟨hinv.nodes, hinv.calls, hinv.requests, hinv.roles, hinv.applied, hinv.written, ?_⟩
        intro r hr
        rcases List.mem_cons.mp hr with rfl | hr
        · simp
        · exact hinv.returned r hr
      · next hown =>
          obtain rfl := Option.some.inj h
          apply hinv.send hcall.2
          refine ⟨?_, rfl, rfl⟩
          intro version hversion
          obtain ⟨⟨_, kind⟩, hcached, rfl⟩ := Option.map_eq_some_iff.mp hversion
          refine ⟨kind, (hinv.nodes name).cached _ hcached, ?_⟩
          by_contra hleader
          exact hown ⟨_, hcached, hleader⟩
  · cases h

/-- What the server changes is what the request counted on. -/
theorem serve_inv {w w' : System} {request : Request} (h : w.serve request = some w')
    (hinv : w.Inv) : w'.Inv := by
  rw [serve] at h
  split at h
  · next hsent =>
      have hsound := (hinv.requests request hsent).1
      have hexecuted : ∀ before, Executed { w with applied := ⟨request, before⟩ :: w.applied }
          request.name request.now := fun before => ⟨_, List.mem_cons_self, rfl, rfl⟩
      have hsigned : ∀ name, request.annotations.record.leader = some name →
          name = request.name := fun name hname =>
        Option.some.inj (hname.symm.trans hsound.leader)
      split at h
      · obtain rfl := Option.some.inj h
        apply Inv.put (w := { w with applied := ⟨request, none⟩ :: w.applied })
          (hinv.apply hsent (by simp))
        intro name hname
        rw [hsigned name hname]
        exact ⟨_, hsound.renewTime, hexecuted none⟩
      · next version current kind hversion hcurrent =>
          split at h
          · next heq =>
              obtain rfl := Option.some.inj h
              have hexpects : request.Expects kind := by
                obtain ⟨seen, hseen, hexpects⟩ := hsound.seen version hversion
                rwa [Store.eq_of_version hcurrent (heq ▸ hseen)]
              apply Inv.put (w := { w with applied := ⟨request, some kind⟩ :: w.applied })
                (hinv.apply hsent (by simpa using hexpects))
              intro name hname
              rw [hsigned name hname]
              exact ⟨_, hsound.renewTime, hexecuted (some kind)⟩
          · cases h
      · cases h
  · cases h

/-- A success that is answered was executed. -/
theorem Inv.finish_answered {w : System} (h : w.Inv) {request : Request}
    (happlied : ∃ e ∈ w.applied, e.request = request) : (w.finish request true).Inv := by
  apply h.finish
  intro hrole _
  obtain ⟨e, he, rfl⟩ := happlied
  exact ⟨e, he, hrole, rfl, rfl⟩

theorem Inv.finish_false {w : System} (h : w.Inv) (request : Request) :
    (w.finish request false).Inv :=
  h.finish request (by simp)

theorem answer_inv {w w' : System} {name : String} {reply : Answer}
    (h : w.answer name reply = some w') (hinv : w.Inv) : w'.Inv := by
  unfold answer at h
  split at h
  · split at h
    · next happlied =>
        obtain rfl := Option.some.inj h
        exact hinv.finish_answered happlied
    · cases h
  · split at h
    · next happlied =>
        obtain rfl := Option.some.inj h
        exact hinv.finish_answered happlied
    · cases h
  · next request hcall =>
      split at h
      · obtain rfl := Option.some.inj h
        exact hinv.finish_false request
      · obtain rfl := Option.some.inj h
        exact hinv.proceed (.conflict request) (hinv.calls name _ hcall).1
          (hinv.calls name _ hcall).2
  · obtain rfl := Option.some.inj h
    exact hinv.finish_false _
  · obtain rfl := Option.some.inj h
    exact hinv.finish_false _
  · obtain rfl := Option.some.inj h
    exact hinv.finish_false _
  · cases h

/-- A record that matches a request was written by its call. -/
theorem Inv.executed_of_match {w : System} (h : w.Inv) {request : Request}
    (hsent : request ∈ w.sent) (hrole : request.role = .update) {version : ℕ} {kind : Kind}
    (hkind : (version, kind) ∈ w.store.history) (hmatch : request.annotations.Match kind) :
    ∃ e ∈ w.applied, e.request.role = .update ∧ e.request.name = request.name ∧
      e.request.now = request.now := by
  have hsound := (h.requests request hsent).1
  obtain ⟨now, hnow, e, he, hname, htime⟩ := h.written _ hkind request.name
    (by rw [hmatch.1, hsound.leader])
  have hrequest : e.request.now = request.now := by
    rw [hmatch.1, hsound.renewTime] at hnow
    rw [htime, Option.some.inj hnow]
  have hsame := h.roles _ (h.applied e he).1 _ hsent hname hrequest
  exact ⟨e, he, hsame.trans hrole, hname, hrequest⟩

theorem read_inv {w w' : System} {name : String} {version : Option (ℕ × Kind)} {inTime : Bool}
    (h : w.read name version inTime = some w') (hinv : w.Inv) : w'.Inv := by
  unfold read at h
  split at h
  · next hhistory =>
      split at h
      · obtain rfl := Option.some.inj h
        exact hinv.finish_false _
      · next request version kind hcall =>
          obtain ⟨hsent, hname⟩ := hinv.calls name _ hcall
          dsimp only [Call.request] at hsent hname
          have hkind : (version, kind) ∈ w.store.history := hhistory _ rfl
          split at h
          · next hrole =>
              obtain rfl := Option.some.inj h
              exact hinv.finish request fun hupdate => by simp [hrole] at hupdate
          · next hrole =>
              split at h
              · obtain rfl := Option.some.inj h
                exact hinv.finish_false request
              · next hown =>
                  rw [not_or, not_not] at hown
                  split at h
                  · next hmatch =>
                      obtain rfl := Option.some.inj h
                      exact hinv.finish request fun _ _ =>
                        hinv.executed_of_match hsent hrole hkind hmatch
                  · split at h
                    · obtain rfl := Option.some.inj h
                      let again := { request with resourceVersion := some version }
                      have hagain : again.Sound w.store := by
                        refine ⟨?_, (hinv.requests request hsent).1.leader,
                          (hinv.requests request hsent).1.renewTime⟩
                        intro version' hversion'
                        obtain rfl := Option.some.inj hversion'
                        refine ⟨kind, hkind, ?_⟩
                        simp only [Request.Expects, again, hrole, hname]
                        exact hown.1
                      have hpushed := hinv.push hagain (hinv.requests request hsent).2
                        fun r hr hrname hrnow => hinv.roles r hr request hsent hrname hrnow
                      exact hpushed.proceed (.second again) List.mem_cons_self hname
                    · obtain rfl := Option.some.inj h
                      exact hinv.finish_false request
      · cases h
  · cases h

/-- Loading memorises one version, with its record. -/
theorem load_inv {w : System} (hinv : w.Inv) (name : String) : (w.load name).Inv := by
  have hnode := hinv.nodes name
  apply hinv.setNode
  · refine ⟨hnode.cached, ?_, ?_⟩
    · dsimp only
      split
      · rfl
      · next hsame =>
          by_contra hne
          apply hsame
          refine ⟨?_, Ne.symm hne⟩
          by_contra hempty
          rw [not_or, not_not, not_not] at hempty
          exact hne (hempty.2.trans hempty.1.symm)
    · intro version hversion
      obtain ⟨⟨_, kind⟩, hcached, rfl⟩ := Option.map_eq_some_iff.mp hversion
      exact ⟨kind, hnode.cached _ hcached, by simp [hcached]⟩
  · exact hinv.calls name
  · exact List.Subset.refl _

theorem step_inv {l : Label} {w w' : System} (h : step l w = some w') (hinv : w.Inv) :
    w'.Inv := by
  cases l with
  | watch name version =>
      simp only [step, watch] at h
      split at h
      · next hhistory =>
          obtain rfl := Option.some.inj h
          have hnode := hinv.nodes name
          exact hinv.setNode ⟨hhistory, hnode.observed, hnode.memorised⟩ (hinv.calls name)
            (List.Subset.refl _)
      · cases h
  | load name =>
      obtain rfl := Option.some.inj h
      exact load_inv hinv name
  | attemptToAcquireLeader name now ttl => exact attemptToAcquireLeader_inv h hinv
  | updateLeader name now ttl extra => exact updateLeader_inv h hinv
  | serve request => exact serve_inv h hinv
  | answer name reply => exact answer_inv h hinv
  | read name version inTime => exact read_inv h hinv
  | restart name =>
      obtain rfl := Option.some.inj h
      exact hinv.setNode ⟨by simp [Node.init], rfl, by simp [Node.init]⟩ (by simp [Node.init])
        (List.Subset.refl _)
  | touch extra =>
      obtain ⟨entry, hcurrent, rfl⟩ := Option.map_eq_some_iff.mp h
      exact hinv.put (hinv.written entry (w.store.current_mem entry hcurrent))
  | release =>
      obtain ⟨entry, hcurrent, rfl⟩ := Option.map_eq_some_iff.mp h
      exact hinv.put (by simp)
  | remove =>
      obtain rfl := Option.some.inj h
      exact ⟨fun name => (hinv.nodes name).mono (List.Subset.refl _), hinv.calls,
        fun r hr => ⟨(hinv.requests r hr).1.mono (List.Subset.refl _), (hinv.requests r hr).2⟩,
        hinv.roles, hinv.applied, hinv.written, hinv.returned⟩

/-! ## Runs -/

/-- An acquisition that is executed finds the record that its node saw when it
last loaded the cluster, or no object, and an update that is executed finds the name of its node, or
no object. An update reports success only if one of its requests was executed. -/
theorem endpoint_lock_is_safe {w : System} {ls : List Label}
    (run : Run step (fun _ _ => True) init ls w) :
    (∀ e ∈ w.applied, e.request.role = .acquire →
        ∀ kind ∈ e.before, kind.record = e.request.loaded) ∧
      (∀ e ∈ w.applied, e.request.role = .update →
        e.before = none ∨
          ∃ kind, e.before = some kind ∧ kind.record.leader = some e.request.name) ∧
      ∀ r ∈ w.returned, r.role = .update → r.result →
        ∃ e ∈ w.applied, e.request.role = .update ∧ e.request.name = r.name ∧
          e.request.now = r.now ∧
          (e.before = none ∨ ∃ kind, e.before = some kind ∧ kind.record.leader = some r.name) := by
  have hinv : w.Inv := run.invariant (fun _ _ _ _ => step_inv) inv_init
  have hupdates : ∀ e ∈ w.applied, e.request.role = .update →
      e.before = none ∨
        ∃ kind, e.before = some kind ∧ kind.record.leader = some e.request.name := by
    intro e he hupdate
    cases hbefore : e.before with
    | none => exact .inl rfl
    | some kind =>
        have hexpects := (hinv.applied e he).2 kind hbefore
        rw [Request.Expects, hupdate] at hexpects
        exact .inr ⟨kind, rfl, hexpects⟩
  refine ⟨fun e he hrole kind hkind => ?_, hupdates, fun r hr hrole hresult => ?_⟩
  · have hexpects := (hinv.applied e he).2 kind hkind
    rwa [Request.Expects, hrole] at hexpects
  · obtain ⟨e, he, hupdate, hname, hnow⟩ := hinv.returned r hr hrole hresult
    exact ⟨e, he, hupdate, hname, hnow, hname ▸ hupdates e he hupdate⟩

/-- The record that `a` acquires the lock with. -/
def acquired : Record := ⟨some "a", some "30", some "t1", some "t1", some "0"⟩

/-- Node `a` acquires the lock by creating the object and renews it, after its
first answer was lost and the retry has got a conflict. -/
def renewal : List Label :=
  let keep : ExtraPatch := ⟨none, none, none, none⟩
  let create : Request := ⟨.acquire, "a", "t1", ⟨acquired, keep⟩, none, .empty⟩
  let renewed : Record := { acquired with renewTime := some "t2" }
  let renew : Request := ⟨.update, "a", "t2", ⟨renewed, keep⟩, some 1, acquired⟩
  let kind (record : Record) : Kind := ⟨record, ⟨none, none, none, none⟩⟩
  [.attemptToAcquireLeader "a" "t1" "30", .serve create, .answer "a" .ok,
    .watch "a" (some (1, kind acquired)), .load "a",
    .updateLeader "a" "t2" "30" keep, .serve renew, .answer "a" .conflict,
    .read "a" (some (2, kind renewed)) true]

theorem endpoint_lock_is_safe_in_renewal :
    ∃ w, Run step (fun _ _ => True) init renewal w ∧ ⟨.update, "a", "t2", true⟩ ∈ w.returned ∧
      ∃ e ∈ w.applied, e.request.role = .update ∧ e.request.name = "a" ∧ e.request.now = "t2" ∧
        (e.before = none ∨ ∃ kind, e.before = some kind ∧ kind.record.leader = some "a") := by
  obtain ⟨w, hw⟩ : ∃ w, exec step renewal init = some w :=
    Option.isSome_iff_exists.mp (by decide +kernel)
  have run : Run step (fun _ _ => True) init renewal w := run_of_exec hw (guarded_true _ _)
  have hreturned : ⟨.update, "a", "t2", true⟩ ∈ w.returned := by
    have hend : (exec step renewal init).map
        (fun w => decide (⟨.update, "a", "t2", true⟩ ∈ w.returned)) = some true := by
      decide +kernel
    rw [hw] at hend
    exact of_decide_eq_true (Option.some.inj hend)
  exact ⟨w, run, hreturned, (endpoint_lock_is_safe run).2.2 _ hreturned rfl rfl⟩

end System

end Kubernetes

end Metatroni
