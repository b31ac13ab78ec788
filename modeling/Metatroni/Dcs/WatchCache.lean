import Mathlib.Data.List.AList
import Mathlib.Data.Set.Insert
import Metatroni.Lib.Runs

/-!
# The watch caches of etcd and Kubernetes

`KVCache` and `ObjectCache` hold the last known object for each name. Two
producers change them: the watch delivers what has happened in the store, in the
order of revisions but late, and the successful requests of the node itself are
reflected when their responses arrive.
-/

namespace Metatroni

namespace WatchCache

open Runs

/-! ## `set` and `delete` -/

/-- Objects of a store: each has a name and the revision that has written it. -/
class Object (ν : Type) where
  name : ν → String
  version : ν → ℕ

section Cache

variable {ν : Type} [Object ν]

open Object

/-- `_object_cache`. -/
abbrev Cache (ν : Type) := AList fun _ : String => ν

/-- `set`: the cache, whether the value is newer, and the old value. The value replaces
one of the same revision only if it is told to `overwrite`. -/
def Cache.set (cache : Cache ν) (key : String) (value : ν) (overwrite : Bool) :
    Cache ν × Bool × Option ν :=
  let oldValue := cache.lookup key
  let ret := decide (∀ old ∈ oldValue, version old < version value)
  if ret ∨ overwrite ∧ ∃ old ∈ oldValue, version old = version value then
    (cache.insert key value, ret, oldValue)
  else (cache, ret, oldValue)

/-- `delete`: the cache, whether the object is gone, and the old value. -/
def Cache.delete (cache : Cache ν) (key : String) (revision : ℕ) :
    Cache ν × Bool × Option ν :=
  let oldValue := cache.lookup key
  if ∃ old ∈ oldValue, version old < revision then (cache.erase key, true, oldValue)
  else (cache, oldValue.isNone, oldValue)

/-- What happens to an object in the store. -/
inductive Change (ν : Type)
  | put (value : ν)
  | delete (key : String) (revision : ℕ)
  deriving DecidableEq

/-- The name of the object that is changed. -/
def Change.key : Change ν → String
  | .put value => name value
  | .delete key _ => key

/-- The revision of a change. -/
def Change.revision : Change ν → ℕ
  | .put value => version value
  | .delete _ revision => revision

/-- A change reaches the cache. -/
def Cache.change (cache : Cache ν) (overwrite : Bool) : Change ν → Cache ν
  | .put value => (cache.set (name value) value overwrite).1
  | .delete key revision => (cache.delete key revision).1

/-- Other objects stay as they are. -/
theorem lookup_change_of_ne {cache : Cache ν} {overwrite : Bool} {change : Change ν}
    {key : String} (hkey : key ≠ change.key) :
    (cache.change overwrite change).lookup key = cache.lookup key := by
  cases change with
  | put value =>
      simp only [Cache.change, Cache.set]
      split
      · exact AList.lookup_insert_ne hkey
      · rfl
  | delete key' revision =>
      simp only [Cache.change, Cache.delete]
      split
      · exact AList.lookup_erase_ne hkey
      · rfl

/-- What a value does to its object: it is stored unless a newer one is there. -/
theorem lookup_change_put (cache : Cache ν) (overwrite : Bool) (value : ν) :
    let old := cache.lookup (name value)
    let new := (cache.change overwrite (.put value)).lookup (name value)
    (new = some value ∧ ∀ entry ∈ old, version entry ≤ version value) ∨
      new = old ∧ ∃ entry ∈ old, version value ≤ version entry := by
  simp only [Cache.change, Cache.set, decide_eq_true_eq]
  split
  · next hstored =>
      refine .inl ⟨AList.lookup_insert _, fun entry hentry => ?_⟩
      rcases hstored with hnewer | ⟨-, other, hother, hsame⟩
      · exact (hnewer entry hentry).le
      · obtain rfl := Option.some.inj (hentry.symm.trans hother)
        exact hsame.le
  · next hstored =>
      refine .inr ⟨rfl, ?_⟩
      by_contra hnone
      push Not at hnone
      exact hstored (.inl hnone)

/-- What a deletion does to its object: it is removed unless a newer one is there. -/
theorem lookup_change_delete (cache : Cache ν) (overwrite : Bool) (key : String)
    (revision : ℕ) :
    let old := cache.lookup key
    let new := (cache.change overwrite (.delete key revision)).lookup key
    (new = none ∧ ∀ entry ∈ old, version entry < revision) ∨
      new = old ∧ ∃ entry ∈ old, revision ≤ version entry := by
  simp only [Cache.change, Cache.delete]
  split
  · next hremoved =>
      refine .inl ⟨AList.lookup_erase _ _, fun entry hentry => ?_⟩
      obtain ⟨other, hother, holder⟩ := hremoved
      obtain rfl := Option.some.inj (hentry.symm.trans hother)
      exact holder
  · next hremoved =>
      cases hold : cache.lookup key with
      | none => exact .inl ⟨rfl, by simp⟩
      | some old =>
          rw [hold] at hremoved
          exact .inr ⟨rfl, old, rfl, by simpa using hremoved⟩

end Cache

/-! ## etcd -/

/-- A key in the store and in the cache. -/
structure KeyValue where
  key : String
  value : Option String
  modRevision : ℕ
  deriving DecidableEq

instance : Object KeyValue := ⟨KeyValue.key, KeyValue.modRevision⟩

/-- The keys that `KVCache` knows, and the name of the node as a value. -/
structure EtcdKeys where
  configKey : String
  leaderKey : String
  optimeKey : String
  statusKey : String
  name : String

namespace KVCache

/-- `set`. -/
def set (cache : Cache KeyValue) (value : KeyValue) (overwrite : Bool) :
    Cache KeyValue × Bool × Option KeyValue :=
  cache.set value.key value overwrite

/-- `delete`. -/
def delete (cache : Cache KeyValue) (name : String) (modRevision : ℕ) :
    Cache KeyValue × Bool × Option KeyValue :=
  Cache.delete cache name modRevision

/-- An event of the watch. -/
structure Event where
  isDelete : Bool
  kv : KeyValue

/-- `_process_event`: the cache, and whether the HA loop is woken up. -/
def processEvent (keys : EtcdKeys) (cache : Cache KeyValue) (event : Event) :
    Cache KeyValue × Bool :=
  let kv := event.kv
  let key := kv.key
  let (cache, success, oldValue) :=
    if event.isDelete then delete cache key kv.modRevision else set cache kv true
  let oldValue := oldValue.bind (·.value)
  let newValue := kv.value
  let ofLeader := decide (key = keys.optimeKey ∨ key = keys.statusKey)
  let valueChanged := decide (oldValue ≠ newValue ∧
    (key = keys.leaderKey ∨ ofLeader ∧ newValue ≠ none ∨
      key = keys.configKey ∧ oldValue ≠ none ∧ newValue ≠ none))
  let leader := (cache.lookup keys.leaderKey).bind (·.value)
  (cache, success && valueChanged && (!ofLeader || decide (leader ≠ some keys.name)))

end KVCache

/-- A part of a request. -/
inductive Operation
  | put (fields : KeyValue)
  | deleteRange (key : String) (rangeEnd : Option String)
  deriving DecidableEq

/-- The requests of the node that change the store. -/
inductive Request
  /-- `/kv/txn`; `nested` if on failure another transaction attempts the same. -/
  | txn (success : Operation) (nested : Bool)
  /-- `/kv/put` or `/kv/deleterange`. -/
  | plain (operation : Operation)
  deriving DecidableEq

/-- A response. -/
structure Response where
  revision : ℕ
  succeeded : Bool
  nestedSucceeded : Bool
  deriving DecidableEq

namespace PatroniEtcd3Client

/-- What `call_rpc` takes from a request and its response. -/
def reflected (request : Request) (ret : Response) : Option (Change KeyValue) :=
  let operation :=
    match request with
    | .txn success nested =>
        if ret.succeeded || nested && ret.nestedSucceeded then some success else none
    | .plain operation => some operation
  match operation with
  | some (.put fields) => some (.put { fields with modRevision := ret.revision })
  | some (.deleteRange key none) => some (.delete key ret.revision)
  | some (.deleteRange _ (some _)) | none => none

/-- The end of `call_rpc`. -/
def callRpc (cache : Cache KeyValue) (request : Request) (ret : Response) : Cache KeyValue :=
  match reflected request ret with
  | some (.put value) => (KVCache.set cache value false).1
  | some (.delete key modRevision) => (KVCache.delete cache key modRevision).1
  | none => cache

end PatroniEtcd3Client

/-! ## Kubernetes -/

/-- An object in the store and in the cache. -/
structure K8sObject where
  name : String
  resourceVersion : ℕ
  annotations : List (String × String)
  kind : Option String
  deriving DecidableEq

instance : Object K8sObject := ⟨K8sObject.name, K8sObject.resourceVersion⟩

/-- What `ObjectCache` knows of its `dcs`. -/
structure K8sNames where
  leaderPath : String
  configPath : String
  leaderAnnotation : String
  configAnnotation : String
  /-- The name of the pod, for the cache of endpoints or config maps. -/
  name : Option String

/-- `_annotations_map`, with the default for other objects. -/
def K8sNames.annotation (names : K8sNames) (name : String) : String :=
  if name = names.configPath then names.configAnnotation
  else if name = names.leaderPath then names.leaderAnnotation else ""

/-- The type of an event. -/
inductive EventType
  | added | modified | deleted | other

namespace ObjectCache

/-- `set`. -/
def set (cache : Cache K8sObject) (name : String) (value : K8sObject) :
    Cache K8sObject × Bool × Option K8sObject :=
  cache.set name value false

/-- `delete`. -/
def delete (cache : Cache K8sObject) (name : String) (resourceVersion : ℕ) :
    Cache K8sObject × Bool × Option K8sObject :=
  Cache.delete cache name resourceVersion

/-- The end of `_process_event`: whether the HA loop is woken up. -/
def wakesUp (names : K8sNames) (obj : K8sObject) (success : Bool) (oldValue : Option K8sObject)
    (newValue : Option String) : Bool :=
  let oldValue := oldValue.bind fun old => old.annotations.lookup (names.annotation obj.name)
  let valueChanged := decide (oldValue ≠ newValue ∧
    (obj.name ≠ names.configPath ∨ oldValue ≠ none ∧ newValue ≠ none))
  success && decide (obj.kind ≠ some "Pod") &&
    (valueChanged || decide (obj.name = names.leaderPath ∧ names.name ≠ newValue))

/-- `_process_event`: the cache, and whether the HA loop is woken up. -/
def processEvent (names : K8sNames) (cache : Cache K8sObject) (evType : EventType)
    (obj : K8sObject) : Cache K8sObject × Bool :=
  match evType with
  | .added | .modified =>
      let (cache, success, oldValue) := set cache obj.name obj
      let newValue := obj.annotations.lookup (names.annotation obj.name)
      (cache, wakesUp names obj success oldValue newValue)
  | .deleted =>
      let (cache, success, oldValue) := delete cache obj.name obj.resourceVersion
      (cache, wakesUp names obj success oldValue none)
  | .other => (cache, false)

end ObjectCache

/-! ## Runs -/

/-- A cache with its two producers. -/
structure Producers (ν ρ : Type) [Object ν] where
  /-- What an event of the watch does to the cache. -/
  process : Cache ν → Change ν → Cache ν
  /-- What a request tells about the store when it is answered. -/
  told : ρ → Option (Change ν)
  /-- What the answer to a request does to the cache. -/
  respond : Cache ν → ρ → Cache ν
  overwrite : Bool
  process_eq : ∀ cache change, process cache change = cache.change overwrite change
  respond_eq : ∀ cache request change, told request = some change →
    respond cache request = cache.change false change
  respond_eq_self : ∀ cache request, told request = none → respond cache request = cache

/-- `KVCache`, with the requests of `PatroniEtcd3Client`. -/
def etcd3 (keys : EtcdKeys) : Producers KeyValue (Request × Response) where
  process cache change :=
    match change with
    | .put kv => (KVCache.processEvent keys cache ⟨false, kv⟩).1
    | .delete key revision => (KVCache.processEvent keys cache ⟨true, ⟨key, none, revision⟩⟩).1
  told call := PatroniEtcd3Client.reflected call.1 call.2
  respond cache call := PatroniEtcd3Client.callRpc cache call.1 call.2
  overwrite := true
  process_eq cache change := by
    cases change <;> rfl
  respond_eq cache call change h := by
    rw [PatroniEtcd3Client.callRpc, h]
    cases change <;> rfl
  respond_eq_self cache call h := by
    rw [PatroniEtcd3Client.callRpc, h]

/-- `ObjectCache`; the answer to a request is the object as it was written or read. -/
def kubernetes (names : K8sNames) : Producers K8sObject K8sObject where
  process cache change :=
    match change with
    | .put obj => (ObjectCache.processEvent names cache .modified obj).1
    | .delete key revision =>
        (ObjectCache.processEvent names cache .deleted ⟨key, revision, [], none⟩).1
  told obj := some (.put obj)
  respond cache obj := (ObjectCache.set cache obj.name obj).1
  overwrite := false
  process_eq cache change := by
    cases change <;> rfl
  respond_eq cache obj change h := by
    obtain rfl := Option.some.inj h
    rfl
  respond_eq_self cache obj h := by cases h

variable {ν ρ : Type}

/-- The store, the cache, and what is under way between them. -/
structure System (ν ρ : Type) where
  /-- The revision of the store. -/
  revision : ℕ
  /-- The changes since the cache was built, as the watch delivers them. -/
  history : List (Change ν)
  /-- The number of changes that were delivered. -/
  delivered : ℕ
  /-- Requests that the store has executed and not yet answered. -/
  pending : List ρ
  /-- The deletions that answers have told. -/
  deleted : List (String × ℕ)
  cache : Cache ν
  /-- The revisions that the cache has reflected for each object, latest first. -/
  reflected : String → List ℕ

/-- What `_build_cache` reads. The watch begins with the changes of this revision. -/
structure Snapshot (ν : Type) [Object ν] where
  revision : ℕ
  cache : Cache ν
  last : List (Change ν)
  last_revision : ∀ change ∈ last, change.revision = revision

/-- The deletions among some changes. -/
def deletions (changes : List (Change ν)) : List (String × ℕ) :=
  changes.filterMap fun
    | .put _ => none
    | .delete key revision => some (key, revision)

theorem mem_deletions {changes : List (Change ν)} {d : String × ℕ} :
    d ∈ deletions changes ↔ .delete d.1 d.2 ∈ changes := by
  constructor
  · intro h
    obtain ⟨change, hchange, hd⟩ := List.mem_filterMap.mp h
    cases change with
    | put value => cases hd
    | delete key revision =>
        obtain rfl := Option.some.inj hd
        exact hchange
  · intro h
    exact List.mem_filterMap.mpr ⟨_, h, rfl⟩

variable [Object ν]

open Object

/-- A value that finds its object absent is not older than these deletions of it. -/
def InOrder (cache : Cache ν) (deleted : List (String × ℕ)) : Change ν → Prop
  | .put value => cache.lookup (name value) = none →
      ∀ d ∈ deleted, d.1 = name value → d.2 ≤ version value
  | .delete _ _ => True

instance [DecidableEq ν] (cache : Cache ν) (deleted : List (String × ℕ)) :
    (change : Change ν) → Decidable (InOrder cache deleted change)
  | .put value => inferInstanceAs (Decidable (cache.lookup (name value) = none →
      ∀ d ∈ deleted, d.1 = name value → d.2 ≤ version value))
  | .delete _ _ => inferInstanceAs (Decidable True)

/-- What the cache shows of one object, the revisions it has reflected for it, and the
deletions of it that have reached the cache. -/
structure Shows (entry : Option ν) (reflected : List ℕ) (deleted : Set ℕ) : Prop where
  /-- What is there is the last that was reflected, and newer than all deletions. -/
  present : ∀ value ∈ entry,
    (∀ r ∈ reflected, r ≤ version value) ∧ ∀ d ∈ deleted, d ≤ version value
  /-- What is not there was deleted after all that was reflected. -/
  absent : entry = none → ∀ r ∈ reflected, ∃ d ∈ deleted, r ≤ d
  ordered : reflected.Pairwise (· ≥ ·)

namespace Shows

variable {entry : Option ν} {reflected : List ℕ} {deleted : Set ℕ}

/-- A value is stored. -/
theorem put (h : Shows entry reflected deleted) {value : ν}
    (horder : entry = none → ∀ d ∈ deleted, d ≤ version value)
    (hold : ∀ old ∈ entry, version old ≤ version value) :
    Shows (some value) (version value :: reflected) deleted := by
  have hlast : ∀ r ∈ reflected, r ≤ version value := by
    intro r hr
    cases hentry : entry with
    | none =>
        obtain ⟨d, hd, hle⟩ := h.absent hentry r hr
        exact hle.trans (horder hentry d hd)
    | some old => exact ((h.present old hentry).1 r hr).trans (hold old hentry)
  have hdeleted : ∀ d ∈ deleted, d ≤ version value := by
    intro d hd
    cases hentry : entry with
    | none => exact horder hentry d hd
    | some old => exact ((h.present old hentry).2 d hd).trans (hold old hentry)
  refine ⟨?_, by simp, List.pairwise_cons.mpr ⟨hlast, h.ordered⟩⟩
  intro value' hvalue'
  obtain rfl := Option.some.inj hvalue'
  exact ⟨List.forall_mem_cons.mpr ⟨le_rfl, hlast⟩, hdeleted⟩

/-- An object that is there is removed. -/
theorem remove (h : Shows entry reflected deleted) {revision : ℕ} {old : ν}
    (hentry : entry = some old) (hold : version old < revision) :
    Shows (none : Option ν) (revision :: reflected) (insert revision deleted) := by
  have hlast : ∀ r ∈ reflected, r ≤ revision := fun r hr =>
    ((h.present old hentry).1 r hr).trans hold.le
  refine ⟨by simp, ?_, List.pairwise_cons.mpr ⟨hlast, h.ordered⟩⟩
  intro _ r hr
  have hle : r ≤ revision := by
    rcases List.mem_cons.mp hr with rfl | hr
    · exact le_rfl
    · exact hlast r hr
  exact ⟨revision, Set.mem_insert _ _, hle⟩

/-- A deletion does nothing. -/
theorem keep (h : Shows entry reflected deleted) {revision : ℕ}
    (hold : ∀ old ∈ entry, revision ≤ version old) :
    Shows entry reflected (insert revision deleted) := by
  refine ⟨?_, ?_, h.ordered⟩
  · intro value hvalue
    refine ⟨(h.present value hvalue).1, ?_⟩
    rintro d (rfl | hd)
    · exact hold value hvalue
    · exact (h.present value hvalue).2 d hd
  · intro hentry r hr
    obtain ⟨d, hd, hle⟩ := h.absent hentry r hr
    exact ⟨d, Set.mem_insert_of_mem _ hd, hle⟩

end Shows

/-- A value reaches the cache in order. -/
theorem Shows.changePut [DecidableEq ν] {cache : Cache ν} {reflected : List ℕ}
    {deleted : Set ℕ} {value : ν} (h : Shows (cache.lookup (name value)) reflected deleted)
    (horder : cache.lookup (name value) = none → ∀ d ∈ deleted, d ≤ version value)
    (overwrite : Bool) :
    let new := (cache.change overwrite (.put value)).lookup (name value)
    Shows new (if new = cache.lookup (name value) then reflected
      else version value :: reflected) deleted := by
  intro new
  split
  · next hsame =>
      rw [hsame]
      exact h
  · next hsame =>
      rcases lookup_change_put cache overwrite value with ⟨hnew, hold⟩ | ⟨hkept, -⟩
      · simp only [new, hnew]
        exact h.put horder hold
      · exact absurd hkept hsame

/-- A deletion reaches the cache. -/
theorem Shows.changeDelete [DecidableEq ν] {cache : Cache ν} {reflected : List ℕ}
    {deleted : Set ℕ} {key : String} (h : Shows (cache.lookup key) reflected deleted)
    (revision : ℕ) (overwrite : Bool) :
    let new := (cache.change overwrite (.delete key revision)).lookup key
    Shows new (if new = cache.lookup key then reflected else revision :: reflected)
      (insert revision deleted) := by
  intro new
  rcases lookup_change_delete cache overwrite key revision with
    ⟨hnew, hold⟩ | ⟨hkept, old, hold, hle⟩
  · simp only [new, hnew]
    cases hentry : cache.lookup key with
    | none =>
        rw [hentry] at h
        exact h.keep (by simp)
    | some old =>
        rw [if_neg (by simp)]
        exact h.remove hentry (hold old hentry)
  · simp only [new, hkept, if_true]
    apply h.keep
    intro other hother
    obtain rfl := Option.some.inj (hother.symm.trans hold)
    exact hle

namespace System

/-- The cache has just been built. -/
def init (snapshot : Snapshot ν) : System ν ρ where
  revision := snapshot.revision
  history := snapshot.last
  delivered := 0
  pending := []
  deleted := []
  cache := snapshot.cache
  reflected key := ((snapshot.cache.lookup key).map version).toList

/-- The deletions that have reached the cache. -/
def processed (s : System ν ρ) : List (String × ℕ) :=
  s.deleted ++ deletions (s.history.take s.delivered)

/-- The revisions that are reflected after a change has led to another cache. -/
def note [DecidableEq ν] (s : System ν ρ) (change : Change ν) (cache : Cache ν) : String → List ℕ :=
  if cache.lookup change.key = s.cache.lookup change.key then s.reflected
  else Function.update s.reflected change.key (change.revision :: s.reflected change.key)

/-- The steps of the store, the watch and the node. -/
inductive Label (ν ρ : Type)
  /-- The store makes changes at one revision, and maybe executes a request of the node. -/
  | request (changes : List (Change ν)) (own : Option ρ)
  /-- The watch delivers the next change. -/
  | event
  /-- The node gets the answer to a request. -/
  | respond (request : ρ)

/-- One step. A request of the node tells of a change that it has made, or of the store
as it was: a deletion that has found nothing, or an object that was read. -/
def step [DecidableEq ν] [DecidableEq ρ] (p : Producers ν ρ) (l : Label ν ρ)
    (s : System ν ρ) : Option (System ν ρ) :=
  match l with
  | .request changes own =>
      if (∀ change ∈ changes, change.revision = s.revision + 1) ∧
          ∀ request ∈ own, ∀ change ∈ p.told request,
            change ∈ changes ∨ change.revision ≤ s.revision then
        some { s with
          revision := if changes = [] then s.revision else s.revision + 1
          history := s.history ++ changes
          pending := own.toList ++ s.pending }
      else none
  | .event =>
      match s.history[s.delivered]? with
      | none => none
      | some change =>
          let cache := p.process s.cache change
          some { s with
            delivered := s.delivered + 1
            cache := cache
            reflected := s.note change cache }
  | .respond request =>
      if request ∈ s.pending then
        let cache := p.respond s.cache request
        let s := { s with pending := s.pending.erase request }
        match p.told request with
        | none => some { s with cache := cache }
        | some change =>
            some { s with
              deleted := deletions [change] ++ s.deleted
              cache := cache
              reflected := s.note change cache }
      else none

/-- A change that brings an object into the cache was not overtaken by a deletion that
has come the other way: an event by a deletion that the node has made, and an answer by
any deletion. -/
def InTime (p : Producers ν ρ) (l : Label ν ρ) (s : System ν ρ) : Prop :=
  match l with
  | .request _ _ => True
  | .event => ∀ change ∈ s.history[s.delivered]?, InOrder s.cache s.deleted change
  | .respond request => ∀ change ∈ p.told request, InOrder s.cache s.processed change

instance [DecidableEq ν] (p : Producers ν ρ) (l : Label ν ρ) (s : System ν ρ) :
    Decidable (InTime p l s) :=
  match l with
  | .request _ _ => inferInstanceAs (Decidable True)
  | .event => inferInstanceAs
      (Decidable (∀ change ∈ s.history[s.delivered]?, InOrder s.cache s.deleted change))
  | .respond request => inferInstanceAs
      (Decidable (∀ change ∈ p.told request, InOrder s.cache s.processed change))

/-- The changes are in the order of their revisions, and the cache shows each object as
it should. -/
structure Inv (s : System ν ρ) : Prop where
  sorted : s.history.Pairwise (·.revision ≤ ·.revision)
  bounded : ∀ change ∈ s.history, change.revision ≤ s.revision
  delivered : s.delivered ≤ s.history.length
  shows : ∀ key,
    Shows (s.cache.lookup key) (s.reflected key) {revision | (key, revision) ∈ s.processed}

theorem inv_init (snapshot : Snapshot ν) : (init snapshot : System ν ρ).Inv where
  sorted := by
    apply List.pairwise_of_forall_mem_list
    intro a ha b hb
    rw [snapshot.last_revision a ha, snapshot.last_revision b hb]
  bounded change hchange := (snapshot.last_revision change hchange).le
  delivered := Nat.zero_le _
  shows := by
    intro key
    simp only [init, processed, deletions]
    cases hentry : snapshot.cache.lookup key with
    | none => exact ⟨by simp, by simp, by simp⟩
    | some value => exact ⟨by simp, by simp, by simp⟩

/-- The revisions that are reflected for the object of a change. -/
theorem note_key [DecidableEq ν] (s : System ν ρ) (change : Change ν) (cache : Cache ν) :
    s.note change cache change.key =
      if cache.lookup change.key = s.cache.lookup change.key then s.reflected change.key
      else change.revision :: s.reflected change.key := by
  rw [note]
  split
  · rfl
  · exact Function.update_self ..

/-- A change reaches the cache in order. -/
theorem Inv.shows_note [DecidableEq ν] {s : System ν ρ} (h : s.Inv) {change : Change ν}
    (horder : InOrder s.cache s.processed change) (overwrite : Bool)
    {processed : List (String × ℕ)}
    (hprocessed : ∀ d, d ∈ processed ↔ d ∈ s.processed ∨ change = .delete d.1 d.2)
    (key : String) :
    Shows ((s.cache.change overwrite change).lookup key)
      (s.note change (s.cache.change overwrite change) key)
      {revision | (key, revision) ∈ processed} := by
  have hshows := h.shows key
  by_cases hkey : key = change.key
  · subst hkey
    rw [note_key]
    cases change with
    | put value =>
        have hsame : {r | (name value, r) ∈ processed} = {r | (name value, r) ∈ s.processed} := by
          ext r
          simp [hprocessed]
        simp only [Change.key, Change.revision, hsame]
        apply hshows.changePut
        intro hnone d hd
        exact horder hnone _ hd rfl
    | delete key revision =>
        have hinsert : {r | (key, r) ∈ processed} =
            insert revision {r | (key, r) ∈ s.processed} := by
          ext r
          simp [hprocessed, or_comm, eq_comm]
        simp only [Change.key, Change.revision, hinsert]
        exact hshows.changeDelete revision overwrite
  · have hreflected : s.note change (s.cache.change overwrite change) key = s.reflected key := by
      rw [note]
      split
      · rfl
      · exact Function.update_of_ne hkey ..
    have hsame : {r | (key, r) ∈ processed} = {r | (key, r) ∈ s.processed} := by
      ext r
      have hne : change ≠ .delete key r := by
        rintro rfl
        exact hkey rfl
      simp [hprocessed, hne]
    rwa [hreflected, hsame, lookup_change_of_ne hkey]

/-- The next change of the watch is not older than the deletions it has delivered. -/
theorem Inv.inOrder_event {s : System ν ρ} (h : s.Inv) {change : Change ν}
    (hnext : s.history[s.delivered]? = some change) (horder : InOrder s.cache s.deleted change) :
    InOrder s.cache s.processed change := by
  cases change with
  | delete key revision => trivial
  | put value =>
      intro hnone d hd hname
      rcases List.mem_append.mp hd with hd | hd
      · exact horder hnone d hd hname
      · have hmem := mem_deletions.mp hd
        obtain ⟨hlt, hget⟩ := List.getElem?_eq_some_iff.mp hnext
        have hsplit : s.history = s.history.take s.delivered ++ .put value ::
            s.history.drop (s.delivered + 1) := by
          rw [← hget, List.getElem_cons_drop, List.take_append_drop]
        have hsorted := h.sorted
        rw [hsplit, List.pairwise_append] at hsorted
        exact hsorted.2.2 _ hmem _ List.mem_cons_self

/-- The store makes changes. -/
theorem Inv.request {s : System ν ρ} (h : s.Inv) {changes : List (Change ν)}
    (hchanges : ∀ change ∈ changes, change.revision = s.revision + 1) (pending : List ρ) :
    Inv { s with
      revision := if changes = [] then s.revision else s.revision + 1
      history := s.history ++ changes
      pending := pending } where
  sorted := by
    refine List.pairwise_append.mpr ⟨h.sorted, ?_, ?_⟩
    · apply List.pairwise_of_forall_mem_list
      intro a ha b hb
      rw [hchanges a ha, hchanges b hb]
    · intro a ha b hb
      rw [hchanges b hb]
      exact (h.bounded a ha).trans s.revision.le_succ
  bounded := by
    intro change hchange
    rcases List.mem_append.mp hchange with hold | hnew
    · have hle := h.bounded change hold
      dsimp only
      split <;> omega
    · have hne : changes ≠ [] := List.ne_nil_of_mem hnew
      simp [hne, hchanges change hnew]
  delivered := h.delivered.trans (by simp)
  shows := by
    intro key
    have hsame := h.shows key
    simp only [processed] at hsame ⊢
    rwa [List.take_append_of_le_length h.delivered]

variable [DecidableEq ν] [DecidableEq ρ]

theorem step_inv {p : Producers ν ρ} {l : Label ν ρ} {s s' : System ν ρ} (hl : InTime p l s)
    (h : step p l s = some s') (hinv : s.Inv) : s'.Inv := by
  cases l with
  | request changes own =>
      simp only [step] at h
      split at h
      · next hchanges =>
          obtain rfl := Option.some.inj h
          exact hinv.request hchanges.1 _
      · cases h
  | event =>
      simp only [step] at h
      split at h
      · cases h
      · next change hnext =>
          obtain rfl := Option.some.inj h
          have hlt : s.delivered < s.history.length := (List.getElem?_eq_some_iff.mp hnext).1
          refine ⟨hinv.sorted, hinv.bounded, hlt, ?_⟩
          simp only [p.process_eq]
          apply hinv.shows_note (hinv.inOrder_event hnext (hl change hnext))
          intro d
          simp only [processed, List.mem_append, mem_deletions, List.take_add_one, hnext,
            Option.toList_some, List.mem_singleton, or_assoc, eq_comm]
  | respond request =>
      simp only [step] at h
      split at h
      · split at h
        · next htold =>
            obtain rfl := Option.some.inj h
            refine ⟨hinv.sorted, hinv.bounded, hinv.delivered, ?_⟩
            simp only [p.respond_eq_self _ _ htold]
            exact hinv.shows
        · next change htold =>
            obtain rfl := Option.some.inj h
            refine ⟨hinv.sorted, hinv.bounded, hinv.delivered, ?_⟩
            simp only [p.respond_eq _ _ _ htold]
            apply hinv.shows_note (hl change htold)
            intro d
            simp only [processed, List.mem_append, mem_deletions, List.mem_singleton]
            tauto
      · cases h

/-- In every run in which no change is overtaken, the revisions that the cache reflects
for an object do not decrease, and what is in the cache is newer than all deletions that
have reached it. -/
theorem reflected_ordered {p : Producers ν ρ} {snapshot : Snapshot ν} {s : System ν ρ}
    {ls : List (Label ν ρ)} (run : Run (step p) (InTime p) (init snapshot) ls s) (key : String) :
    (s.reflected key).Pairwise (· ≥ ·) ∧
      ∀ value ∈ s.cache.lookup key, ∀ revision, (key, revision) ∈ s.processed →
        revision ≤ version value := by
  have hinv : s.Inv := run.invariant (fun _ _ _ => step_inv) (inv_init snapshot)
  have hshows := hinv.shows key
  exact ⟨hshows.ordered, fun value hvalue => (hshows.present value hvalue).2⟩

/-- Neither cache goes backwards in a run in which no change is overtaken. -/
theorem caches_keep_order (keys : EtcdKeys) (names : K8sNames) :
    (∀ snapshot ls s, Run (step (etcd3 keys)) (InTime (etcd3 keys)) (init snapshot) ls s →
      ∀ key, (s.reflected key).Pairwise (· ≥ ·) ∧
        ∀ value ∈ s.cache.lookup key, ∀ revision, (key, revision) ∈ s.processed →
          revision ≤ value.modRevision) ∧
    ∀ snapshot ls s,
      Run (step (kubernetes names)) (InTime (kubernetes names)) (init snapshot) ls s →
      ∀ key, (s.reflected key).Pairwise (· ≥ ·) ∧
        ∀ value ∈ s.cache.lookup key, ∀ revision, (key, revision) ∈ s.processed →
          revision ≤ value.resourceVersion := by
  constructor
  · intro snapshot ls s run key
    exact reflected_ordered run key
  · intro snapshot ls s run key
    exact reflected_ordered run key

section Example

/-- The keys of a small cluster. -/
def keys : EtcdKeys := ⟨"config", "leader", "optime", "status", "a"⟩

/-- The objects of a small cluster. -/
def names : K8sNames := ⟨"leader", "config", "leader", "config", some "a"⟩

/-- An empty store. -/
def empty (ν : Type) [Object ν] : Snapshot ν := ⟨0, ∅, [], by simp⟩

/-- A node takes the lock. -/
def taking : Request × Response :=
  (.txn (.put ⟨"leader", some "a", 0⟩) false, ⟨1, true, false⟩)

/-- The node releases the lock. -/
def releasing : Request × Response :=
  (.txn (.deleteRange "leader" none) false, ⟨2, true, false⟩)

/-- A node takes the lock and releases it, and the watch is always ahead of it. -/
def watched : List (Label KeyValue (Request × Response)) :=
  [.request [.put ⟨"leader", some "a", 1⟩] (some taking), .event, .respond taking,
    .request [.delete "leader" 2] (some releasing), .event, .respond releasing]

/-- A node takes the lock and releases it before the watch has delivered anything. -/
def behind : List (Label KeyValue (Request × Response)) :=
  [.request [.put ⟨"leader", some "a", 1⟩] (some taking), .respond taking,
    .request [.delete "leader" 2] (some releasing), .respond releasing, .event]

/-- The leader object. -/
def leaderObject : K8sObject := ⟨"leader", 1, [("leader", "a")], some "Endpoints"⟩

/-- A node writes the leader object, which is then deleted. -/
def written : List (Label K8sObject K8sObject) :=
  [.request [.put leaderObject] (some leaderObject), .respond leaderObject, .event,
    .request [.delete "leader" 2] none, .event]

/-- The node is told of its write after the watch has delivered the deletion. -/
def late : List (Label K8sObject K8sObject) :=
  [.request [.put leaderObject] (some leaderObject), .event,
    .request [.delete "leader" 2] none, .event, .respond leaderObject]

theorem caches_keep_order_when_watched :
    (∃ s, Run (step (etcd3 keys)) (InTime (etcd3 keys)) (init (empty _)) watched s ∧
      s.reflected "leader" = [2, 1] ∧ (s.reflected "leader").Pairwise (· ≥ ·)) ∧
    ∃ s, Run (step (kubernetes names)) (InTime (kubernetes names)) (init (empty _)) written s ∧
      s.reflected "leader" = [2, 1] ∧ (s.reflected "leader").Pairwise (· ≥ ·) := by
  constructor
  · obtain ⟨s, hs, hreflected⟩ : ∃ s, execGuarded (step (etcd3 keys)) (InTime (etcd3 keys)) watched
        (init (empty _)) = some s ∧ s.reflected "leader" = [2, 1] :=
      Option.map_eq_some_iff.mp (by decide +kernel)
    have run := run_of_execGuarded hs
    exact ⟨s, run, hreflected, ((caches_keep_order keys names).1 _ _ s run "leader").1⟩
  · obtain ⟨s, hs, hreflected⟩ : ∃ s, execGuarded (step (kubernetes names))
        (InTime (kubernetes names)) written (init (empty _)) = some s ∧
        s.reflected "leader" = [2, 1] :=
      Option.map_eq_some_iff.mp (by decide +kernel)
    have run := run_of_execGuarded hs
    exact ⟨s, run, hreflected, ((caches_keep_order keys names).2 _ _ s run "leader").1⟩

/-- A late event brings back a key in one cache, a late answer an object in the other. -/
theorem deletion_is_forgotten :
    (∃ s, Run (step (etcd3 keys)) (fun _ _ => True) (init (empty _)) behind s ∧
      s.reflected "leader" = [1, 2, 1] ∧ ¬ (s.reflected "leader").Pairwise (· ≥ ·)) ∧
    ∃ s, Run (step (kubernetes names)) (fun _ _ => True) (init (empty _)) late s ∧
      s.reflected "leader" = [1, 2, 1] ∧ ¬ (s.reflected "leader").Pairwise (· ≥ ·) := by
  constructor
  · obtain ⟨s, hs, hreflected⟩ : ∃ s, exec (step (etcd3 keys)) behind (init (empty _)) = some s ∧
        s.reflected "leader" = [1, 2, 1] :=
      Option.map_eq_some_iff.mp (by decide +kernel)
    exact ⟨s, run_of_exec hs (guarded_true _ _), hreflected, by rw [hreflected]; decide⟩
  · obtain ⟨s, hs, hreflected⟩ : ∃ s,
        exec (step (kubernetes names)) late (init (empty _)) = some s ∧
        s.reflected "leader" = [1, 2, 1] :=
      Option.map_eq_some_iff.mp (by decide +kernel)
    exact ⟨s, run_of_exec hs (guarded_true _ _), hreflected, by rw [hreflected]; decide⟩

end Example

end System

end WatchCache

end Metatroni
