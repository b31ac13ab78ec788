import Metatroni.Collections
import Metatroni.Lib.Dict

/-!
# Case-insensitive dictionaries

`CaseInsensitiveDict` of `collections.py` stores each pair under the lower-cased
key, so that a key is found in whatever case it is asked for, and the views are
promised to show the case in which a key was last written. Some views are
inherited from `MutableMapping` and some are overridden.

## Implementation notes

What was last written under each key is a function of the history of the
operations alone, `history`; every view is compared with it.
-/

namespace Metatroni

/-- `CaseInsensitiveDict`: the last key and its value by the lower-cased key. -/
structure CaseInsensitiveDict (ν α : Type) [NodeName ν] where
  values : Dict ν (ν × α)
  folded : ∀ k p, values.lookup k = some p → lower p.1 = k

namespace CaseInsensitiveDict

variable {ν α : Type} [NodeName ν]

instance : EmptyCollection (CaseInsensitiveDict ν α) where
  emptyCollection := ⟨∅, fun k _ h => by rw [AList.lookup_empty] at h; cases h⟩

/-- `__setitem__` -/
def set (d : CaseInsensitiveDict ν α) (key : ν) (value : α) : CaseInsensitiveDict ν α where
  values := d.values.set (lower key) (key, value)
  folded := by
    intro k p h
    rw [Dict.lookup_set] at h
    split at h
    · next hk =>
        obtain rfl := Option.some.inj h
        exact hk.symm
    · exact d.folded k p h

/-- `__getitem__`; a missing key raises `KeyError`. -/
def getItem? (d : CaseInsensitiveDict ν α) (key : ν) : Option α :=
  (d.values.lookup (lower key)).map Prod.snd

/-- `__delitem__`; a missing key raises `KeyError`. -/
def delItem? (d : CaseInsensitiveDict ν α) (key : ν) : Option (CaseInsensitiveDict ν α) :=
  if lower key ∈ d.values then
    some
      { values := d.values.erase (lower key)
        folded := by
          intro k p h
          rw [Dict.lookup_erase_eq] at h
          split at h
          · cases h
          · exact d.folded k p h }
  else none

/-- `__iter__` -/
def iter (d : CaseInsensitiveDict ν α) : List ν := d.values.entries.map fun e => e.2.1

/-- `__len__` -/
def len (d : CaseInsensitiveDict ν α) : ℕ := d.values.entries.length

/-- `__contains__` of `Mapping` -/
def contains (d : CaseInsensitiveDict ν α) (key : ν) : Bool := (d.getItem? key).isSome

/-- `items` of `Mapping`, which looks up every key. -/
def items? (d : CaseInsensitiveDict ν α) : Option (List (ν × α)) :=
  d.iter.mapM fun key => (d.getItem? key).map fun value => (key, value)

/-- `keys` -/
def keys (d : CaseInsensitiveDict ν α) : List ν := d.values.keys

/-- `update` of `MutableMapping`, with the pairs of a mapping or with an iterable of pairs. -/
def update (d : CaseInsensitiveDict ν α) (pairs : List (ν × α)) : CaseInsensitiveDict ν α :=
  pairs.foldl (fun d p => d.set p.1 p.2) d

/-- `__init__` -/
def ofDict (data : Dict ν α) : CaseInsensitiveDict ν α :=
  update ∅ (data.entries.map fun e => (e.1, e.2))

/-- `copy` -/
def copy (d : CaseInsensitiveDict ν α) : CaseInsensitiveDict ν α :=
  ofDict (d.values.entries.foldl (fun (data : Dict ν α) e => data.set e.2.1 e.2.2) ∅)

/-! ## The operations -/

/-- An operation on a dictionary. -/
inductive Operation (ν α : Type)
  | set (key : ν) (value : α)
  | delete (key : ν)
  | update (pairs : List (ν × α))
  | copy

/-- The dictionary that is there after an operation. A key that cannot be deleted changes
nothing. -/
def apply (d : CaseInsensitiveDict ν α) : Operation ν α → CaseInsensitiveDict ν α
  | .set key value => d.set key value
  | .delete key => (d.delItem? key).getD d
  | .update pairs => d.update pairs
  | .copy => d.copy

/-- What was last written under each key, up to case, after a pair is written. -/
def write (m : ν → Option (ν × α)) (p : ν × α) (k : ν) : Option (ν × α) :=
  if lower k = lower p.1 then some p else m k

/-- What was last written under each key after an operation. -/
def record (m : ν → Option (ν × α)) : Operation ν α → ν → Option (ν × α)
  | .set key value => write m (key, value)
  | .delete key => fun k => if lower k = lower key then none else m k
  | .update pairs => pairs.foldl write m
  | .copy => m

/-- What was last written under each key, and not deleted since. -/
def history (operations : List (Operation ν α)) : ν → Option (ν × α) :=
  operations.foldl record fun _ => none

/-- The dictionary stores what was last written under each key. -/
def Stores (d : CaseInsensitiveDict ν α) (m : ν → Option (ν × α)) : Prop :=
  ∀ k, d.values.lookup (lower k) = m k

section Operations

variable {d : CaseInsensitiveDict ν α} {m : ν → Option (ν × α)}

theorem stores_empty : Stores (∅ : CaseInsensitiveDict ν α) fun _ => none :=
  fun k => AList.lookup_empty (lower k)

theorem Stores.set (h : d.Stores m) (key : ν) (value : α) :
    (d.set key value).Stores (write m (key, value)) := by
  intro k
  rw [write, ← h k]
  exact Dict.lookup_set d.values (lower key) (lower k) (key, value)

theorem Stores.update (h : d.Stores m) (pairs : List (ν × α)) :
    (d.update pairs).Stores (pairs.foldl write m) := by
  induction pairs generalizing d m with
  | nil => exact h
  | cons p pairs ih => exact ih (h.set p.1 p.2)

theorem Stores.delete (h : d.Stores m) (key : ν) :
    ((d.delItem? key).getD d).Stores (record m (.delete key)) := by
  intro k
  dsimp only [record]
  rw [← h k, delItem?]
  split
  · exact Dict.lookup_erase_eq d.values (lower key) (lower k)
  · next hmissing =>
      split
      · next hk =>
          rw [hk]
          exact AList.lookup_eq_none.mpr hmissing
      · rfl

theorem values_update (d : CaseInsensitiveDict ν α) (pairs : List (ν × α)) :
    (d.update pairs).values =
      pairs.foldl (fun (values : Dict ν (ν × α)) p => values.set (lower p.1) p) d.values := by
  induction pairs generalizing d with
  | nil => rfl
  | cons p pairs ih => exact ih (d.set p.1 p.2)

theorem lower_of_mem {e : Sigma fun _ : ν => ν × α} (he : e ∈ d.values.entries) :
    lower e.2.1 = e.1 :=
  d.folded e.1 e.2 (AList.mem_lookup_iff.mpr he)

/-- The values that can be looked up. -/
theorem exists_getItem?_iff {value : α} :
    (∃ key, d.getItem? key = some value) ↔ ∃ e ∈ d.values.entries, e.2.2 = value := by
  constructor
  · rintro ⟨key, hkey⟩
    obtain ⟨p, hp, rfl⟩ := Option.map_eq_some_iff.mp hkey
    exact ⟨⟨lower key, p⟩, AList.mem_lookup_iff.mp hp, rfl⟩
  · rintro ⟨e, he, rfl⟩
    exact ⟨e.2.1, by rw [getItem?, lower_of_mem he, AList.mem_lookup_iff.mpr he]; rfl⟩

theorem map_lower_iter (d : CaseInsensitiveDict ν α) : d.iter.map lower = d.keys := by
  rw [iter, List.map_map]
  exact List.map_congr_left fun e he => lower_of_mem he

theorem nodup_map_lower_iter (d : CaseInsensitiveDict ν α) : (d.iter.map lower).Nodup := by
  rw [map_lower_iter]
  exact d.values.nodupKeys

/-- A copy is the same dictionary. -/
theorem copy_eq (d : CaseInsensitiveDict ν α) : d.copy = d := by
  have hplain : (d.values.entries.foldl (fun (data : Dict ν α) e => data.set e.2.1 e.2.2)
      ∅).entries = d.values.entries.map fun e => ⟨e.2.1, e.2.2⟩ :=
    Dict.entries_foldl_set (fun e : Sigma fun _ : ν => ν × α => e.2.1) (fun e => e.2.2) _ ∅
      (d.nodup_map_lower_iter.of_map _)
  have hpairs : ((d.values.entries.foldl (fun (data : Dict ν α) e => data.set e.2.1 e.2.2)
      ∅).entries.map fun e => (e.1, e.2)) = d.values.entries.map fun e => e.2 := by
    rw [hplain, List.map_map]
    rfl
  have hkeys : (d.values.entries.map fun e => e.2).map (fun p => lower p.1) = d.keys := by
    rw [← map_lower_iter, iter, List.map_map, List.map_map]
    rfl
  have hentries : d.copy.values.entries = d.values.entries := by
    rw [copy, ofDict, hpairs, values_update]
    refine (Dict.entries_foldl_set (fun p : ν × α => lower p.1) (fun p => p) _ ∅
      (hkeys.symm ▸ d.values.nodupKeys)).trans ?_
    rw [List.map_map]
    refine (List.map_congr_left fun e he => ?_).trans (List.map_id _)
    change (⟨lower e.2.1, e.2⟩ : Sigma fun _ : ν => ν × α) = e
    rw [lower_of_mem he]
  have hvalues : d.copy.values = d.values := AList.ext hentries
  generalize d.copy = c at hvalues
  cases c
  cases d
  congr

theorem Stores.apply (h : d.Stores m) (operation : Operation ν α) :
    (d.apply operation).Stores (record m operation) := by
  cases operation with
  | set key value => exact h.set key value
  | delete key => exact h.delete key
  | update pairs => exact h.update pairs
  | copy =>
      rw [CaseInsensitiveDict.apply, copy_eq]
      exact h

theorem Stores.foldl (h : d.Stores m) (operations : List (Operation ν α)) :
    (operations.foldl CaseInsensitiveDict.apply d).Stores (operations.foldl record m) := by
  induction operations generalizing d m with
  | nil => exact h
  | cons operation operations ih => exact ih (h.apply operation)

/-- After any operations, the dictionary stores what was last written under each key. -/
theorem stores_history (operations : List (Operation ν α)) :
    (operations.foldl CaseInsensitiveDict.apply ∅).Stores (history operations) :=
  stores_empty.foldl operations

end Operations

/-! ## The views -/

/-- The views describe the mapping, and show each key in the case of its last writing. -/
structure Describes (d : CaseInsensitiveDict ν α) (m : ν → Option (ν × α)) : Prop where
  getItem : ∀ key, d.getItem? key = (m key).map Prod.snd
  contains : ∀ key, d.contains key = (m key).isSome
  iter : ∀ key, key ∈ d.iter ↔ ∃ value, m key = some (key, value)
  distinct : (d.iter.map lower).Nodup
  len : d.len = d.iter.length
  items : ∃ items, d.items? = some items ∧ items.map Prod.fst = d.iter ∧
    ∀ p ∈ items, m p.1 = some p
  keys : d.keys = d.iter

section Views

variable {d : CaseInsensitiveDict ν α} {m : ν → Option (ν × α)}

theorem Stores.of_mem (h : d.Stores m) {e : Sigma fun _ : ν => ν × α}
    (he : e ∈ d.values.entries) : m e.2.1 = some e.2 := by
  rw [← h, lower_of_mem he]
  exact AList.mem_lookup_iff.mpr he

theorem Stores.mem_of_eq (h : d.Stores m) {k : ν} {p : ν × α} (hp : m k = some p) :
    ⟨lower k, p⟩ ∈ d.values.entries := by
  rw [← h] at hp
  exact AList.mem_lookup_iff.mp hp

theorem Stores.mem_iter_iff (h : d.Stores m) (key : ν) :
    key ∈ d.iter ↔ ∃ value, m key = some (key, value) := by
  constructor
  · intro hkey
    obtain ⟨e, he, rfl⟩ := List.mem_map.mp hkey
    exact ⟨e.2.2, h.of_mem he⟩
  · rintro ⟨value, hvalue⟩
    exact List.mem_map.mpr ⟨⟨lower key, (key, value)⟩, h.mem_of_eq hvalue, rfl⟩

theorem items?_eq (d : CaseInsensitiveDict ν α) :
    d.items? = some (d.values.entries.map fun e => e.2) := by
  have hlookup : ∀ e ∈ d.values.entries, (d.getItem? e.2.1).map (fun value => (e.2.1, value)) =
      some e.2 := by
    intro e he
    rw [getItem?, lower_of_mem he, AList.mem_lookup_iff.mpr he]
    rfl
  have hmap : ∀ es ⊆ d.values.entries, (es.map fun e => e.2.1).mapM
      (fun key => (d.getItem? key).map fun value => (key, value)) =
        some (es.map fun e => e.2) := by
    intro es
    induction es with
    | nil => exact fun _ => rfl
    | cons e es ih =>
        intro hes
        obtain ⟨he, hes⟩ := List.cons_subset.mp hes
        rw [List.map_cons, List.mapM_cons, hlookup e he, ih hes]
        rfl
  exact hmap _ (List.Subset.refl _)

/-- The keys are shown in lower case, and all the other views are right. -/
theorem Stores.describes_iff (h : d.Stores m) :
    d.Describes m ↔ ∀ key p, m key = some p → lower p.1 = p.1 := by
  constructor
  · intro hdescribes key p hp
    have hkeys := hdescribes.keys
    rw [← map_lower_iter] at hkeys
    have hmem : p.1 ∈ d.iter := List.mem_map.mpr ⟨_, h.mem_of_eq hp, rfl⟩
    exact List.map_inj_left.mp (hkeys.trans (List.map_id _).symm) p.1 hmem
  · intro hlower
    refine
      { getItem := fun key => congrArg (Option.map Prod.snd) (h key)
        contains := fun key => ?_
        iter := h.mem_iter_iff
        distinct := d.nodup_map_lower_iter
        len := (List.length_map _).symm
        items := ⟨_, items?_eq d, List.map_map, ?_⟩
        keys := ?_ }
    · rw [contains, getItem?, h key, Option.isSome_map]
    · intro p hp
      obtain ⟨e, he, rfl⟩ := List.mem_map.mp hp
      exact h.of_mem he
    · rw [← map_lower_iter]
      refine (List.map_congr_left fun key hkey => ?_).trans (List.map_id _)
      obtain ⟨value, hvalue⟩ := (h.mem_iter_iff key).mp hkey
      exact hlower key (key, value) hvalue

end Views

/-- After any sequence of operations, the views describe what was last written if and only if
every key that is there was last written in lower case. -/
theorem describes_history_iff (operations : List (Operation ν α)) :
    (operations.foldl apply ∅).Describes (history operations) ↔
      ∀ key p, history operations key = some p → lower p.1 = p.1 :=
  (stores_history operations).describes_iff

/-- After `d['A'] = 1` the keys are `['a']`. -/
theorem not_describes_upperCase :
    ¬(([.set "A" 1] : List (Operation String ℕ)).foldl apply ∅).Describes
      (history [.set "A" 1]) := by
  intro h
  exact absurd h.keys (by decide +kernel)

end CaseInsensitiveDict

end Metatroni
