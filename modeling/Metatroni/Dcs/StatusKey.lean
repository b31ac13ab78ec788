import Metatroni.Config.Compare
import Metatroni.Dcs.RetainSlots
import Metatroni.Lib.Repr

/-!
# The `/status` key

The leader writes the last LSN, the permanent slots and the slots to retain to the `/status` key,
`AbstractDCS.write_status`, unless they are what it knows to be there: what it read last,
`get_cluster`, or wrote last. What it knows is a dictionary, `_last_status`, which is made in
different ways from a `Status` that was read and from a value that was written.

## Implementation notes

The names of slots are strings, and the texts of the store are lists of characters. The Kubernetes
implementation of `update_leader` is another one.
-/

namespace Metatroni

namespace StatusKey

open Config (deepCompare compareValue)
open PyRepr (texts)

variable {φ : Type} [PyRuntime φ]

/-! ## The status that is read -/

/-- `Status`, with the values as they were read. -/
structure Status (φ : Type) where
  lastLsn : ℤ
  slots : Option (PyDict φ)
  retainSlots : List (PyValue φ)

namespace Status

/-- `empty` -/
def empty : Status φ := ⟨0, none, []⟩

/-- The value of a key, which may be in a JSON text. -/
def field (key : String) (entries : PyDict φ) : Option (PyValue φ) :=
  match Assoc.get key.toList entries with
  | some (.str s) => Json.loads s
  | value => value

/-- The part of `from_node` behind the check that the value is a dictionary. -/
def ofDict (entries : PyDict φ) : Status φ where
  lastLsn :=
    match ((Assoc.get "optime".toList entries).getD (.str [])).toInt with
    | .ok n => n
    | .error _ => 0
  slots :=
    match field "slots" entries with
    | some (.dict slots) => some slots
    | _ => none
  retainSlots :=
    match field "retain_slots" entries with
    | some (.list retainSlots) => retainSlots
    | _ => []

/-- `from_node` -/
def fromNode (value : PyValue φ) : Status φ :=
  let value : Option (PyValue φ) :=
    match value with
    | .str s => Json.loads s
    | value => some value
  match value with
  | some (.int n) => ⟨n, none, []⟩
  | some (.bool b) => ⟨b.toNat, none, []⟩
  | some (.dict entries) => ofDict entries
  | _ => empty

/-- The equality of two of them, where the order in a dictionary does not matter. -/
structure Same (s t : Status φ) : Prop where
  lastLsn : s.lastLsn = t.lastLsn
  slots : Option.Rel (fun a b => ∀ key, Assoc.get key a = Assoc.get key b) s.slots t.slots
  retainSlots : s.retainSlots = t.retainSlots

end Status

/-! ## The node -/

/-- A node and the `/status` key. -/
structure State (φ : Type) where
  /-- `_last_status` -/
  lastStatus : PyDict φ
  /-- The text in the DCS: the value of `/status`, else the one of `/optime/leader`. -/
  stored : Option (List Char)
  /-- The status that the node last read or stored, which the code does not keep. -/
  known : Option (Status φ)

/-- Before the first call. -/
def init (stored : Option (List Char)) : State φ :=
  ⟨[("retain_slots".toList, .list [])], stored, none⟩

namespace State

/-- `get_cluster` -/
def getCluster (s : State φ) : State φ :=
  let status : Status φ := .fromNode ((s.stored.map .str).getD .none)
  let lastStatus : PyDict φ :=
    [("optime".toList, .int status.lastLsn), ("retain_slots".toList, .list status.retainSlots)]
  { s with
    lastStatus :=
      match status.slots with
      | some (e :: slots) => lastStatus ++ [("slots".toList, .dict (e :: slots))]
      | _ => lastStatus
    known := some status }

/-- The value that `write_status` makes: known values are copied, and `None` is not written. -/
def completeValue (s : State φ) (value : PyDict φ) : PyDict φ :=
  let value := ["slots".toList, "retain_slots".toList].foldl
    (fun value name =>
      match Assoc.get name value, Assoc.get name s.lastStatus with
      | none, some known => if known.truthy then Assoc.set name known value else value
      | _, _ => value)
    value
  value.filter fun e =>
    match e.2 with
    | .none => false
    | _ => true

/-- `write_status`: whether `_write_status` is called, and what is there behind it. -/
def writeStatus (s : State φ) (value : PyDict φ) (committed : Bool) : Bool × State φ :=
  let value := s.completeValue value
  if deepCompare s.lastStatus value then (false, s)
  else if committed then
    (true, ⟨value, some (Json.dumps (.dict value)), some (.fromNode (.dict value))⟩)
  else (true, s)

end State

/-- The slots as a value. -/
def slotEntries (slots : Dict String ℤ) : PyDict φ :=
  slots.entries.map fun e => (e.1.toList, .int e.2)

/-- `slots or None` -/
def slotsOrNone (slots : Option (Dict String ℤ)) : PyValue φ :=
  match slots with
  | some slots => if slots.isEmpty then .none else .dict (slotEntries slots)
  | none => .none

/-- What `_build_retain_slots` returns, with the keys of `_last_retain_slots` then. -/
def retainSlots (names : List String) : PyValue φ :=
  match Slots.sortedNames names with
  | some names => .list (texts (names.map String.toList))
  | none => .none

/-- The value that `update_leader` gives to `write_status`. -/
def leaderStatus (lastLsn : ℤ) (slots : Option (Dict String ℤ)) (names : List String) : PyDict φ :=
  [("optime".toList, .int lastLsn), ("slots".toList, slotsOrNone slots),
    ("retain_slots".toList, retainSlots names)]

/-- A call of the node. -/
inductive Call
  | getCluster (loaded : Bool)
  | updateLeader (refreshed : Bool) (lastLsn : Option ℤ) (slots : Option (Dict String ℤ))
      (names : List String) (committed : Bool)

/-- One call. An exception changes nothing. -/
def call (s : State φ) : Call → State φ
  | .getCluster loaded => if loaded then s.getCluster else s
  | .updateLeader refreshed lastLsn slots names committed =>
      match lastLsn with
      | some lastLsn =>
          if refreshed ∧ lastLsn ≠ 0 then
            (s.writeStatus (leaderStatus lastLsn slots names) committed).2
          else s
      | none => s

/-! ## What a value says -/

/-- The entry of a key, if it has a value. -/
def entry (key : List Char) (value : Option (PyValue φ)) : PyDict φ :=
  (value.map fun v => (key, v)).toList

/-- The LSN, the permanent slots and the slots to retain. -/
structure Content where
  lastLsn : ℤ
  slots : Dict String ℤ
  retained : List String

namespace Content

/-- What `update_leader` writes. -/
def ofLeader (lastLsn : ℤ) (slots : Option (Dict String ℤ)) (names : List String) : Content :=
  ⟨lastLsn, slots.getD ∅, (Slots.sortedNames names).getD []⟩

variable (c : Content)

def slots? : Option (PyDict φ) := if c.slots.isEmpty then none else some (slotEntries c.slots)

def retainSlots : List (PyValue φ) := texts (c.retained.map String.toList)

def retainSlots? : Option (PyValue φ) :=
  if c.retained = [] then none else some (.list c.retainSlots)

/-- The `Status` that is read of it. -/
def status : Status φ := ⟨c.lastLsn, c.slots?, c.retainSlots⟩

/-- The value that is written. -/
def value : PyDict φ :=
  entry "optime".toList (some (.int c.lastLsn)) ++ (entry "slots".toList (c.slots?.map .dict) ++
    entry "retain_slots".toList c.retainSlots?)

/-- What `get_cluster` makes of it. -/
def readValue : PyDict φ :=
  entry "optime".toList (some (.int c.lastLsn)) ++
    (entry "retain_slots".toList (some (.list c.retainSlots)) ++
      entry "slots".toList (c.slots?.map .dict))

end Content

/-! ### The value that is written -/

theorem sortedNames_ne_nil (names : List String) : Slots.sortedNames names ≠ some [] := by
  rw [Slots.sortedNames]
  split_ifs with hempty
  · simp
  · exact fun h => hempty (Option.some.inj h)

omit [PyRuntime φ] in
theorem slotsOrNone_eq (lastLsn : ℤ) (slots : Option (Dict String ℤ)) (names : List String) :
    slotsOrNone slots = (((Content.ofLeader lastLsn slots names).slots? : Option (PyDict φ)).map
      PyValue.dict).getD .none := by
  cases slots with
  | none => rfl
  | some slots =>
      rw [slotsOrNone, Content.slots?, Content.ofLeader, Option.getD_some]
      split
      · rfl
      · rfl

omit [PyRuntime φ] in
theorem retainSlots_eq (lastLsn : ℤ) (slots : Option (Dict String ℤ)) (names : List String) :
    (retainSlots names : PyValue φ) =
      (Content.ofLeader lastLsn slots names).retainSlots?.getD .none := by
  rw [retainSlots, Content.retainSlots?, Content.retainSlots, Content.ofLeader]
  cases hnames : Slots.sortedNames names with
  | none => rfl
  | some sorted =>
      rw [Option.getD_some, if_neg]
      · rfl
      · rintro rfl
        exact sortedNames_ne_nil names hnames

theorem completeValue_leaderStatus (s : State φ) (lastLsn : ℤ) (slots : Option (Dict String ℤ))
    (names : List String) :
    s.completeValue (leaderStatus lastLsn slots names) =
      (Content.ofLeader lastLsn slots names).value := by
  have hslots : Assoc.get "slots".toList (leaderStatus lastLsn slots names : PyDict φ) =
      some (slotsOrNone slots) := rfl
  have hretain : Assoc.get "retain_slots".toList (leaderStatus lastLsn slots names : PyDict φ) =
      some (retainSlots names) := rfl
  have hkept : s.completeValue (leaderStatus lastLsn slots names) =
      (leaderStatus lastLsn slots names).filter fun e =>
        match e.2 with
        | .none => false
        | _ => true := by
    rw [State.completeValue]
    simp only [List.foldl_cons, List.foldl_nil, hslots, hretain]
  rw [hkept, leaderStatus, slotsOrNone_eq lastLsn slots names, retainSlots_eq lastLsn slots names,
    Content.value, Content.retainSlots?]
  cases (Content.ofLeader lastLsn slots names).slots? with
  | none =>
      split
      · rfl
      · rfl
  | some slots =>
      split
      · rfl
      · rfl

/-! ### The keys -/

omit [PyRuntime φ] in
theorem get_entry_append (key k : List Char) (value : Option (PyValue φ)) (rest : PyDict φ) :
    Assoc.get key (entry k value ++ rest) =
      if key = k then value.or (Assoc.get key rest) else Assoc.get key rest := by
  cases value with
  | none => simp [entry]
  | some v =>
      by_cases hk : key = k
      · simp [entry, Assoc.get_cons, hk]
      · simp [entry, Assoc.get_cons, hk, Ne.symm hk]

/-- A dictionary with certain values under the keys of a status, and no other ones. -/
structure HasFields (entries : PyDict φ) (optime slots retain : Option (PyValue φ)) : Prop where
  nodup : (Assoc.keys entries).Nodup
  get : ∀ key, Assoc.get key entries =
    if key = "optime".toList then optime else if key = "slots".toList then slots
      else if key = "retain_slots".toList then retain else none

namespace HasFields

variable {entries : PyDict φ} {optime slots retain : Option (PyValue φ)}
  (h : HasFields entries optime slots retain)

include h

omit [PyRuntime φ]

theorem get_optime : Assoc.get "optime".toList entries = optime := by
  rw [h.get, if_pos rfl]

theorem get_slots : Assoc.get "slots".toList entries = slots := by
  have hslots : "slots".toList ≠ "optime".toList := by decide
  rw [h.get, if_neg hslots, if_pos rfl]

theorem get_retainSlots : Assoc.get "retain_slots".toList entries = retain := by
  have hretain : "retain_slots".toList ≠ "optime".toList := by decide
  have hretain' : "retain_slots".toList ≠ "slots".toList := by decide
  rw [h.get, if_neg hretain, if_neg hretain', if_pos rfl]

end HasFields

section Fields

variable {k₁ k₂ k₃ : List Char} (h₁₂ : k₁ ≠ k₂) (h₁₃ : k₁ ≠ k₃) (h₂₃ : k₂ ≠ k₃)
  (o₁ o₂ o₃ : Option (PyValue φ))

include h₁₂ h₁₃ h₂₃

omit [PyRuntime φ] in
theorem nodup_keys_entries :
    (Assoc.keys (entry k₁ o₁ ++ (entry k₂ o₂ ++ entry k₃ o₃))).Nodup := by
  cases o₁ <;> cases o₂ <;> cases o₃ <;> simp [entry, Assoc.keys, h₁₂, h₁₃, h₂₃]

omit [PyRuntime φ] in
theorem get_entries (key : List Char) :
    Assoc.get key (entry k₁ o₁ ++ (entry k₂ o₂ ++ entry k₃ o₃)) =
      if key = k₁ then o₁ else if key = k₂ then o₂ else if key = k₃ then o₃ else none := by
  rw [← List.append_nil (entry k₃ o₃)]
  simp only [get_entry_append, Assoc.get_nil, Option.or_none]
  by_cases hk₁ : key = k₁
  · subst hk₁
    simp [h₁₂, h₁₃]
  · by_cases hk₂ : key = k₂
    · subst hk₂
      simp [hk₁, h₂₃]
    · simp [hk₁, hk₂]

omit [PyRuntime φ] h₁₂ h₁₃ in
theorem ite_comm (key : List Char) :
    (if key = k₂ then o₂ else if key = k₃ then o₃ else o₁) =
      if key = k₃ then o₃ else if key = k₂ then o₂ else o₁ := by
  by_cases hk₂ : key = k₂
  · subst hk₂
    rw [if_pos rfl, if_neg h₂₃, if_pos rfl]
  · rw [if_neg hk₂, if_neg hk₂]

end Fields

section Content

variable (c : Content)

omit [PyRuntime φ] in
theorem hasFields_value :
    HasFields (c.value : PyDict φ) (some (.int c.lastLsn)) (c.slots?.map .dict) c.retainSlots? where
  nodup := nodup_keys_entries (by decide) (by decide) (by decide) _ _ _
  get := get_entries (by decide) (by decide) (by decide) _ _ _

omit [PyRuntime φ] in
theorem hasFields_readValue :
    HasFields (c.readValue : PyDict φ) (some (.int c.lastLsn)) (c.slots?.map .dict)
      (some (.list c.retainSlots)) where
  nodup := nodup_keys_entries (by decide) (by decide) (by decide) _ _ _
  get key := by
    have hdistinct : "retain_slots".toList ≠ "slots".toList := by decide
    rw [Content.readValue, get_entries (by decide) (by decide) (by decide), ite_comm hdistinct]

omit [PyRuntime φ] in
theorem hasFields_init (stored : Option (List Char)) :
    HasFields (init stored : State φ).lastStatus none none (some (.list [])) where
  nodup := List.nodup_singleton _
  get := @get_entries _ "optime".toList "slots".toList "retain_slots".toList (by decide) (by decide)
    (by decide) none none (some (.list []))

end Content

/-! ## The comparison -/

/-- Values that `deep_compare` does not tell apart, or none. -/
def Agree (x y : Option (PyValue φ)) : Prop :=
  Option.Rel (fun v w => compareValue v w = true) x y

theorem agree_some_iff (v w : PyValue φ) : Agree (some v) (some w) ↔ compareValue v w = true :=
  Option.rel_some_some

theorem deepCompare_iff_agree {a b : PyDict φ} {o s r o' s' r' : Option (PyValue φ)}
    (ha : HasFields a o s r) (hb : HasFields b o' s' r') :
    deepCompare a b = true ↔ Agree o o' ∧ Agree s s' ∧ Agree r r' := by
  rw [Config.deepCompare_iff_rel ha.nodup]
  constructor
  · intro h
    have ho := h "optime".toList
    have hs := h "slots".toList
    have hr := h "retain_slots".toList
    rw [ha.get_optime, hb.get_optime] at ho
    rw [ha.get_slots, hb.get_slots] at hs
    rw [ha.get_retainSlots, hb.get_retainSlots] at hr
    exact ⟨ho, hs, hr⟩
  · rintro ⟨ho, hs, hr⟩ key
    rw [ha.get, hb.get]
    split_ifs
    · exact ho
    · exact hs
    · exact hr
    · exact .none

theorem compareValue_int (m n : ℤ) :
    compareValue (.int m : PyValue φ) (.int n) = true ↔ m = n := by
  rw [Config.compareValue_of_not_dict rfl]
  constructor
  · intro h
    have hloads : Json.loads (φ := φ) (Json.dumps (.int m : PyValue φ)) =
        Json.loads (Json.dumps (.int n : PyValue φ)) := congrArg Json.loads h
    rw [Json.loads_dumps (v := .int m) trivial, Json.loads_dumps (v := .int n) trivial] at hloads
    cases hloads
    rfl
  · rintro rfl
    rfl

omit [PyRuntime φ] in
theorem map_toList_injective : Function.Injective (List.map String.toList) :=
  List.map_injective_iff.mpr fun _ _ h => String.toList_injective h

theorem compareValue_retainSlots (c c' : Content) :
    compareValue (.list c.retainSlots : PyValue φ) (.list c'.retainSlots) = true ↔
      c.retained = c'.retained := by
  rw [Config.compareValue_of_not_dict rfl]
  constructor
  · intro h
    exact map_toList_injective (PyRepr.toStr_texts_inj h)
  · intro h
    rw [Content.retainSlots, Content.retainSlots, h]

omit [PyRuntime φ] in
theorem nodup_keys_slotEntries (slots : Dict String ℤ) :
    (Assoc.keys (slotEntries slots : PyDict φ)).Nodup := by
  have hkeys : Assoc.keys (slotEntries slots : PyDict φ) = slots.keys.map String.toList := by
    rw [Assoc.keys, slotEntries, List.map_map, AList.keys, List.keys, List.map_map]
    rfl
  rw [hkeys]
  exact slots.nodupKeys.map fun _ _ h => String.toList_injective h

theorem compareValue_slotEntries (slots slots' : Dict String ℤ) :
    compareValue (.dict (slotEntries slots) : PyValue φ) (.dict (slotEntries slots')) = true ↔
      ∀ key, Assoc.get key (slotEntries slots : PyDict φ) = Assoc.get key (slotEntries slots') := by
  have hcompare : compareValue (.dict (slotEntries slots) : PyValue φ)
      (.dict (slotEntries slots')) =
        deepCompare (slotEntries slots : PyDict φ) (slotEntries slots') := by
    rw [compareValue]
    rfl
  have hint : ∀ (slots : Dict String ℤ) (key : List Char) (v : PyValue φ),
      Assoc.get key (slotEntries slots) = some v → ∃ n, v = .int n := by
    intro slots key v hv
    obtain ⟨e, -, he⟩ := List.mem_map.mp (Assoc.mem_of_get hv)
    exact ⟨e.2, (Prod.mk.inj he).2.symm⟩
  rw [hcompare, Config.deepCompare_iff_rel (nodup_keys_slotEntries slots)]
  refine forall_congr' fun key => ?_
  cases hv : Assoc.get key (slotEntries slots : PyDict φ) with
  | none =>
      cases hv' : Assoc.get key (slotEntries slots' : PyDict φ) with
      | none => exact iff_of_true .none rfl
      | some v' => exact iff_of_false Option.not_rel_none_some (Option.some_ne_none v').symm
  | some v =>
      cases hv' : Assoc.get key (slotEntries slots' : PyDict φ) with
      | none => exact iff_of_false Option.not_rel_some_none (Option.some_ne_none v)
      | some v' =>
          obtain ⟨n, rfl⟩ := hint slots key v hv
          obtain ⟨n', rfl⟩ := hint slots' key v' hv'
          rw [Option.some.injEq, PyValue.int.injEq, ← compareValue_int (φ := φ)]
          exact agree_some_iff (.int n) (.int n')

theorem agree_slots_iff (c c' : Content) :
    Agree (c.slots?.map .dict : Option (PyValue φ)) (c'.slots?.map .dict) ↔
      Option.Rel (fun a b : PyDict φ => ∀ key, Assoc.get key a = Assoc.get key b) c.slots?
        c'.slots? := by
  rw [Content.slots?, Content.slots?]
  split_ifs
  · exact iff_of_true .none .none
  · exact iff_of_false Option.not_rel_none_some Option.not_rel_none_some
  · exact iff_of_false Option.not_rel_some_none Option.not_rel_some_none
  · rw [Option.map_some, Option.map_some, agree_some_iff, compareValue_slotEntries,
      Option.rel_some_some]

omit [PyRuntime φ] in
theorem retainSlots_inj (c c' : Content) :
    (c.retainSlots : List (PyValue φ)) = c'.retainSlots ↔ c.retained = c'.retained := by
  have htexts : Function.Injective (texts : List (List Char) → List (PyValue φ)) :=
    List.map_injective_iff.mpr fun _ _ h => PyValue.str.inj h
  exact (htexts.comp map_toList_injective).eq_iff

/-- Two statuses are the same if the values under all three keys agree. -/
theorem same_iff_agree (c c' : Content) :
    (c.status : Status φ).Same c'.status ↔
      Agree (some (.int c.lastLsn : PyValue φ)) (some (.int c'.lastLsn)) ∧
        Agree (c.slots?.map .dict : Option (PyValue φ)) (c'.slots?.map .dict) ∧
          c.retained = c'.retained := by
  rw [agree_some_iff, compareValue_int, agree_slots_iff, ← retainSlots_inj (φ := φ)]
  exact ⟨fun h => ⟨h.lastLsn, h.slots, h.retainSlots⟩, fun h => ⟨h.1, h.2.1, h.2.2⟩⟩

/-! ## What is read -/

section Read

variable (c : Content)

/-- A missing value and `None` are read alike. -/
theorem ofDict_eq_status {c : Content} {entries : PyDict φ}
    (hoptime : Assoc.get "optime".toList entries = some (.int c.lastLsn))
    (hslots : (Assoc.get "slots".toList entries).getD .none = (c.slots?.map .dict).getD .none)
    (hretain : (Assoc.get "retain_slots".toList entries).getD .none = c.retainSlots?.getD .none) :
    Status.ofDict entries = c.status := by
  rw [Status.ofDict, Status.field, Status.field, hoptime, Content.status]
  congr 1
  · generalize Assoc.get "slots".toList entries = value at hslots ⊢
    cases hkept : (c.slots? : Option (PyDict φ)) with
    | none =>
        rw [hkept] at hslots
        cases value with
        | none => rfl
        | some v =>
            obtain rfl : v = .none := hslots
            rfl
    | some slots =>
        rw [hkept] at hslots
        cases value with
        | none => cases hslots
        | some v =>
            obtain rfl : v = .dict slots := hslots
            rfl
  · generalize Assoc.get "retain_slots".toList entries = value at hretain ⊢
    rw [Content.retainSlots?] at hretain
    by_cases hnil : c.retained = []
    · rw [if_pos hnil] at hretain
      rw [Content.retainSlots, hnil]
      cases value with
      | none => rfl
      | some v =>
          obtain rfl : v = .none := hretain
          rfl
    · rw [if_neg hnil] at hretain
      cases value with
      | none => cases hretain
      | some v =>
          obtain rfl : v = .list c.retainSlots := hretain
          rfl

theorem ofDict_value : Status.ofDict (c.value : PyDict φ) = c.status := by
  have hfields := hasFields_value (φ := φ) c
  refine ofDict_eq_status hfields.get_optime ?_ ?_
  · rw [hfields.get_slots]
  · rw [hfields.get_retainSlots]

omit [PyRuntime φ] in
theorem eq_of_mem_entry {key : List Char} {value : Option (PyValue φ)} {e : List Char × PyValue φ}
    (h : e ∈ entry key value) : value = some e.2 := by
  obtain ⟨v, hv, rfl⟩ := Option.map_eq_some_iff.mp (Option.mem_toList.mp h)
  exact hv

omit [PyRuntime φ] in
theorem exact_slotEntries (slots : Dict String ℤ) :
    Json.Exact (.dict (slotEntries slots) : PyValue φ) := by
  rw [Json.Exact, Json.exactEntries_iff]
  refine ⟨nodup_keys_slotEntries slots, fun e he => ?_⟩
  obtain ⟨e, -, rfl⟩ := List.mem_map.mp he
  exact trivial

omit [PyRuntime φ] in
theorem exact_retainSlots : Json.Exact (.list c.retainSlots : PyValue φ) := by
  rw [Json.Exact, Json.exactItems_iff]
  intro v hv
  obtain ⟨name, -, rfl⟩ := List.mem_map.mp hv
  exact trivial

omit [PyRuntime φ] in
theorem exact_value : Json.Exact (.dict c.value : PyValue φ) := by
  rw [Json.Exact, Json.exactEntries_iff]
  refine ⟨(hasFields_value c).nodup, fun e he => ?_⟩
  rw [Content.value, List.mem_append, List.mem_append] at he
  obtain he | he | he := he
  · rw [← Option.some.inj (eq_of_mem_entry he)]
    exact trivial
  · obtain ⟨entries, hentries, hvalue⟩ := Option.map_eq_some_iff.mp (eq_of_mem_entry he)
    rw [Content.slots?] at hentries
    split_ifs at hentries
    obtain rfl := Option.some.inj hentries
    rw [← hvalue]
    exact exact_slotEntries c.slots
  · have hretain := eq_of_mem_entry he
    rw [Content.retainSlots?] at hretain
    split_ifs at hretain
    rw [← Option.some.inj hretain]
    exact exact_retainSlots c

theorem fromNode_dict (entries : PyDict φ) :
    Status.fromNode (.dict entries) = Status.ofDict entries := rfl

theorem fromNode_dumps : Status.fromNode (.str (Json.dumps (.dict c.value : PyValue φ))) =
    (c.status : Status φ) := by
  simp only [Status.fromNode, Json.loads_dumps (exact_value c), ofDict_value]

theorem fromNode_intText (n : ℤ) : Status.fromNode (.str (Json.dumps (.int n : PyValue φ))) =
    ((⟨n, ∅, []⟩ : Content).status : Status φ) := by
  simp only [Status.fromNode, Json.loads_dumps (v := (.int n : PyValue φ)) trivial]
  rfl

/-- `get_cluster` makes its own dictionary of what it reads. -/
theorem lastStatus_getCluster {s : State φ}
    (h : Status.fromNode ((s.stored.map .str).getD .none : PyValue φ) = c.status) :
    s.getCluster.lastStatus = c.readValue := by
  rw [State.getCluster, h, Content.readValue, Content.status, Content.slots?]
  by_cases hempty : c.slots.isEmpty
  · rw [if_pos hempty]
    rfl
  · have hslots : (slotEntries c.slots : PyDict φ) ≠ [] :=
      fun hnil => hempty (List.isEmpty_iff.mpr (List.map_eq_nil_iff.mp hnil))
    obtain ⟨e, slots, hcons⟩ := List.exists_cons_of_ne_nil hslots
    rw [if_neg hempty, hcons]
    rfl

end Read

/-! ## Runs -/

/-- What the DCS contains before the first call: nothing, the LSN alone, or a value of an earlier
leader. -/
def IsOwnStatus (φ : Type) [PyRuntime φ] (stored : Option (List Char)) : Prop :=
  ∀ text ∈ stored, (∃ n : ℤ, text = Json.dumps (.int n : PyValue φ)) ∨
    ∃ c : Content, text = Json.dumps (.dict c.value : PyValue φ)

/-- `_last_status` is the one of the status that is known, in one of two forms. -/
structure Inv (s : State φ) : Prop where
  stored : IsOwnStatus φ s.stored
  known : s.known = none ∧ s.lastStatus = (init none : State φ).lastStatus ∨
    ∃ c : Content, s.known = some c.status ∧ (s.lastStatus = c.value ∨ s.lastStatus = c.readValue)

theorem exists_fromNode_eq {stored : Option (List Char)} (h : IsOwnStatus φ stored) :
    ∃ c : Content, Status.fromNode ((stored.map .str).getD .none : PyValue φ) = c.status := by
  cases stored with
  | none => exact ⟨⟨0, ∅, []⟩, rfl⟩
  | some text =>
      obtain ⟨n, rfl⟩ | ⟨c, rfl⟩ := h text rfl
      · exact ⟨_, fromNode_intText n⟩
      · exact ⟨c, fromNode_dumps c⟩

theorem inv_getCluster {s : State φ} (h : Inv s) : Inv s.getCluster := by
  obtain ⟨c, hc⟩ := exists_fromNode_eq h.stored
  exact ⟨h.stored, .inr ⟨c, congrArg some hc, .inr (lastStatus_getCluster c hc)⟩⟩

theorem inv_writeStatus {s : State φ} (h : Inv s) (lastLsn : ℤ) (slots : Option (Dict String ℤ))
    (names : List String) (committed : Bool) :
    Inv (s.writeStatus (leaderStatus lastLsn slots names) committed).2 := by
  rw [State.writeStatus, completeValue_leaderStatus]
  split_ifs
  · exact h
  · refine ⟨?_, .inr ⟨_, congrArg some (ofDict_value _), .inl rfl⟩⟩
    rintro text ⟨⟩
    exact .inr ⟨_, rfl⟩
  · exact h

theorem inv_call {s : State φ} (h : Inv s) (c : Call) : Inv (call s c) := by
  cases c with
  | getCluster loaded =>
      rw [call]
      split_ifs
      · exact inv_getCluster h
      · exact h
  | updateLeader refreshed lastLsn slots names committed =>
      cases lastLsn with
      | none => exact h
      | some lastLsn =>
          rw [call]
          split_ifs
          · exact inv_writeStatus h lastLsn slots names committed
          · exact h

/-- The node after some calls. -/
def run (stored : Option (List Char)) (calls : List Call) : State φ :=
  calls.foldl call (init stored)

theorem inv_run {stored : Option (List Char)} (h : IsOwnStatus φ stored) (calls : List Call) :
    Inv (run stored calls : State φ) := by
  induction calls using List.reverseRecOn with
  | nil => exact ⟨h, .inl ⟨rfl, rfl⟩⟩
  | append_singleton calls c ih =>
      rw [run, List.foldl_append]
      exact inv_call ih c

/-! ## The decision -/

/-- The status is the one that the node knows. -/
def State.Knows (s : State φ) (status : Status φ) : Prop :=
  ∃ known ∈ s.known, known.Same status

/-- The last status has an empty list of slots to retain. A value that is written has none. -/
def State.ReadNoRetained (s : State φ) : Prop :=
  Assoc.get "retain_slots".toList s.lastStatus = some (.list [])

theorem agree_retainSlots?_iff (c c' : Content) :
    Agree (c.retainSlots? : Option (PyValue φ)) c'.retainSlots? ↔ c.retained = c'.retained := by
  rw [Content.retainSlots?, Content.retainSlots?]
  split_ifs with h h'
  · exact iff_of_true .none (h.trans h'.symm)
  · exact iff_of_false Option.not_rel_none_some fun heq => h' (heq.symm.trans h)
  · rename_i h'
    exact iff_of_false Option.not_rel_some_none fun heq => h (heq.trans h')
  · rw [agree_some_iff, compareValue_retainSlots]

theorem agree_readRetainSlots_iff (c c' : Content) :
    Agree (some (.list c.retainSlots) : Option (PyValue φ)) c'.retainSlots? ↔
      c.retained = c'.retained ∧ c.retained ≠ [] := by
  rw [Content.retainSlots?]
  split_ifs with h
  · exact iff_of_false Option.not_rel_some_none fun heq => heq.2 (heq.1.trans h)
  · rw [agree_some_iff, compareValue_retainSlots]
    exact ⟨fun heq => ⟨heq, heq ▸ h⟩, And.left⟩

/-- Against a value that was written, the dictionaries agree if the statuses are the same. -/
theorem deepCompare_value_iff (c c' : Content) :
    deepCompare (c.value : PyDict φ) c'.value = true ↔ (c.status : Status φ).Same c'.status := by
  rw [deepCompare_iff_agree (hasFields_value c) (hasFields_value c'), same_iff_agree,
    agree_retainSlots?_iff]

/-- Against a status that was read they do not agree without slots to retain. -/
theorem deepCompare_readValue_iff (c c' : Content) :
    deepCompare (c.readValue : PyDict φ) c'.value = true ↔
      (c.status : Status φ).Same c'.status ∧ c.retained ≠ [] := by
  rw [deepCompare_iff_agree (hasFields_readValue c) (hasFields_value c'), same_iff_agree,
    agree_readRetainSlots_iff]
  tauto

theorem not_deepCompare_init (c : Content) :
    ¬deepCompare (init none : State φ).lastStatus c.value = true := by
  rw [deepCompare_iff_agree (hasFields_init none) (hasFields_value c)]
  exact fun h => Option.not_rel_none_some h.1

omit [PyRuntime φ] in
theorem retainSlots_eq_nil_iff (c : Content) :
    (c.retainSlots : List (PyValue φ)) = [] ↔ c.retained = [] :=
  List.map_eq_nil_iff.trans List.map_eq_nil_iff

omit [PyRuntime φ] in
theorem not_readNoRetained_of_value {s : State φ} {c : Content} (h : s.lastStatus = c.value) :
    ¬s.ReadNoRetained := by
  rw [State.ReadNoRetained, h, (hasFields_value c).get_retainSlots, Content.retainSlots?]
  by_cases hnil : c.retained = []
  · rw [if_pos hnil]
    exact (Option.some_ne_none _).symm
  · rw [if_neg hnil, Option.some.injEq, PyValue.list.injEq, retainSlots_eq_nil_iff]
    exact hnil

omit [PyRuntime φ] in
theorem readNoRetained_iff_of_readValue {s : State φ} {c : Content}
    (h : s.lastStatus = c.readValue) : s.ReadNoRetained ↔ c.retained = [] := by
  rw [State.ReadNoRetained, h, (hasFields_readValue c).get_retainSlots, Option.some.injEq,
    PyValue.list.injEq, retainSlots_eq_nil_iff]

theorem ofDict_leaderStatus (lastLsn : ℤ) (slots : Option (Dict String ℤ)) (names : List String) :
    Status.ofDict (leaderStatus lastLsn slots names : PyDict φ) =
      (Content.ofLeader lastLsn slots names).status :=
  ofDict_eq_status rfl (slotsOrNone_eq lastLsn slots names) (retainSlots_eq lastLsn slots names)

omit [PyRuntime φ] in
theorem knows_iff {s : State φ} {known : Status φ} (h : s.known = some known) (status : Status φ) :
    s.Knows status ↔ known.Same status := by
  rw [State.Knows, h]
  simp

/-- A state that calls lead to. -/
def Reachable (s : State φ) : Prop := ∃ stored calls, IsOwnStatus φ stored ∧ s = run stored calls

/-- The node after it has read the value of an earlier leader. -/
theorem of_read (c : Content) :
    let s : State φ := run (some (Json.dumps (.dict (c.value : PyDict φ)))) [.getCluster true]
    s.known = some c.status ∧ s.lastStatus = c.readValue ∧ Reachable s := by
  refine ⟨congrArg some (fromNode_dumps c), lastStatus_getCluster c (fromNode_dumps c), ?_⟩
  refine ⟨_, [.getCluster true], ?_, rfl⟩
  rintro text ⟨⟩
  exact .inr ⟨c, rfl⟩

theorem writeStatus_fst_iff (s : State φ) (value : PyDict φ) (committed : Bool) :
    (s.writeStatus value committed).1 = true ↔
      ¬deepCompare s.lastStatus (s.completeValue value) = true := by
  rw [State.writeStatus]
  by_cases hsame : deepCompare s.lastStatus (s.completeValue value) = true
  · rw [if_pos hsame]
    exact iff_of_false Bool.false_ne_true (not_not_intro hsame)
  · rw [if_neg hsame]
    cases committed with
    | true => exact iff_of_true rfl hsame
    | false => exact iff_of_true rfl hsame

/-- The status is written exactly when it changes, except where the node has read that there are
no slots to retain and would write the same. -/
theorem writeStatus_iff_changed_iff {s : State φ} (hs : Reachable s) (lastLsn : ℤ)
    (slots : Option (Dict String ℤ)) (names : List String) (committed : Bool) :
    ((s.writeStatus (leaderStatus lastLsn slots names) committed).1 = true ↔
        ¬s.Knows (.fromNode (.dict (s.completeValue (leaderStatus lastLsn slots names))))) ↔
      ¬(s.ReadNoRetained ∧ s.Knows (.fromNode (.dict (leaderStatus lastLsn slots names)))) := by
  obtain ⟨stored, calls, hstored, rfl⟩ := hs
  have hinv : Inv (run stored calls : State φ) := inv_run hstored calls
  generalize (run stored calls : State φ) = s at hinv ⊢
  rw [writeStatus_fst_iff, not_iff_not, completeValue_leaderStatus, fromNode_dict, ofDict_value,
    fromNode_dict, ofDict_leaderStatus]
  generalize Content.ofLeader lastLsn slots names = c'
  obtain ⟨hknown, hlast⟩ | ⟨c, hknown, hlast | hlast⟩ := hinv.known
  · have hnot : ¬s.Knows c'.status := by
      rintro ⟨known, h, -⟩
      rw [hknown] at h
      exact Option.not_mem_none known h
    rw [hlast]
    exact iff_of_true (iff_of_false (not_deepCompare_init c') hnot) fun h => hnot h.2
  · rw [hlast, deepCompare_value_iff, knows_iff hknown]
    exact iff_of_true Iff.rfl fun h => not_readNoRetained_of_value hlast h.1
  · rw [hlast, deepCompare_readValue_iff, knows_iff hknown, readNoRetained_iff_of_readValue hlast]
    tauto

/-- A node writes an LSN, reads it, and writes the same again, although it knows it. -/
theorem writeStatus_unchanged :
    letI := PyRuntime.ascii
    let s : State Unit := run none [.updateLeader true (some 5) none [] true, .getCluster true]
    Reachable s ∧
      s.Knows (.fromNode (.dict (s.completeValue (leaderStatus 5 none [])))) ∧
      (s.writeStatus (leaderStatus 5 none []) true).1 = true := by
  let _ := PyRuntime.ascii
  refine ⟨⟨none, _, fun text h => absurd h (Option.not_mem_none text), rfl⟩, ?_, by decide⟩
  exact ⟨_, rfl, rfl, .none, rfl⟩

/-- A node that has read the slot `a` to retain does not write the same. -/
theorem writeStatus_retained :
    letI := PyRuntime.ascii
    let c : Content := ⟨5, ∅, ["a"]⟩
    let s : State Unit := run (some (Json.dumps (.dict (c.value : PyDict Unit)))) [.getCluster true]
    (s.writeStatus (leaderStatus 5 none ["a"]) true).1 = false := by
  let _ := PyRuntime.ascii
  intro c s
  have hread : s.known = some c.status ∧ s.lastStatus = c.readValue ∧ Reachable s :=
    of_read (φ := Unit) c
  have hknows : s.Knows (.fromNode (.dict (s.completeValue (leaderStatus 5 none ["a"])))) := by
    rw [completeValue_leaderStatus, fromNode_dict, ofDict_value, knows_iff hread.1]
    exact (same_iff_agree _ _).mpr ⟨(agree_some_iff _ _).mpr (by decide), .none, rfl⟩
  have hwrite := (writeStatus_iff_changed_iff hread.2.2 5 none ["a"] true).mpr fun h =>
    absurd ((readNoRetained_iff_of_readValue hread.2.1).mp h.1) (List.cons_ne_nil _ _)
  exact Bool.eq_false_iff.mpr fun h => hwrite.mp h hknows

end StatusKey

end Metatroni
