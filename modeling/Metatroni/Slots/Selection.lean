import Metatroni.Slots.Permanent
import Metatroni.Lib.Text
import Mathlib.Data.List.TakeWhile

/-!
# The selection of permanent slots

Which of the configured permanent slots a node gets is decided by filters on its
role, its tags, the version of the server and the type of the cluster, and by the
merge with the slots of the members, which has checks of its own.
-/

namespace Metatroni.Slots

/-! ## Names -/

/-- The whole name is one of `[a-z0-9_]{1,63}`. -/
def IsSlotName (name : String) : Prop :=
  1 ≤ name.toList.length ∧ name.toList.length ≤ 63 ∧ ∀ c ∈ name.toList, isSlotChar c = true

instance (name : String) : Decidable (IsSlotName name) := inferInstanceAs (Decidable (_ ∧ _))

/-- A name with a line break behind it. -/
def HasLineBreak (name : String) : Prop := ∃ word, IsSlotName word ∧ name = word ++ "\n"

/-- The regular expression accepts a line break at the end. -/
theorem slotNameMatches_iff (name : String) :
    slotNameMatches name = true ↔ IsSlotName name ∨ HasLineBreak name := by
  have hsplit := List.takeWhile_append_dropWhile (p := isSlotChar) (l := name.toList)
  have hword : ∀ c ∈ name.toList.takeWhile isSlotChar, isSlotChar c = true := fun c hc =>
    List.mem_takeWhile_imp hc
  simp only [slotNameMatches, Bool.and_eq_true, Bool.or_eq_true, decide_eq_true_eq]
  constructor
  · rintro ⟨⟨hmin, hmax⟩, hrest | hrest⟩
    · rw [hrest, List.append_nil] at hsplit
      rw [hsplit] at hmin hmax hword
      exact .inl ⟨hmin, hmax, hword⟩
    · refine .inr ⟨String.ofList (name.toList.takeWhile isSlotChar), ?_, ?_⟩
      · simpa [IsSlotName] using ⟨hmin, hmax, hword⟩
      · rw [hrest] at hsplit
        apply String.toList_inj.mp
        simp [hsplit]
  · rintro (⟨hmin, hmax, hall⟩ | ⟨word, ⟨hmin, hmax, hall⟩, rfl⟩)
    · have htake : name.toList.takeWhile isSlotChar = name.toList :=
        List.takeWhile_eq_self_iff.mpr hall
      have hdrop : name.toList.dropWhile isSlotChar = [] := List.dropWhile_eq_nil_iff.mpr hall
      rw [htake, hdrop]
      exact ⟨⟨hmin, hmax⟩, .inl rfl⟩
    · have hstop : ∀ c ∈ ("\n".toList).head?, isSlotChar c = false := by
        intro c hc
        obtain rfl : '\n' = c := Option.some.inj hc
        decide
      rw [String.toList_append, Text.takeWhile_append_stop hall hstop,
        Text.dropWhile_append_stop hall hstop]
      exact ⟨⟨hmin, hmax⟩, .inr rfl⟩

theorem not_isSlotName_of_hasLineBreak {name : String} (h : HasLineBreak name) :
    ¬IsSlotName name := by
  obtain ⟨word, -, rfl⟩ := h
  rintro ⟨-, -, hall⟩
  exact absurd (hall '\n' (by simp)) (by decide)

theorem isSlotChar_of_mem_replaceChar {c d : Char} (h : d ∈ replaceChar c) :
    isSlotChar d = true := by
  rw [replaceChar] at h
  split at h
  · rw [List.mem_singleton.mp h]
    decide
  · rcases List.mem_cons.mp h with rfl | hmem
    · decide
    · rcases List.mem_append.mp hmem with hzero | hdigit
      · rw [List.eq_of_mem_replicate hzero]
        decide
      · have hdigit := Nat.isDigit_of_mem_toDigits (by decide) (by decide) hdigit
        simp [isSlotChar, hdigit]

/-- A node's own slot has no line break in its name. -/
theorem not_hasLineBreak_own [NodeName String] (name : String) :
    ¬HasLineBreak (slotNameFromMemberName name) := by
  rintro ⟨word, -, heq⟩
  have hmem : '\n' ∈ (slotNameFromMemberName name).toList := by
    rw [heq]
    simp
  rw [slotNameFromMemberName, String.toList_ofList] at hmem
  obtain ⟨c, -, hc⟩ := List.mem_flatMap.mp (List.mem_of_mem_take hmem)
  have hslot : isSlotChar '\n' = true := by
    split at hc
    · next hslot => rwa [List.mem_singleton.mp hc]
    · exact isSlotChar_of_mem_replaceChar hc
  exact absurd hslot (by decide)

/-! ## Values -/

/-- The type of cluster that a slot is for, where its value says so. -/
def clusterType : SlotValue → Value
  | .dict slot => slot.get "cluster_type" .null
  | _ => .null

/-- The slot is for no cluster in particular or for a cluster of this type. -/
def FitsCluster (isStandbyCluster : Bool) (value : SlotValue) : Prop :=
  clusterType value = .null ∨
    clusterType value = .str (if isStandbyCluster then "standby" else "primary")

instance (isStandbyCluster : Bool) (value : SlotValue) :
    Decidable (FitsCluster isStandbyCluster value) :=
  inferInstanceAs (Decidable (_ ∨ _))

section Values

variable [NodeName String] (cluster : Cluster) (name : String)

/-- The value with the known LSN, as `__permanent_slots` keeps it. -/
def stored : SlotValue → SlotValue
  | .falsy => .dict (withLsn cluster name ∅)
  | .dict slot => .dict (withLsn cluster name slot)
  | .other => .other

theorem get_withLsn (slot : Slot) {key : String} (hkey : key ≠ "lsn") (default : Value) :
    (withLsn cluster name slot).get key default = slot.get key default := by
  simp only [withLsn, Slot.get, apply_ite (AList.lookup key), Dict.lookup_set_ne _ hkey,
    AList.lookup_erase_ne hkey, ite_self]

theorem isLogicalSlot_withLsn (slot : Slot) :
    isLogicalSlot (.dict (withLsn cluster name slot)) = isLogicalSlot (.dict slot) := by
  have hget {key : String} (hkey : key ≠ "lsn") := get_withLsn cluster name slot hkey
  simp only [isLogicalSlot, Slot.hasDatabaseAndPlugin, hget (by decide : "type" ≠ "lsn"),
    hget (by decide : "database" ≠ "lsn"), hget (by decide : "plugin" ≠ "lsn")]

omit [NodeName String] in
/-- An empty dictionary is physical like any other without a type. -/
theorem isPhysicalSlot_dict (slot : Slot) :
    isPhysicalSlot (.dict slot) =
      (!isLogicalSlot (.dict slot) && slot.get "type" (.str "physical") = .str "physical") := by
  by_cases hslot : slot = ∅
  · subst hslot
    decide
  · have hempty : Dict.isEmpty slot = false :=
      Bool.eq_false_iff.mpr fun h => hslot ((Dict.isEmpty_iff slot).mp h)
    simp [isPhysicalSlot, hempty]

theorem isLogicalSlot_stored (value : SlotValue) :
    isLogicalSlot (stored cluster name value) = isLogicalSlot value := by
  cases value with
  | falsy => exact isLogicalSlot_withLsn cluster name ∅
  | dict slot => exact isLogicalSlot_withLsn cluster name slot
  | other => rfl

theorem isPhysicalSlot_withLsn (slot : Slot) :
    isPhysicalSlot (.dict (withLsn cluster name slot)) = isPhysicalSlot (.dict slot) := by
  rw [isPhysicalSlot_dict, isPhysicalSlot_dict, isLogicalSlot_withLsn,
    get_withLsn cluster name slot (by decide)]

theorem isPhysicalSlot_stored (value : SlotValue) :
    isPhysicalSlot (stored cluster name value) = isPhysicalSlot value := by
  cases value with
  | falsy => exact isPhysicalSlot_withLsn cluster name ∅
  | dict slot => exact isPhysicalSlot_withLsn cluster name slot
  | other => rfl

theorem isForCluster_stored (isStandbyCluster : Bool) (value : SlotValue) :
    isForCluster isStandbyCluster (stored cluster name value) =
      decide (clusterType value ≠ .str (if isStandbyCluster then "primary" else "standby")) := by
  have hdict (slot : Slot) : isForCluster isStandbyCluster (.dict (withLsn cluster name slot)) =
      decide (slot.get "cluster_type" .null ≠
        .str (if isStandbyCluster then "primary" else "standby")) := by
    simp only [isForCluster, get_withLsn cluster name slot (by decide : "cluster_type" ≠ "lsn")]
    cases isStandbyCluster <;> simp
  cases value with
  | falsy => exact hdict ∅
  | dict slot => exact hdict slot
  | other => simp [stored, isForCluster, clusterType]

omit [NodeName String] in
theorem isLogicalSlot_of_isPhysicalSlot {value : SlotValue} (h : isPhysicalSlot value = true) :
    isLogicalSlot value = false := by
  cases value with
  | falsy => rfl
  | other => rfl
  | dict slot =>
      rw [isPhysicalSlot_dict, Bool.and_eq_true, Bool.not_eq_true'] at h
      exact h.1

omit [NodeName String] in
theorem complete_dict_ne_none (slot : Slot) : complete (.dict slot) ≠ none := by
  rw [complete]
  split
  · simp
  · split <;> simp

omit [NodeName String] in
/-- The completed type is physical or logical exactly where the value is. -/
theorem complete_spec {value : SlotValue} {slot : Slot} (h : complete value = some slot) :
    (slot.get "type" .null = .str "physical" ↔ isPhysicalSlot value = true) ∧
      isLogicalSlot (.dict slot) = isLogicalSlot value := by
  cases value with
  | falsy =>
      obtain rfl := Option.some.inj h
      exact ⟨by decide, by decide⟩
  | other => cases h
  | dict slot' =>
      simp only [complete] at h
      split at h
      · next hempty =>
          obtain rfl := Option.some.inj h
          obtain rfl := (Dict.isEmpty_iff slot').mp hempty
          exact ⟨by decide, by decide⟩
      · split at h
        · next htype =>
            obtain rfl := Option.some.inj h
            refine ⟨?_, rfl⟩
            obtain ⟨type, htype⟩ := Option.isSome_iff_exists.mp (AList.lookup_isSome.mpr htype)
            rw [isPhysicalSlot_dict]
            simp only [Slot.get, htype, Option.getD_some, isLogicalSlot]
            constructor
            · rintro rfl
              simp
            · intro h
              simpa using (Bool.and_eq_true_iff.mp h).2
        · next htype =>
            obtain rfl := Option.some.inj h
            have hnone : slot'.lookup "type" = none := AList.lookup_eq_none.mpr htype
            have hget (default : Value) : slot'.get "type" default = default := by
              rw [Slot.get, hnone]
              rfl
            have hset (value default : Value) :
                Slot.get (slot'.set "type" value) "type" default = value := by
              rw [Slot.get, Dict.lookup_set_self]
              rfl
            have hset' (value : Value) : Slot.hasDatabaseAndPlugin (slot'.set "type" value) =
                slot'.hasDatabaseAndPlugin := by
              simp only [Slot.hasDatabaseAndPlugin, Slot.get,
                Dict.lookup_set_ne slot' (by decide : "database" ≠ "type"),
                Dict.lookup_set_ne slot' (by decide : "plugin" ≠ "type")]
            rw [isPhysicalSlot_dict]
            simp only [isLogicalSlot, hget, hset, hset']
            cases slot'.hasDatabaseAndPlugin with
            | true => exact ⟨by decide, by decide⟩
            | false => exact ⟨by decide, by decide⟩

end Values

/-! ## The filters and the merge -/

section Merge

variable [NodeName String]

/-- The merge leaves the slots alone that are there. -/
theorem lookup_mergePermanentSlot (cluster : Cluster) (name : String) (role : PostgresqlRole)
    (canAdvanceSlots : Bool) {acc : Dict String Slot × List String}
    (item : Sigma fun _ : String => SlotValue) {slot : String} (h : slot ∈ acc.1) :
    (mergePermanentSlot cluster name role canAdvanceSlots acc item).1.lookup slot =
      acc.1.lookup slot := by
  obtain ⟨slots, disabled⟩ := acc
  have hset {slotName : String} (hnew : slotName ∉ slots) (value : Slot) :
      (slots.set slotName value).lookup slot = slots.lookup slot := by
    have hne : slot ≠ slotName := by
      rintro rfl
      exact hnew h
    exact Dict.lookup_set_ne slots hne value
  unfold mergePermanentSlot
  dsimp only
  split
  · split
    · rfl
    · split
      · split
        · next hnew => exact hset hnew.1 _
        · rfl
      · split
        · split
          · rfl
          · split
            · rfl
            · next hnew => exact hset hnew _
        · rfl
  · rfl

theorem lookup_mergePermanentSlots (cluster : Cluster) {slots : Dict String Slot}
    (permanentSlots : Dict String SlotValue) (name : String) (role : PostgresqlRole)
    (canAdvanceSlots : Bool) {slot : String} (h : slot ∈ slots) :
    (mergePermanentSlots cluster slots permanentSlots name role canAdvanceSlots).1.lookup slot =
      slots.lookup slot := by
  have hfold : ∀ (items : List (Sigma fun _ : String => SlotValue))
      (acc : Dict String Slot × List String), slot ∈ acc.1 →
      (items.foldl (mergePermanentSlot cluster name role canAdvanceSlots) acc).1.lookup slot =
        acc.1.lookup slot := by
    intro items
    induction items with
    | nil => exact fun acc _ => rfl
    | cons item items ih =>
        intro acc hacc
        have hstep : slot ∈ (mergePermanentSlot cluster name role canAdvanceSlots acc item).1 :=
          (mem_mergePermanentSlot cluster name role canAdvanceSlots acc item slot).mpr (.inl hacc)
        rw [List.foldl_cons, ih _ hstep, lookup_mergePermanentSlot _ _ _ _ _ hacc]
  exact hfold permanentSlots.entries (slots, []) h

/-- The merge takes a physical slot that is not the node's own, and a logical slot if slots can be
advanced. -/
theorem accepted_stored_iff (cluster : Cluster) (name : String) (canAdvanceSlots : Bool)
    (slotName : String) (value : SlotValue) :
    Accepted name canAdvanceSlots slotName (stored cluster slotName value) ↔
      slotNameMatches slotName = true ∧
        (isPhysicalSlot value = true ∧ slotName ≠ slotNameFromMemberName name ∨
          isLogicalSlot value = true ∧ canAdvanceSlots = true) := by
  rw [Accepted, ← isPhysicalSlot_stored cluster slotName value,
    ← isLogicalSlot_stored cluster slotName value]
  refine and_congr_right fun _ => ?_
  cases hcomplete : complete (stored cluster slotName value) with
  | none =>
      cases value with
      | falsy => exact absurd hcomplete (complete_dict_ne_none _)
      | dict slot => exact absurd hcomplete (complete_dict_ne_none _)
      | other => simp [stored, isPhysicalSlot, isLogicalSlot]
  | some slot =>
      obtain ⟨hphysical, hlogical⟩ := complete_spec hcomplete
      simp only [Option.mem_some_iff, exists_eq_left', hphysical, hlogical]
      split
      · next hvalue => simp [hvalue, isLogicalSlot_of_isPhysicalSlot hvalue]
      · next hvalue => simp [hvalue]

/-- The filters for the role, the version, the tags and the type of the cluster let a value
through. -/
def Considered (config : SlotsConfig) (cluster : Cluster) (postgresql : Postgresql)
    (tags : NodeTags) (role : PostgresqlRole) (value : SlotValue) : Prop :=
  config.useSlots = true ∧ tags.nofailover = false ∧
    if config.isStandbyCluster = true ∨
        getSlotNameOnPrimary cluster postgresql.name tags = none then
      isPhysicalSlot value = true ∧
        (postgresql.canAdvanceSlots = true ∨ role = .standbyLeader) ∧
        clusterType value ≠ .str (if config.isStandbyCluster then "primary" else "standby")
    else
      isPhysicalSlot value = true ∧ (postgresql.canAdvanceSlots = true ∨ role = .primary) ∨
        isLogicalSlot value = true ∧ postgresql.canAdvanceSlots = true

/-- What else the filters let through are logical slots, where they are safe. -/
theorem Considered.of_not_physical {config : SlotsConfig} {cluster : Cluster}
    {postgresql : Postgresql} {tags : NodeTags} {role : PostgresqlRole} {value : SlotValue}
    (h : Considered config cluster postgresql tags role value)
    (hphysical : ¬isPhysicalSlot value = true) :
    isLogicalSlot value = true ∧ postgresql.canAdvanceSlots = true ∧
      config.isStandbyCluster = false ∧ tags.nofailover = false ∧
      getSlotNameOnPrimary cluster postgresql.name tags ≠ none := by
  obtain ⟨-, hfailover, hbranch⟩ := h
  split at hbranch
  · exact absurd hbranch.1 hphysical
  · next hfed =>
      rw [not_or, Bool.not_eq_true] at hfed
      obtain ⟨hlogical, hadvance⟩ := hbranch.resolve_left fun h => hphysical h.1
      exact ⟨hlogical, hadvance, hfed.1, hfailover, hfed.2⟩

theorem mem_permanentSlots {config : SlotsConfig} {cluster : Cluster}
    {item : Sigma fun _ : String => SlotValue} :
    item ∈ (permanentSlots config cluster).entries ↔
      ∃ value, ⟨item.1, value⟩ ∈ config.permanentSlots.entries ∧
        stored cluster item.1 value = item.2 := by
  change item ∈ config.permanentSlots.entries.map (fun e =>
    (⟨e.1, stored cluster e.1 e.2⟩ : Sigma fun _ : String => SlotValue)) ↔ _
  rw [List.mem_map]
  constructor
  · rintro ⟨e, he, rfl⟩
    exact ⟨e.2, he, rfl⟩
  · rintro ⟨value, hvalue, hstored⟩
    refine ⟨_, hvalue, ?_⟩
    rw [hstored]

/-- What the filters keep of the configured slots. -/
theorem mem_getPermanentSlots {config : SlotsConfig} {cluster : Cluster} {slotName : String}
    {value : SlotValue} (hitem : ⟨slotName, value⟩ ∈ config.permanentSlots.entries)
    (postgresql : Postgresql) (tags : NodeTags) (role : PostgresqlRole) :
    ⟨slotName, stored cluster slotName value⟩ ∈
        (getPermanentSlots config cluster postgresql tags role).entries ↔
      config.useSlots = true ∧ tags.nofailover = false ∧
        if config.isStandbyCluster = true ∨ getSlotNameOnPrimary cluster postgresql.name tags = none
        then
          (postgresql.canAdvanceSlots = true ∨ role = .standbyLeader) ∧
            isPhysicalSlot value = true ∧
            clusterType value ≠ .str (if config.isStandbyCluster then "primary" else "standby")
        else
          (postgresql.canAdvanceSlots = true ∨ role = .primary) ∨ isLogicalSlot value = true := by
  have hmem : ⟨slotName, stored cluster slotName value⟩ ∈ (permanentSlots config cluster).entries :=
    mem_permanentSlots.mpr ⟨value, hitem, rfl⟩
  have hphysical : ⟨slotName, stored cluster slotName value⟩ ∈
      (permanentPhysicalSlots config cluster).entries ↔ isPhysicalSlot value = true ∧
        clusterType value ≠ .str (if config.isStandbyCluster then "primary" else "standby") := by
    change _ ∈ (permanentSlots config cluster).entries.filter _ ↔ _
    rw [List.mem_filter, and_iff_right hmem, Bool.and_eq_true, isPhysicalSlot_stored,
      isForCluster_stored, decide_eq_true_eq]
  have hlogical : ⟨slotName, stored cluster slotName value⟩ ∈
      (permanentLogicalSlots config cluster).entries ↔ isLogicalSlot value = true := by
    change _ ∈ (permanentSlots config cluster).entries.filter _ ↔ _
    rw [List.mem_filter, and_iff_right hmem, ← isLogicalSlot_stored cluster slotName value]
  have hempty : ⟨slotName, stored cluster slotName value⟩ ∉ (∅ : Dict String SlotValue).entries :=
    List.not_mem_nil
  rw [getPermanentSlots]
  cases config.useSlots with
  | false => simp
  | true =>
      cases tags.nofailover with
      | true => simp
      | false =>
          simp only [Bool.not_true, Bool.or_self, Bool.false_eq_true, if_false, true_and]
          split
          · split
            · next hadvance => simp only [hphysical, hadvance, true_and]
            · next hadvance => simp only [hadvance, hempty, false_and]
          · split
            · next hadvance => simp only [hmem, hadvance, true_or]
            · next hadvance => simp only [hlogical, hadvance, false_or]

theorem getPermanentSlots_subset {config : SlotsConfig} {cluster : Cluster}
    {postgresql : Postgresql} {tags : NodeTags} {role : PostgresqlRole}
    {item : Sigma fun _ : String => SlotValue}
    (h : item ∈ (getPermanentSlots config cluster postgresql tags role).entries) :
    item ∈ (permanentSlots config cluster).entries := by
  rw [getPermanentSlots] at h
  split at h
  · exact absurd h List.not_mem_nil
  · split at h
    · split at h
      · exact (List.mem_filter.mp h).1
      · exact absurd h List.not_mem_nil
    · split at h
      · exact h
      · exact (List.mem_filter.mp h).1

/-- A slot that is not a slot of a member is added exactly if its name and value pass. -/
theorem mem_getReplicationSlots_iff {config : SlotsConfig} {cluster : Cluster}
    {postgresql : Postgresql} {memberName : Option String} {tags : NodeTags}
    {role : Option PostgresqlRole} {slotName : String} {value : SlotValue}
    (hitem : ⟨slotName, value⟩ ∈ config.permanentSlots.entries)
    (hmember : slotName ∉ getMembersSlots config cluster (memberName.getD postgresql.name)
      (role.getD postgresql.role) tags.nofailover postgresql.canAdvanceSlots) :
    slotName ∈ getReplicationSlots config cluster postgresql memberName tags role ↔
      slotNameMatches slotName = true ∧
        Considered config cluster postgresql tags (role.getD postgresql.role) value ∧
        (isPhysicalSlot value = true →
          slotName ≠ slotNameFromMemberName (memberName.getD postgresql.name)) := by
  have hexists {p : Sigma (fun _ : String => SlotValue) → Prop} :
      (∃ item ∈ (getPermanentSlots config cluster postgresql tags
          (role.getD postgresql.role)).entries, item.1 = slotName ∧ p item) ↔
        ⟨slotName, stored cluster slotName value⟩ ∈ (getPermanentSlots config cluster postgresql
          tags (role.getD postgresql.role)).entries ∧
            p ⟨slotName, stored cluster slotName value⟩ := by
    constructor
    · rintro ⟨⟨name, kept⟩, hmem, hname, hp⟩
      obtain ⟨value', hvalue', hkept⟩ := mem_permanentSlots.mp (getPermanentSlots_subset hmem)
      dsimp only at hname hvalue' hkept
      subst hname hkept
      obtain rfl := config.permanentSlots.nodupKeys.eq_of_mk_mem hvalue' hitem
      exact ⟨hmem, hp⟩
    · exact fun ⟨hmem, hp⟩ => ⟨_, hmem, rfl, hp⟩
  rw [getReplicationSlots, mem_mergePermanentSlots, or_iff_right hmember, hexists,
    mem_getPermanentSlots hitem, accepted_stored_iff, Considered]
  have hexclusive : isPhysicalSlot value = true → ¬isLogicalSlot value = true := fun h => by
    simp [isLogicalSlot_of_isPhysicalSlot h]
  split
  · constructor
    · rintro ⟨⟨huse, hfailover, hadvance, hphysical, htype⟩, hname, ⟨-, hown⟩ | ⟨hlogical, -⟩⟩
      · exact ⟨hname, ⟨huse, hfailover, hphysical, hadvance, htype⟩, fun _ => hown⟩
      · exact absurd hlogical (hexclusive hphysical)
    · rintro ⟨hname, ⟨huse, hfailover, hphysical, hadvance, htype⟩, hown⟩
      exact ⟨⟨huse, hfailover, hadvance, hphysical, htype⟩, hname,
        .inl ⟨hphysical, hown hphysical⟩⟩
  · constructor
    · rintro ⟨⟨huse, hfailover, hkept⟩, hname, ⟨hphysical, hown⟩ | ⟨hlogical, hadvance⟩⟩
      · have hadvance := hkept.resolve_right (hexclusive hphysical)
        exact ⟨hname, ⟨huse, hfailover, .inl ⟨hphysical, hadvance⟩⟩, fun _ => hown⟩
      · exact ⟨hname, ⟨huse, hfailover, .inr ⟨hlogical, hadvance⟩⟩,
          fun hphysical => absurd hlogical (hexclusive hphysical)⟩
    · rintro ⟨hname, ⟨huse, hfailover, ⟨hphysical, hadvance⟩ | ⟨hlogical, hadvance⟩⟩, hown⟩
      · exact ⟨⟨huse, hfailover, .inl hadvance⟩, hname, .inl ⟨hphysical, hown hphysical⟩⟩
      · exact ⟨⟨huse, hfailover, .inr hlogical⟩, hname, .inr ⟨hlogical, hadvance⟩⟩

/-! ## The documented selection -/

/-- The slots of the members stay as they are, and a configured slot is only added to them if its
name and value allow it. -/
def FollowsDocumentation (config : SlotsConfig) (cluster : Cluster) (postgresql : Postgresql)
    (memberName : Option String) (tags : NodeTags) (role : Option PostgresqlRole) : Prop :=
  let name := memberName.getD postgresql.name
  let membersSlots := getMembersSlots config cluster name (role.getD postgresql.role)
    tags.nofailover postgresql.canAdvanceSlots
  let slots := getReplicationSlots config cluster postgresql memberName tags role
  (∀ slot ∈ membersSlots, slots.lookup slot = membersSlots.lookup slot) ∧
    ∀ slotName value, ⟨slotName, value⟩ ∈ config.permanentSlots.entries → slotName ∈ slots →
      slotName ∉ membersSlots →
        IsSlotName slotName ∧ slotName ≠ slotNameFromMemberName name ∧
          (isPhysicalSlot value = true → FitsCluster config.isStandbyCluster value) ∧
          (isLogicalSlot value = true → postgresql.canAdvanceSlots = true ∧
            config.isStandbyCluster = false ∧ tags.nofailover = false ∧
            getSlotNameOnPrimary cluster postgresql.name tags ≠ none)

/-- No slot that is considered has a name that ends with a line break, is a logical slot with the
name of the node's own slot, or is a physical slot for another type of cluster. -/
def NoStraySlot (config : SlotsConfig) (cluster : Cluster) (postgresql : Postgresql)
    (memberName : Option String) (tags : NodeTags) (role : Option PostgresqlRole) : Prop :=
  let name := memberName.getD postgresql.name
  ∀ slotName value, ⟨slotName, value⟩ ∈ config.permanentSlots.entries →
    slotNameMatches slotName = true →
    Considered config cluster postgresql tags (role.getD postgresql.role) value →
    slotName ∉ getMembersSlots config cluster name (role.getD postgresql.role) tags.nofailover
      postgresql.canAdvanceSlots →
    ¬HasLineBreak slotName ∧
      ¬(isLogicalSlot value = true ∧ slotName = slotNameFromMemberName name) ∧
      ¬(isPhysicalSlot value = true ∧ slotName ≠ slotNameFromMemberName name ∧
        ¬FitsCluster config.isStandbyCluster value)

/-- The selection follows its documentation exactly if no slot goes astray. -/
theorem followsDocumentation_iff (config : SlotsConfig) (cluster : Cluster)
    (postgresql : Postgresql) (memberName : Option String) (tags : NodeTags)
    (role : Option PostgresqlRole) :
    FollowsDocumentation config cluster postgresql memberName tags role ↔
      NoStraySlot config cluster postgresql memberName tags role := by
  have hkept : ∀ slot ∈ getMembersSlots config cluster (memberName.getD postgresql.name)
      (role.getD postgresql.role) tags.nofailover postgresql.canAdvanceSlots,
      (getReplicationSlots config cluster postgresql memberName tags role).lookup slot =
        (getMembersSlots config cluster (memberName.getD postgresql.name)
          (role.getD postgresql.role) tags.nofailover postgresql.canAdvanceSlots).lookup slot :=
    fun slot hslot => lookup_mergePermanentSlots cluster _ _ _ _ hslot
  rw [FollowsDocumentation, NoStraySlot, and_iff_right hkept]
  refine forall₃_congr fun slotName value hitem => ?_
  constructor
  · intro h hmatches hconsidered hmember
    -- the documented conditions hold as soon as the slot is not the node's own physical one
    have hdocumented (hown : isPhysicalSlot value = true →
        slotName ≠ slotNameFromMemberName (memberName.getD postgresql.name)) :=
      h ((mem_getReplicationSlots_iff hitem hmember).mpr ⟨hmatches, hconsidered, hown⟩) hmember
    refine ⟨fun hbreak => ?_, fun ⟨hlogical, hown⟩ => ?_, fun ⟨hphysical, hown, hfits⟩ => ?_⟩
    · refine not_isSlotName_of_hasLineBreak hbreak (hdocumented fun _ hown => ?_).1
      exact not_hasLineBreak_own _ (hown ▸ hbreak)
    · refine (hdocumented fun hphysical => ?_).2.1 hown
      rw [isLogicalSlot_of_isPhysicalSlot hphysical] at hlogical
      cases hlogical
    · exact hfits ((hdocumented fun _ => hown).2.2.1 hphysical)
  · intro h hslot hmember
    obtain ⟨hmatches, hconsidered, hown⟩ := (mem_getReplicationSlots_iff hitem hmember).mp hslot
    obtain ⟨hbreak, hlogicalOwn, hcluster⟩ := h hmatches hconsidered hmember
    have hother : slotName ≠ slotNameFromMemberName (memberName.getD postgresql.name) := by
      by_cases hphysical : isPhysicalSlot value = true
      · exact hown hphysical
      · exact fun heq => hlogicalOwn ⟨(hconsidered.of_not_physical hphysical).1, heq⟩
    have hlogical (hlogical : isLogicalSlot value = true) : ¬isPhysicalSlot value = true := by
      intro hphysical
      rw [isLogicalSlot_of_isPhysicalSlot hphysical] at hlogical
      cases hlogical
    refine ⟨((slotNameMatches_iff slotName).mp hmatches).resolve_right hbreak, hother,
      fun hphysical => ?_, fun h => (hconsidered.of_not_physical (hlogical h)).2⟩
    by_contra hfits
    exact hcluster ⟨hphysical, hother, hfits⟩

end Merge

/-- A physical slot for standby clusters. -/
def standbySlot : Slot := physical.set "cluster_type" (.str "standby")

def withStandbySlot : SlotsConfig :=
  ⟨true, false, 1800, (∅ : Dict String SlotValue).set "x" (.dict standbySlot)⟩

/-- The primary of a cluster that is no standby cluster gets the slot. -/
theorem not_followsDocumentation_standbySlot :
    ¬FollowsDocumentation withStandbySlot pair ⟨"a", .primary, true⟩ none (member "a" none).tags
      none := by
  intro h
  have hslot := (h.2 "x" (.dict standbySlot) List.mem_cons_self
    (show "x" ∈ getReplicationSlots withStandbySlot pair ⟨"a", .primary, true⟩ none
      (member "a" none).tags none by decide +kernel) (by decide +kernel)).2.2.1
  exact absurd (hslot (by decide +kernel)) (by decide +kernel)

end Metatroni.Slots
