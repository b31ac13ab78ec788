import Metatroni.Slots.Permanent

/-!
# Readiness of copied logical slots

A logical slot that was copied to a standby is safe to use after a failover only
when the `catalog_xmin` of the physical slot on the primary has overtaken the one
that the logical slot had there. `SlotsHandler` of `postgresql/slots.py` keeps the
copied slots in a queue until then, with the remembered values, which come from
the primary and may be missing.
-/

namespace Metatroni.Slots

/-- `catalog_xmin`, which may be `NULL`. -/
abbrev Xmin := Option ℤ

/-- What is known of a slot on the standby: nothing, or attributes with or without
`catalog_xmin`. -/
inductive StandbySlot
  | empty
  | known (catalogXmin : Option Xmin)
  deriving DecidableEq

/-- The slot has attributes. -/
def StandbySlot.truthy : StandbySlot → Bool
  | .empty => false
  | .known _ => true

/-- `standby_logical_slot.get('catalog_xmin', 0)` -/
def StandbySlot.catalogXmin : StandbySlot → Xmin
  | .empty | .known none => some 0
  | .known (some catalogXmin) => catalogXmin

/-- `SlotsHandler`: the queue of copied slots and the slots on the standby. -/
structure SlotsHandler where
  logicalSlotsProcessingQueue : Dict String Xmin
  replicationSlots : Dict String StandbySlot

/-- The node that the leader connection leads to. -/
structure Primary where
  isInRecovery : Bool
  slots : Dict String Xmin

/-- How a call ends: with a value, or with a `TypeError` of a comparison with `None`. -/
inductive CheckResult
  | returned (value : Bool)
  | typeError
  deriving DecidableEq

/-- The rows for some names. A node in recovery gives none. -/
def Primary.query (primary : Primary) (names : List String) : Dict String Xmin :=
  if primary.isInRecovery then ∅ else Dict.filter (fun name _ => name ∈ names) primary.slots

theorem Primary.lookup_query (primary : Primary) (names : List String) (n : String) :
    (primary.query names).lookup n =
      if primary.isInRecovery = false ∧ n ∈ names then primary.slots.lookup n else none := by
  rw [query]
  cases primary.isInRecovery with
  | true => rfl
  | false =>
      simp only [Bool.false_eq_true, if_false, Dict.lookup_filter, true_and]
      cases primary.slots.lookup n <;> simp [Option.filter]

namespace SlotsHandler

variable (handler : SlotsHandler)

/-- `self._replication_slots.get(name, {})` -/
def standbySlot (name : String) : StandbySlot := (handler.replicationSlots.lookup name).getD .empty

/-- The condition under which a slot leaves the queue, `none` where a comparison fails. -/
def isReady (primaryPhysicalCatalogXmin primaryLogicalCatalogXmin : Xmin) (slot : StandbySlot) :
    Option Bool :=
  if !slot.truthy then some true
  else
    match primaryPhysicalCatalogXmin with
    | none => some false
    | some physical =>
        match primaryLogicalCatalogXmin with
        | none => none
        | some logical =>
            if logical ≤ physical then slot.catalogXmin.map fun standby => physical ≤ standby
            else some false

/-- The loop of `_ready_logical_slots`, with the queue as it is. -/
def readyLogicalSlots (primaryPhysicalCatalogXmin : Xmin) :
    List String → Dict String Xmin → Dict String Xmin × Option Unit
  | [], queue => (queue, some ())
  | name :: names, queue =>
      match isReady primaryPhysicalCatalogXmin (queue.lookup name).join
        (handler.standbySlot name) with
      | none => (queue, none)
      | some true => readyLogicalSlots primaryPhysicalCatalogXmin names (queue.erase name)
      | some false => readyLogicalSlots primaryPhysicalCatalogXmin names queue

/-- `_ready_logical_slots` and the end of `check_logical_slots_readiness`. -/
def finish (primaryPhysicalCatalogXmin : Xmin) (queue : Dict String Xmin) :
    Dict String Xmin × CheckResult :=
  let (queue, ended) := handler.readyLogicalSlots primaryPhysicalCatalogXmin queue.keys queue
  (queue, if ended.isSome then .returned true else .typeError)

/-- The names that `check_logical_slots_readiness` asks for, besides the physical slot. -/
def unknownNames : List String :=
  (handler.logicalSlotsProcessingQueue.entries.filter fun e => e.2 = none).map fun e => e.1

variable [NodeName String]

/-- `check_logical_slots_readiness`: the queue afterwards and how it ends. The primary is `none`
where the connection or the query fails. -/
def checkLogicalSlotsReadiness (cluster : Cluster) (name : String) (tags : NodeTags)
    (primary : Option Primary) : Dict String Xmin × CheckResult :=
  let queue := handler.logicalSlotsProcessingQueue
  if !queue.isEmpty && cluster.leader.isSome then
    match primary with
    | none => (queue, .returned false)
    | some primary =>
        let slotName := getSlotNameOnPrimary cluster name tags
        let slots := primary.query (handler.unknownNames ++ slotName.toList)
        match slotName.bind fun slotName => (slots.lookup slotName).map fun xmin =>
            (xmin, slots.erase slotName) with
        | none => (queue, .returned false)
        -- `_update_pending_logical_slot_primary`
        | some (none, _) => (queue, .returned false)
        | some (some catalogXmin, slots) => handler.finish (some catalogXmin) (queue.update slots)
  else handler.finish none queue

/-! ## The loop -/

section Loop

omit [NodeName String]

variable {handler : SlotsHandler} {physical : Xmin}

/-- A call that fails meets a slot that cannot be compared, and a slot that leaves is ready. -/
theorem readyLogicalSlots_spec {names : List String} (hnames : names.Nodup)
    (queue : Dict String Xmin) :
    ((handler.readyLogicalSlots physical names queue).2 = none ↔
        ∃ n ∈ names, isReady physical (queue.lookup n).join (handler.standbySlot n) = none) ∧
      ∀ n ∈ queue, n ∉ (handler.readyLogicalSlots physical names queue).1 →
        isReady physical (queue.lookup n).join (handler.standbySlot n) = some true := by
  induction names generalizing queue with
  | nil => exact ⟨by simp [readyLogicalSlots], fun n hn hleft => absurd hn hleft⟩
  | cons name names ih =>
      obtain ⟨hname, hnames⟩ := List.nodup_cons.mp hnames
      rw [readyLogicalSlots]
      cases hready : isReady physical (queue.lookup name).join (handler.standbySlot name) with
      | none => exact ⟨iff_of_true rfl ⟨name, List.mem_cons_self, hready⟩,
          fun n hn hleft => absurd hn hleft⟩
      | some ready =>
          cases ready with
          | false =>
              obtain ⟨hfails, hleaves⟩ := ih hnames queue
              refine ⟨?_, hleaves⟩
              simp only [hfails, List.mem_cons, exists_eq_or_imp, hready, reduceCtorEq, false_or]
          | true =>
              obtain ⟨hfails, hleaves⟩ := ih hnames (queue.erase name)
              -- the other slots still have their values
              have hother {n : String} (hn : n ≠ name) :
                  (queue.erase name).lookup n = queue.lookup n := AList.lookup_erase_ne hn
              constructor
              · simp only [hfails, List.mem_cons, exists_eq_or_imp, hready, reduceCtorEq, false_or]
                refine exists_congr fun n => and_congr_right fun hn => ?_
                rw [hother fun heq => hname (heq ▸ hn)]
              · intro n hn hleft
                by_cases heq : n = name
                · rw [heq]
                  exact hready
                · have hready := hleaves n (AList.mem_erase.mpr ⟨heq, hn⟩) hleft
                  rwa [hother heq] at hready

/-- A slot is ready if it is gone from the standby, or the physical slot is between the logical
slots. -/
theorem isReady_eq_true_iff (logical : Xmin) (slot : StandbySlot) :
    isReady physical logical slot = some true ↔ slot.truthy = false ∨
      ∃ l p s, logical = some l ∧ physical = some p ∧ slot.catalogXmin = some s ∧
        l ≤ p ∧ p ≤ s := by
  unfold isReady
  cases htruthy : slot.truthy with
  | false => simp
  | true =>
      cases physical with
      | none => simp
      | some p =>
          cases logical with
          | none => simp
          | some l =>
              by_cases hle : l ≤ p
              · cases slot.catalogXmin with
                | none => simp [hle]
                | some s => simp [hle]
              · simp [hle]

/-- A comparison fails where a value is missing that it needs. -/
theorem isReady_eq_none_iff (logical : Xmin) (slot : StandbySlot) :
    isReady physical logical slot = none ↔ ∃ p, physical = some p ∧ slot.truthy = true ∧
      ∀ l, logical = some l → l ≤ p ∧ slot.catalogXmin = none := by
  unfold isReady
  cases htruthy : slot.truthy with
  | false => simp
  | true =>
      cases physical with
      | none => simp
      | some p =>
          cases logical with
          | none => simp
          | some l =>
              by_cases hle : l ≤ p
              · simp [hle]
              · simp [hle]

theorem finish_spec (handler : SlotsHandler) (physical : Xmin) (queue : Dict String Xmin) :
    ((handler.finish physical queue).2 = .typeError ↔
        ∃ n ∈ queue, isReady physical (queue.lookup n).join (handler.standbySlot n) = none) ∧
      ∀ n ∈ queue, n ∉ (handler.finish physical queue).1 →
        isReady physical (queue.lookup n).join (handler.standbySlot n) = some true := by
  have hspec := @readyLogicalSlots_spec handler physical queue.keys queue.nodupKeys queue
  refine ⟨?_, hspec.2⟩
  have hresult : (handler.finish physical queue).2 = .typeError ↔
      (handler.readyLogicalSlots physical queue.keys queue).2 = none := by
    rw [finish]
    cases hended : (handler.readyLogicalSlots physical queue.keys queue).2 <;> simp [hended]
  rw [hresult, hspec.1]
  rfl

end Loop

/-! ## The check -/

section Check

variable (cluster : Cluster) (name : String) (tags : NodeTags)

/-- `catalog_xmin` of the physical slot on the primary, if it is asked for. -/
def physicalXmin (primary : Option Primary) : Xmin :=
  if !handler.logicalSlotsProcessingQueue.isEmpty && cluster.leader.isSome then
    primary.bind fun primary =>
      if primary.isInRecovery then none
      else (getSlotNameOnPrimary cluster name tags).bind fun slotName =>
        (primary.slots.lookup slotName).join
  else none

/-- The recorded `catalog_xmin` of a logical slot: the remembered value, or else the one that the
primary has now. -/
def recordedXmin (primary : Option Primary) (n : String) : Xmin :=
  match (handler.logicalSlotsProcessingQueue.lookup n).join with
  | some xmin => some xmin
  | none =>
      if getSlotNameOnPrimary cluster name tags = some n then none
      else primary.bind fun primary => (primary.slots.lookup n).join

/-- No comparison fails, and a slot leaves the queue only if it is gone from the standby or the
physical slot is between the recorded value and the value on the standby. -/
def ReadinessIsSafe (primary : Option Primary) : Prop :=
  let result := handler.checkLogicalSlotsReadiness cluster name tags primary
  result.2 ≠ .typeError ∧
    ∀ n ∈ handler.logicalSlotsProcessingQueue, n ∉ result.1 →
      (handler.standbySlot n).truthy = false ∨
        ∃ l p s, handler.recordedXmin cluster name tags primary n = some l ∧
          handler.physicalXmin cluster name tags primary = some p ∧
          (handler.standbySlot n).catalogXmin = some s ∧ l ≤ p ∧ p ≤ s

/-- Where the physical slot has a value, every slot of the queue that is on the standby has a
recorded one, and one on the standby if the comparison gets there. -/
def NothingMissing (primary : Option Primary) : Prop :=
  ∀ p, handler.physicalXmin cluster name tags primary = some p →
    ∀ n ∈ handler.logicalSlotsProcessingQueue, (handler.standbySlot n).truthy = true →
      ∃ l, handler.recordedXmin cluster name tags primary n = some l ∧
        (l ≤ p → (handler.standbySlot n).catalogXmin ≠ none)

omit [NodeName String] in
theorem mem_unknownNames {n : String} :
    n ∈ handler.unknownNames ↔ handler.logicalSlotsProcessingQueue.lookup n = some none := by
  rw [← Option.mem_def, AList.mem_lookup_iff, unknownNames, List.mem_map]
  constructor
  · rintro ⟨e, he, rfl⟩
    obtain ⟨he, hnone⟩ := List.mem_filter.mp he
    rw [decide_eq_true_eq] at hnone
    rwa [← hnone]
  · exact fun h => ⟨_, List.mem_filter.mpr ⟨h, by simp⟩, rfl⟩

/-- The primary is asked for the slots without a value, and these get their values. -/
theorem lookup_update_query {primary : Primary} (hrecovery : primary.isInRecovery = false)
    {slotName : String} (hslot : getSlotNameOnPrimary cluster name tags = some slotName)
    (n : String) :
    (handler.logicalSlotsProcessingQueue.update
        ((primary.query (handler.unknownNames ++ [slotName])).erase slotName)).lookup n =
      (handler.logicalSlotsProcessingQueue.lookup n).map fun _ =>
        handler.recordedXmin cluster name tags (some primary) n := by
  have hrow : ((primary.query (handler.unknownNames ++ [slotName])).erase slotName).lookup n =
      if n ≠ slotName ∧ handler.logicalSlotsProcessingQueue.lookup n = some none then
        primary.slots.lookup n
      else none := by
    rw [Dict.lookup_erase_eq, Primary.lookup_query]
    by_cases hn : n = slotName
    · simp [hn]
    · simp [hn, hrecovery, mem_unknownNames]
  rw [Dict.lookup_update, hrow, recordedXmin, hslot]
  cases hqueue : handler.logicalSlotsProcessingQueue.lookup n with
  | none => simp
  | some xmin =>
      cases xmin with
      | some xmin => simp
      | none =>
          by_cases hn : n = slotName
          · simp [hn]
          · cases hrow : primary.slots.lookup n <;> simp [hn, Ne.symm hn, hrow]

/-- The check stops early, or it goes through the queue with the recorded values. -/
theorem checkLogicalSlotsReadiness_cases (primary : Option Primary) :
    (handler.physicalXmin cluster name tags primary = none ∧
      (handler.checkLogicalSlotsReadiness cluster name tags primary =
          (handler.logicalSlotsProcessingQueue, .returned false) ∨
        handler.checkLogicalSlotsReadiness cluster name tags primary =
          handler.finish none handler.logicalSlotsProcessingQueue)) ∨
      ∃ p queue, handler.physicalXmin cluster name tags primary = some p ∧
        handler.checkLogicalSlotsReadiness cluster name tags primary =
          handler.finish (some p) queue ∧
        ∀ n, queue.lookup n = (handler.logicalSlotsProcessingQueue.lookup n).map fun _ =>
          handler.recordedXmin cluster name tags primary n := by
  unfold checkLogicalSlotsReadiness physicalXmin
  by_cases hasks : (!handler.logicalSlotsProcessingQueue.isEmpty && cluster.leader.isSome) = true
  · simp only [hasks, if_true]
    cases primary with
    | none => exact .inl ⟨rfl, .inl rfl⟩
    | some primary =>
        cases hslot : getSlotNameOnPrimary cluster name tags with
        | none => exact .inl ⟨by simp, .inl rfl⟩
        | some slotName =>
            simp only [Option.toList_some, Option.bind_some, Primary.lookup_query, List.mem_append,
              List.mem_singleton, or_true, and_true]
            cases hrecovery : primary.isInRecovery with
            | true => exact .inl ⟨by simp, .inl (by simp)⟩
            | false =>
                cases hxmin : primary.slots.lookup slotName with
                | none => exact .inl ⟨by simp, .inl (by simp)⟩
                | some xmin =>
                    cases xmin with
                    | none => exact .inl ⟨by simp, .inl (by simp)⟩
                    | some p =>
                        refine .inr ⟨p, _, by simp, by simp; rfl, ?_⟩
                        exact lookup_update_query handler cluster name tags hrecovery hslot
  · simp only [hasks]
    exact .inl ⟨rfl, .inr rfl⟩

/-- The readiness check is safe exactly if no value is missing. -/
theorem readinessIsSafe_iff (primary : Option Primary) :
    handler.ReadinessIsSafe cluster name tags primary ↔
      handler.NothingMissing cluster name tags primary := by
  rw [ReadinessIsSafe, NothingMissing]
  rcases handler.checkLogicalSlotsReadiness_cases cluster name tags primary with
    ⟨hphysical, hresult | hresult⟩ | ⟨p, queue, hphysical, hresult, hqueue⟩
  · rw [hresult]
    exact iff_of_true ⟨nofun, fun n hn hleft => absurd hn hleft⟩
      fun p hp => absurd (hphysical.symm.trans hp) nofun
  · obtain ⟨hfails, hleaves⟩ := handler.finish_spec none handler.logicalSlotsProcessingQueue
    rw [hresult]
    refine iff_of_true ⟨fun hfailed => ?_, fun n hn hleft => ?_⟩
      fun p hp => absurd (hphysical.symm.trans hp) nofun
    · obtain ⟨n, -, hnone⟩ := hfails.mp hfailed
      obtain ⟨p, hp, -⟩ := (isReady_eq_none_iff _ _).mp hnone
      cases hp
    · rcases (isReady_eq_true_iff _ _).mp (hleaves n hn hleft) with hgone | ⟨l, p, s, -, hp, -⟩
      · exact .inl hgone
      · cases hp
  · obtain ⟨hfails, hleaves⟩ := handler.finish_spec (some p) queue
    have hmem (n : String) : n ∈ queue ↔ n ∈ handler.logicalSlotsProcessingQueue := by
      rw [← AList.lookup_isSome, ← AList.lookup_isSome, hqueue, Option.isSome_map]
    have hrecorded {n : String} (hn : n ∈ handler.logicalSlotsProcessingQueue) :
        (queue.lookup n).join = handler.recordedXmin cluster name tags primary n := by
      obtain ⟨xmin, hxmin⟩ := Option.isSome_iff_exists.mp (AList.lookup_isSome.mpr hn)
      rw [hqueue, hxmin]
      rfl
    rw [hresult]
    have hready : ∀ n ∈ handler.logicalSlotsProcessingQueue, n ∉ (handler.finish (some p) queue).1 →
        (handler.standbySlot n).truthy = false ∨
          ∃ l p s, handler.recordedXmin cluster name tags primary n = some l ∧
            handler.physicalXmin cluster name tags primary = some p ∧
            (handler.standbySlot n).catalogXmin = some s ∧ l ≤ p ∧ p ≤ s := by
      intro n hn hleft
      have hready := hleaves n ((hmem n).mpr hn) hleft
      rwa [hrecorded hn, isReady_eq_true_iff, ← hphysical] at hready
    rw [and_iff_left hready, ne_eq, hfails]
    simp only [hphysical, Option.some.injEq, forall_eq', not_exists, not_and, hmem]
    refine forall₂_congr fun n hn => ?_
    rw [hrecorded hn, isReady_eq_none_iff]
    simp only [Option.some.injEq, exists_eq_left', not_and, not_forall]
    simp [imp_iff_not_or]

end Check

end SlotsHandler

/-- The copied slot `ls` is on the standby, with no value from the primary yet. -/
def copiedSlot : SlotsHandler :=
  ⟨(∅ : Dict String Xmin).set "ls" none,
    (∅ : Dict String StandbySlot).set "ls" (.known (some (some 100)))⟩

/-- Meanwhile `ls` was dropped on the primary. -/
def withoutLs : Primary := ⟨false, (∅ : Dict String Xmin).set "b" (some 100)⟩

theorem not_readinessIsSafe_dropped :
    ¬copiedSlot.ReadinessIsSafe pair "b" (member "b" none).tags (some withoutLs) := by
  intro h
  have hresult : (copiedSlot.checkLogicalSlotsReadiness pair "b" (member "b" none).tags
      (some withoutLs)).2 = .typeError := by decide +kernel
  exact h.1 hresult

end Metatroni.Slots
