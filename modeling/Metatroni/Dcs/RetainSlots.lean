import Metatroni.Slots.Permanent
import Mathlib.Algebra.Order.Ring.Rat
import Mathlib.Tactic.Linarith

/-!
# Retention of the slots of absent members

The leader keeps the physical slot of a member for a while after the member key has
disappeared. `_build_retain_slots` of `dcs/__init__.py` remembers when a slot was last
seen together with its member, and publishes the slots that were seen recently.

## Implementation notes

Times are rational numbers, in seconds. What the function would remember, if it looked
for the own member in the whole list of members, is `IsDue`.
-/

namespace Metatroni.Slots

/-- `list(sorted(names)) or None` -/
def sortedNames (names : List String) : Option (List String) :=
  let sorted := names.insertionSort (· ≤ ·)
  if sorted = [] then none else some sorted

/-- The sorted list of certain names, `None` if there are none. -/
def IsSortedListOf (names : String → Prop) (result : Option (List String)) : Prop :=
  result ≠ some [] ∧ (result.getD []).Pairwise (· < ·) ∧
    ∀ slot, slot ∈ result.getD [] ↔ names slot

theorem isSortedListOf_sortedNames {keys : List String} (hkeys : keys.Nodup)
    (names : String → Prop) :
    IsSortedListOf names (sortedNames keys) ↔ ∀ slot, slot ∈ keys ↔ names slot := by
  have hmem : ∀ slot, slot ∈ keys.insertionSort (· ≤ ·) ↔ slot ∈ keys :=
    fun slot => List.mem_insertionSort _
  have hsorted : (keys.insertionSort (· ≤ ·)).Pairwise (· < ·) := by
    have hle := List.pairwise_insertionSort (· ≤ ·) keys
    have hnodup := (List.perm_insertionSort (· ≤ ·) keys).nodup_iff.mpr hkeys
    exact (hle.and hnodup).imp fun h => lt_of_le_of_ne h.1 h.2
  rw [sortedNames, IsSortedListOf]
  generalize keys.insertionSort (· ≤ ·) = sorted at hmem hsorted
  by_cases hempty : sorted = []
  · subst hempty
    simp [← hmem]
  · rw [if_neg hempty, Option.getD_some, and_iff_right (fun h => hempty (Option.some.inj h)),
      and_iff_right hsorted]
    simp only [hmem]

section

variable [NodeName String] (name : String)

/-- A call of `_build_retain_slots`: the configuration, the view, the slots and the time. -/
structure RetainCall where
  config : SlotsConfig
  cluster : Cluster
  slots : Option (Dict String ℤ)
  timestamp : ℚ

/-- The loop over the members: the slots of those that stream, and whether the node itself was
found. -/
def memberSlotNames (members : List Member) : List String × Bool :=
  members.foldl
    (fun (names, _) m =>
      (if m.tags.nostream then names else slotNameFromMemberName m.name :: names, m.name = name))
    ([], false)

/-- The slots that are seen in a call. -/
def seenSlots (call : RetainCall) : Dict String ℤ :=
  let (names, foundSelf) := memberSlotNames name call.cluster.members
  -- the member key of the node may be missing, its tags are not known then
  let names := if foundSelf then names else slotNameFromMemberName name :: names
  Dict.filter
    (fun slot _ => slot ∈ names ∧ slot ∉ permanentPhysicalSlots call.config call.cluster)
    (call.slots.getD ∅)

/-- `_build_retain_slots` with the times that are remembered. -/
def buildRetainSlots (call : RetainCall) (lastRetainSlots : Dict String ℚ) :
    Dict String ℚ × Option (List String) :=
  let lastRetainSlots := lastRetainSlots.update
    ((seenSlots name call).mapValues fun _ _ => call.timestamp)
  let lastRetainSlots := Dict.filter
    (fun _ value => ¬value + call.config.memberSlotsTtl ≤ call.timestamp) lastRetainSlots
  (lastRetainSlots, sortedNames lastRetainSlots.keys)

/-- The times that are remembered after some calls, and the result of the last one. -/
def retainAll (calls : List RetainCall) : Dict String ℚ × Option (List String) :=
  calls.foldl (fun acc call => buildRetainSlots name call acc.1) (∅, none)

/-! ## One call -/

/-- A slot is due in a call: it exists, is not permanent, and belongs to a member that streams or
to the node itself, whose member key is missing. -/
def IsDue (call : RetainCall) (slot : String) : Prop :=
  slot ∈ call.slots.getD ∅ ∧ slot ∉ permanentPhysicalSlots call.config call.cluster ∧
    ((∃ m ∈ call.cluster.members, m.tags.nostream = false ∧ slotNameFromMemberName m.name = slot) ∨
      (∀ m ∈ call.cluster.members, m.name ≠ name) ∧ slotNameFromMemberName name = slot)

/-- The own slot exists, is not permanent, and the own member is in the list, but not at its
end. -/
def OverlooksSelf (call : RetainCall) : Prop :=
  slotNameFromMemberName name ∈ call.slots.getD ∅ ∧
    slotNameFromMemberName name ∉ permanentPhysicalSlots call.config call.cluster ∧
    (∃ m ∈ call.cluster.members, m.name = name) ∧
    ∀ m ∈ call.cluster.members.getLast?, m.name ≠ name

theorem memberSlotNames_append (members : List Member) (m : Member) :
    memberSlotNames name (members ++ [m]) =
      (if m.tags.nostream then (memberSlotNames name members).1
        else slotNameFromMemberName m.name :: (memberSlotNames name members).1,
        decide (m.name = name)) := by
  rw [memberSlotNames, List.foldl_append]
  rfl

theorem mem_memberSlotNames_iff (members : List Member) (slot : String) :
    slot ∈ (memberSlotNames name members).1 ↔
      ∃ m ∈ members, m.tags.nostream = false ∧ slotNameFromMemberName m.name = slot := by
  induction members using List.reverseRecOn with
  | nil => exact iff_of_false List.not_mem_nil (by simp)
  | append_singleton members m ih =>
      rw [memberSlotNames_append]
      simp only [List.mem_append, List.mem_singleton, or_and_right, exists_or, exists_eq_left,
        ← ih]
      cases m.tags.nostream with
      | true => simp
      | false => simp [or_comm, eq_comm]

theorem memberSlotNames_snd (members : List Member) :
    (memberSlotNames name members).2 = true ↔ ∃ m ∈ members.getLast?, m.name = name := by
  cases members using List.reverseRecOn with
  | nil => simp [memberSlotNames]
  | append_singleton members m => simp [memberSlotNames_append]

/-- The slots that are seen are those that are due, and the own one where the node overlooks
itself. -/
theorem mem_seenSlots_iff (call : RetainCall) (slot : String) :
    slot ∈ seenSlots name call ↔
      IsDue name call slot ∨ slotNameFromMemberName name = slot ∧ OverlooksSelf name call := by
  have hlast : (∀ m ∈ call.cluster.members, m.name ≠ name) →
      ∀ m ∈ call.cluster.members.getLast?, m.name ≠ name :=
    fun h m hm => h m (List.mem_of_getLast? hm)
  have hseen : slot ∈ seenSlots name call ↔ slot ∈ call.slots.getD ∅ ∧
      slot ∉ permanentPhysicalSlots call.config call.cluster ∧
        ((∃ m ∈ call.cluster.members, m.tags.nostream = false ∧
            slotNameFromMemberName m.name = slot) ∨
          (∀ m ∈ call.cluster.members.getLast?, m.name ≠ name) ∧
            slotNameFromMemberName name = slot) := by
    rw [seenSlots, Dict.mem_filter_iff, ← mem_memberSlotNames_iff name]
    have hself := memberSlotNames_snd name call.cluster.members
    cases hfound : (memberSlotNames name call.cluster.members).2 with
    | true =>
        obtain ⟨m, hm, hname⟩ := hself.mp hfound
        have hno : ¬∀ m ∈ call.cluster.members.getLast?, m.name ≠ name := fun h => h m hm hname
        simp only [if_true, decide_eq_true_eq, hno, false_and, or_false]
        exact and_congr_right' and_comm
    | false =>
        have hno : ∀ m ∈ call.cluster.members.getLast?, m.name ≠ name := fun m hm hname =>
          Bool.false_ne_true (hfound.symm.trans (hself.mpr ⟨m, hm, hname⟩))
        simp only [Bool.false_eq_true, if_false, decide_eq_true_eq, List.mem_cons]
        rw [and_iff_right hno, eq_comm, or_comm]
        exact and_congr_right' and_comm
  rw [hseen, IsDue, OverlooksSelf]
  by_cases hown : slotNameFromMemberName name = slot
  · subst hown
    by_cases hpresent : ∃ m ∈ call.cluster.members, m.name = name
    · have hno : ¬∀ m ∈ call.cluster.members, m.name ≠ name := fun h =>
        hpresent.elim fun m hm => h m hm.1 hm.2
      simp only [iff_false_intro hno, iff_true_intro hpresent, or_false, and_true, true_and,
        and_or_left]
    · have hno : ∀ m ∈ call.cluster.members, m.name ≠ name := fun m hm hname =>
        hpresent ⟨m, hm, hname⟩
      simp only [iff_true_intro hno, iff_true_intro (hlast hno), iff_false_intro hpresent,
        false_and, and_false, or_false, true_and]
  · simp only [hown, and_false, false_and, or_false]

/-! ## Any number of calls -/

theorem lookup_buildRetainSlots (call : RetainCall) (d : Dict String ℚ) (slot : String) :
    (buildRetainSlots name call d).1.lookup slot =
      (if slot ∈ seenSlots name call then some call.timestamp else d.lookup slot).filter
        fun value => ¬value + call.config.memberSlotsTtl ≤ call.timestamp := by
  rw [buildRetainSlots, Dict.lookup_filter, Dict.lookup_update, Dict.lookup_mapValues]
  congr 1
  split
  · next hseen =>
      obtain ⟨lsn, hlsn⟩ := Option.isSome_iff_exists.mp (AList.lookup_isSome.mpr hseen)
      rw [hlsn]
      rfl
  · next hseen =>
      rw [AList.lookup_eq_none.mpr hseen]
      rfl

/-- What is remembered at a time: when a slot was last seen, as long as that is not too long
ago. -/
structure Remembers (ttl : ℤ) (calls : List RetainCall) (now : ℚ) (d : Dict String ℚ) : Prop where
  seen : ∀ slot value, d.lookup slot = some value →
    ∃ call ∈ calls, call.timestamp = value ∧ slot ∈ seenSlots name call
  latest : ∀ slot value, d.lookup slot = some value →
    ∀ call ∈ calls, slot ∈ seenSlots name call → call.timestamp ≤ value
  fresh : ∀ slot value, d.lookup slot = some value → now < value + ttl
  forgotten : ∀ slot, d.lookup slot = none →
    ∀ call ∈ calls, slot ∈ seenSlots name call → call.timestamp + ttl ≤ now

variable {name} {ttl : ℤ} {calls : List RetainCall} {now : ℚ} {d : Dict String ℚ}

theorem remembers_nil (ttl : ℤ) (now : ℚ) : Remembers name ttl [] now ∅ where
  seen := fun _ _ h => by rw [AList.lookup_empty] at h; cases h
  latest := fun _ _ _ _ hcall => absurd hcall List.not_mem_nil
  fresh := fun _ _ h => by rw [AList.lookup_empty] at h; cases h
  forgotten := fun _ _ _ hcall => absurd hcall List.not_mem_nil

theorem Remembers.step (h : Remembers name ttl calls now d) {call : RetainCall}
    (httl : call.config.memberSlotsTtl = ttl) (hnow : now ≤ call.timestamp)
    (hcalls : ∀ c ∈ calls, c.timestamp ≤ call.timestamp) :
    Remembers name ttl (calls ++ [call]) call.timestamp (buildRetainSlots name call d).1 := by
  have hlookup := lookup_buildRetainSlots name call d
  rw [httl] at hlookup
  constructor
  · intro slot value hvalue
    rw [hlookup, Option.filter_eq_some_iff] at hvalue
    obtain ⟨hvalue, -⟩ := hvalue
    split at hvalue
    · next hseen =>
        obtain rfl := Option.some.inj hvalue
        exact ⟨call, by simp, rfl, hseen⟩
    · obtain ⟨c, hc, htime, hseen⟩ := h.seen slot value hvalue
      exact ⟨c, List.mem_append_left _ hc, htime, hseen⟩
  · intro slot value hvalue c hc hseen
    rw [hlookup, Option.filter_eq_some_iff] at hvalue
    obtain ⟨hvalue, -⟩ := hvalue
    rcases List.mem_append.mp hc with hc | hc
    · split at hvalue
      · obtain rfl := Option.some.inj hvalue
        exact hcalls c hc
      · exact h.latest slot value hvalue c hc hseen
    · obtain rfl := List.mem_singleton.mp hc
      rw [if_pos hseen] at hvalue
      exact (Option.some.inj hvalue).le
  · intro slot value hvalue
    rw [hlookup, Option.filter_eq_some_iff] at hvalue
    simpa using hvalue.2
  · intro slot hnone c hc hseen
    rw [hlookup, Option.filter_eq_none_iff] at hnone
    by_cases hnew : slot ∈ seenSlots name call
    · rw [if_pos hnew] at hnone
      have hexpired : call.timestamp + ttl ≤ call.timestamp := by simpa using hnone
      have htime : c.timestamp ≤ call.timestamp := by
        rcases List.mem_append.mp hc with hc | hc
        · exact hcalls c hc
        · exact (congrArg RetainCall.timestamp (List.mem_singleton.mp hc)).le
      linarith
    · rw [if_neg hnew] at hnone
      rcases List.mem_append.mp hc with hc | hc
      · cases hold : d.lookup slot with
        | none => exact (h.forgotten slot hold c hc hseen).trans hnow
        | some value =>
            have hexpired : value + ttl ≤ call.timestamp := by simpa [hold] using hnone
            have := h.latest slot value hold c hc hseen
            linarith
      · exact absurd (List.mem_singleton.mp hc ▸ hseen) hnew

/-- What is remembered after some calls. -/
theorem remembers_retainAll (httl : ∀ call ∈ calls, call.config.memberSlotsTtl = ttl)
    (htimes : calls.Pairwise fun c c' => c.timestamp ≤ c'.timestamp) {last : RetainCall}
    (hlast : calls.getLast? = some last) :
    Remembers name ttl calls last.timestamp (retainAll name calls).1 := by
  have hrun : ∀ calls : List RetainCall, (∀ call ∈ calls, call.config.memberSlotsTtl = ttl) →
      (calls.Pairwise fun c c' => c.timestamp ≤ c'.timestamp) →
      ∀ now, (∀ c ∈ calls.getLast?, now = c.timestamp) →
        Remembers name ttl calls now (retainAll name calls).1 := by
    intro calls
    induction calls using List.reverseRecOn with
    | nil => exact fun _ _ now _ => remembers_nil ttl now
    | append_singleton calls call ih =>
        intro httl htimes now hnow
        obtain rfl := hnow call (by simp)
        rw [List.pairwise_append] at htimes
        have hcalls : ∀ c ∈ calls, c.timestamp ≤ call.timestamp := fun c hc =>
          htimes.2.2 c hc call (List.mem_singleton_self call)
        have hold : ∃ now, (∀ c ∈ calls.getLast?, now = c.timestamp) ∧ now ≤ call.timestamp := by
          cases hlast : calls.getLast? with
          | none => exact ⟨call.timestamp, fun c hc => absurd hc (Option.not_mem_none c), le_rfl⟩
          | some c =>
              refine ⟨c.timestamp, fun c' hc' => ?_, hcalls c (List.mem_of_getLast? hlast)⟩
              exact congrArg RetainCall.timestamp (Option.some.inj hc')
        obtain ⟨now, hnow, hle⟩ := hold
        have hearlier := ih (fun c hc => httl c (List.mem_append_left _ hc)) htimes.1 now hnow
        rw [retainAll, List.foldl_append]
        exact hearlier.step (httl call (by simp)) hle hcalls
  exact hrun calls httl htimes _ fun c hc => by
    rw [hlast] at hc
    exact congrArg RetainCall.timestamp (Option.some.inj hc)

/-- The slots that are remembered are those that were seen recently. -/
theorem Remembers.mem_iff (h : Remembers name ttl calls now d) (slot : String) :
    slot ∈ d ↔ ∃ call ∈ calls, now < call.timestamp + ttl ∧ slot ∈ seenSlots name call := by
  constructor
  · intro hmem
    obtain ⟨value, hvalue⟩ := Option.isSome_iff_exists.mp (AList.lookup_isSome.mpr hmem)
    obtain ⟨call, hcall, rfl, hseen⟩ := h.seen slot value hvalue
    exact ⟨call, hcall, h.fresh slot _ hvalue, hseen⟩
  · rintro ⟨call, hcall, hfresh, hseen⟩
    by_contra hmem
    exact absurd (h.forgotten slot (AList.lookup_eq_none.mpr hmem) call hcall hseen)
      (not_le.mpr hfresh)

variable (name) in
/-- A slot was due at a call less than some seconds ago. -/
def IsRetained (ttl : ℤ) (calls : List RetainCall) (now : ℚ) (slot : String) : Prop :=
  ∃ call ∈ calls, now < call.timestamp + ttl ∧ IsDue name call slot

/-- The result is the sorted list of what is remembered. -/
theorem isSortedListOf_retainAll {last : RetainCall} (hlast : calls.getLast? = some last)
    (names : String → Prop) :
    IsSortedListOf names (retainAll name calls).2 ↔
      ∀ slot, slot ∈ (retainAll name calls).1 ↔ names slot := by
  obtain ⟨earlier, rfl⟩ := List.getLast?_eq_some_iff.mp hlast
  rw [retainAll, List.foldl_append]
  exact isSortedListOf_sortedNames (AList.keys_nodup _) names

/-- The result is the list of the slots that were due less than `member_slots_ttl` seconds ago, if
and only if the own slot was due as well, should the node have overlooked itself in that time. -/
theorem retention_iff (httl : ∀ call ∈ calls, call.config.memberSlotsTtl = ttl)
    (htimes : calls.Pairwise fun c c' => c.timestamp ≤ c'.timestamp) {last : RetainCall}
    (hlast : calls.getLast? = some last) :
    IsSortedListOf (IsRetained name ttl calls last.timestamp) (retainAll name calls).2 ↔
      ((∃ call ∈ calls, last.timestamp < call.timestamp + ttl ∧ OverlooksSelf name call) →
        IsRetained name ttl calls last.timestamp (slotNameFromMemberName name)) := by
  rw [isSortedListOf_retainAll hlast]
  simp only [(remembers_retainAll httl htimes hlast).mem_iff, mem_seenSlots_iff]
  constructor
  · rintro h ⟨call, hcall, hfresh, hoverlooks⟩
    exact (h _).mp ⟨call, hcall, hfresh, .inr ⟨rfl, hoverlooks⟩⟩
  · intro hown slot
    constructor
    · rintro ⟨call, hcall, hfresh, hdue | ⟨rfl, hoverlooks⟩⟩
      · exact ⟨call, hcall, hfresh, hdue⟩
      · exact hown ⟨call, hcall, hfresh, hoverlooks⟩
    · rintro ⟨call, hcall, hfresh, hdue⟩
      exact ⟨call, hcall, hfresh, .inl hdue⟩

end

/-- A call of the leader `a`, whose member key is in front of that of `b`. -/
def callOfA (nostream : Bool) (slot : String) : RetainCall where
  config := ⟨true, false, 1800, ∅⟩
  cluster := ⟨none, [⟨"a", ⟨false, nostream, none⟩, none, none⟩, member "b" none], ∅, []⟩
  slots := some ((∅ : Dict String ℤ).set slot 100)
  timestamp := 0

/-- Ten minutes later the slot of `b` has disappeared. -/
def callsOfA : List RetainCall :=
  [callOfA false "b", { callOfA false "c" with timestamp := 600 }]

/-- The slot of `b` is retained. -/
theorem retention_callOfA :
    (retainAll "a" callsOfA).2 = some ["b"] ∧
      IsSortedListOf (IsRetained "a" 1800 callsOfA 600) (retainAll "a" callsOfA).2 := by
  refine ⟨by decide +kernel, (@retention_iff _ "a" 1800 callsOfA (by simp [callsOfA, callOfA])
    (by simp [callsOfA, callOfA]) _ rfl).mpr ?_⟩
  rintro ⟨call, hcall, -, hown, -⟩
  rcases List.mem_pair.mp hcall with rfl | rfl <;> exact absurd hown (by decide +kernel)

/-- The slot of `a` is retained, although `a` does not stream and its member key is there. -/
theorem not_retention_nostream :
    ¬IsSortedListOf (IsRetained "a" 1800 [callOfA true "a"] 0)
      (retainAll "a" [callOfA true "a"]).2 := by
  rintro ⟨-, -, hmem⟩
  obtain ⟨call, hcall, -, -, -, hdue⟩ := (hmem "a").mp (by decide +kernel)
  rw [List.mem_singleton.mp hcall] at hdue
  exact absurd hdue (by decide +kernel)

end Metatroni.Slots
