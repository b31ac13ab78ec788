import Mathlib.Data.Finset.Card
import Mathlib.Data.List.Sort
import Mathlib.Data.String.Basic

/-!
# Case-insensitive collections of node names

`CaseInsensitiveSet` keeps one value for each lower-cased name, in insertion
order, and remembers the case in which a name was last added. The set algebra
is the one that `MutableSet` derives from `_from_iterable`: a union replaces
the case by the right operand's, an intersection keeps the right operand's
values, a difference the left operand's.

Every operation is connected to the finite set of lower-cased keys, which is
what membership, comparison and size of these sets are about.
-/

namespace Metatroni

/-- Node names: compared and sorted case-sensitively, folded with `str.lower`
when they are looked up in a case-insensitive collection. -/
class NodeName (ν : Type) extends LinearOrder ν where
  lower : ν → ν

export NodeName (lower)

instance : NodeName String where
  lower := String.toLower

/-- `CaseInsensitiveSet`: the values of its dictionary, whose keys are distinct. -/
structure CaseInsensitiveSet (ν : Type) [NodeName ν] where
  values : List ν
  nodup : (values.map lower).Nodup
  deriving DecidableEq

namespace CaseInsensitiveSet

variable {ν : Type} [NodeName ν]

/-- Assign a value in the dictionary: replace the value of an existing key in
its place, or append. -/
def assign (v : ν) : List ν → List ν
  | [] => [v]
  | w :: ws => if lower w = lower v then v :: ws else w :: assign v ws

theorem map_lower_assign (v : ν) (ws : List ν) :
    (assign v ws).map lower =
      if lower v ∈ ws.map lower then ws.map lower else ws.map lower ++ [lower v] := by
  induction ws with
  | nil => simp [assign]
  | cons w ws ih =>
      by_cases h : lower w = lower v
      · simp [assign, h]
      · have h' : lower v ≠ lower w := fun e => h e.symm
        simp only [assign, if_neg h, List.map_cons, ih, List.mem_cons, h', false_or]
        split <;> simp

/-- `add`: the last case of a name wins. -/
def add (s : CaseInsensitiveSet ν) (v : ν) : CaseInsensitiveSet ν where
  values := assign v s.values
  nodup := by
    rw [map_lower_assign]
    split
    · exact s.nodup
    · next h => exact List.nodup_append.mpr ⟨s.nodup, by simp, by
        intro a ha b hb hab
        rw [List.mem_singleton] at hb
        exact h (hb ▸ hab ▸ ha)⟩

instance : EmptyCollection (CaseInsensitiveSet ν) := ⟨⟨[], by simp⟩⟩

/-- The constructor, also `_from_iterable` of the set operations. -/
def ofList (vs : List ν) : CaseInsensitiveSet ν := vs.foldl add ∅

theorem assign_of_notMem {v : ν} {ws : List ν} (h : lower v ∉ ws.map lower) :
    assign v ws = ws ++ [v] := by
  induction ws with
  | nil => rfl
  | cons w ws ih =>
      rw [List.map_cons, List.mem_cons, not_or] at h
      rw [assign, if_neg (Ne.symm h.1), ih h.2]
      rfl

theorem mem_of_mem_assign {v x : ν} {ws : List ν} (h : x ∈ assign v ws) : x = v ∨ x ∈ ws := by
  induction ws with
  | nil => exact .inl (List.mem_singleton.mp h)
  | cons w ws ih =>
      unfold assign at h
      split at h
      · exact (List.mem_cons.mp h).imp_right (List.mem_cons_of_mem w)
      · rcases List.mem_cons.mp h with rfl | hmem
        · exact .inr List.mem_cons_self
        · exact (ih hmem).imp_right (List.mem_cons_of_mem w)

/-- Names that are distinct stay as they are. -/
theorem values_ofList {vs : List ν} (h : (vs.map lower).Nodup) : (ofList vs).values = vs := by
  have hfold : ∀ (vs : List ν) (s : CaseInsensitiveSet ν), ((s.values ++ vs).map lower).Nodup →
      (vs.foldl add s).values = s.values ++ vs := by
    intro vs
    induction vs with
    | nil =>
        intro s _
        exact (List.append_nil _).symm
    | cons v vs ih =>
        intro s hs
        have hnotMem : lower v ∉ s.values.map lower := by
          intro hmem
          rw [List.map_append, List.map_cons] at hs
          exact List.disjoint_of_nodup_append hs hmem List.mem_cons_self
        have hadd : (s.add v).values = s.values ++ [v] := assign_of_notMem hnotMem
        rw [List.foldl_cons, ih (s.add v) (by rw [hadd]; simpa using hs), hadd]
        simp
  exact hfold vs ∅ h

theorem mem_of_mem_values_ofList {vs : List ν} {x : ν} (h : x ∈ (ofList vs).values) : x ∈ vs := by
  have hfold : ∀ (vs : List ν) (s : CaseInsensitiveSet ν), x ∈ (vs.foldl add s).values →
      x ∈ s.values ∨ x ∈ vs := by
    intro vs
    induction vs with
    | nil => exact fun s hx => .inl hx
    | cons v vs ih =>
        intro s hx
        rcases ih (s.add v) hx with hmem | hmem
        · rcases mem_of_mem_assign hmem with rfl | hmem
          · exact .inr List.mem_cons_self
          · exact .inl hmem
        · exact .inr (List.mem_cons_of_mem v hmem)
  exact (hfold vs ∅ h).resolve_left List.not_mem_nil

/-- `__contains__`. -/
instance : Membership ν (CaseInsensitiveSet ν) where
  mem s v := lower v ∈ s.values.map lower

instance (s : CaseInsensitiveSet ν) (v : ν) : Decidable (v ∈ s) :=
  inferInstanceAs (Decidable (lower v ∈ s.values.map lower))

/-- `__len__`. -/
def len (s : CaseInsensitiveSet ν) : ℤ := s.values.length

instance : Union (CaseInsensitiveSet ν) where
  union s t := ofList (s.values ++ t.values)

instance : Inter (CaseInsensitiveSet ν) where
  inter s t := ofList (t.values.filter (· ∈ s))

instance : SDiff (CaseInsensitiveSet ν) where
  sdiff s t := ofList (s.values.filter (· ∉ t))

/-- `discard`. -/
def discard (s : CaseInsensitiveSet ν) (v : ν) : CaseInsensitiveSet ν where
  values := s.values.filter (fun w => lower w ≠ lower v)
  nodup := s.nodup.sublist (List.filter_sublist.map lower)

/-- `__le__`, also `issubset`: a size test first, then membership of every value. -/
instance : LE (CaseInsensitiveSet ν) where
  le s t := s.len ≤ t.len ∧ ∀ v ∈ s.values, v ∈ t

instance (s t : CaseInsensitiveSet ν) : Decidable (s ≤ t) :=
  inferInstanceAs (Decidable (s.len ≤ t.len ∧ ∀ v ∈ s.values, v ∈ t))

/-- `__lt__`, and `__gt__` with its operands exchanged. -/
instance : LT (CaseInsensitiveSet ν) where
  lt s t := s.len < t.len ∧ s ≤ t

instance (s t : CaseInsensitiveSet ν) : Decidable (s < t) :=
  inferInstanceAs (Decidable (s.len < t.len ∧ s ≤ t))

/-- `__eq__`: equal up to the case of the names. -/
def Same (s t : CaseInsensitiveSet ν) : Prop := s.len = t.len ∧ s ≤ t

instance (s t : CaseInsensitiveSet ν) : Decidable (s.Same t) :=
  inferInstanceAs (Decidable (s.len = t.len ∧ s ≤ t))

/-- Truth value of a set: it is not empty. -/
def Truthy (s : CaseInsensitiveSet ν) : Prop := s.len ≠ 0

instance (s : CaseInsensitiveSet ν) : Decidable s.Truthy :=
  inferInstanceAs (Decidable (s.len ≠ 0))

/-- `sorted(s)`. -/
def sorted (s : CaseInsensitiveSet ν) : List ν := s.values.insertionSort (· ≤ ·)

/-- `sorted(s, reverse=True)`. -/
def sortedReverse (s : CaseInsensitiveSet ν) : List ν := s.values.insertionSort (· ≥ ·)

/-- `CaseInsensitiveSet(names[:n])` for a sorted list of names; a negative
bound counts from the end, as in every Python slice. -/
def firstOf (names : List ν) (n : ℤ) : CaseInsensitiveSet ν :=
  ofList (names.take (if 0 ≤ n then n else names.length + n).toNat)

/-! ## The finite set of keys -/

/-- The lower-cased names of the set. -/
def keys (s : CaseInsensitiveSet ν) : Finset ν := (s.values.map lower).toFinset

theorem mem_iff (s : CaseInsensitiveSet ν) (v : ν) : v ∈ s ↔ lower v ∈ s.keys := by
  change lower v ∈ s.values.map lower ↔ _
  rw [keys, List.mem_toFinset]

theorem len_eq (s : CaseInsensitiveSet ν) : s.len = s.keys.card := by
  rw [len, keys, List.toFinset_card_of_nodup s.nodup, List.length_map]

@[simp] theorem keys_empty : (∅ : CaseInsensitiveSet ν).keys = ∅ := rfl

theorem keys_add (s : CaseInsensitiveSet ν) (v : ν) : (s.add v).keys = insert (lower v) s.keys := by
  ext k
  simp only [keys, add, map_lower_assign, List.mem_toFinset, Finset.mem_insert]
  split
  · next h =>
      constructor
      · exact Or.inr
      · rintro (rfl | hk)
        · exact h
        · exact hk
  · rw [List.mem_append, List.mem_singleton, or_comm]

theorem keys_foldl_add (s : CaseInsensitiveSet ν) (vs : List ν) :
    (vs.foldl add s).keys = s.keys ∪ (vs.map lower).toFinset := by
  induction vs generalizing s with
  | nil => simp
  | cons v vs ih =>
      rw [List.foldl_cons, ih, keys_add, List.map_cons, List.toFinset_cons,
        Finset.insert_union, Finset.union_insert]

@[simp] theorem keys_ofList (vs : List ν) : (ofList vs).keys = (vs.map lower).toFinset := by
  rw [ofList, keys_foldl_add, keys_empty, Finset.empty_union]

@[simp] theorem keys_union (s t : CaseInsensitiveSet ν) : (s ∪ t).keys = s.keys ∪ t.keys := by
  change (ofList (s.values ++ t.values)).keys = _
  rw [keys_ofList, List.map_append, List.toFinset_append]
  rfl

@[simp] theorem keys_inter (s t : CaseInsensitiveSet ν) : (s ∩ t).keys = s.keys ∩ t.keys := by
  change (ofList (t.values.filter (· ∈ s))).keys = _
  ext k
  rw [keys_ofList]
  simp only [List.mem_toFinset, List.mem_map, List.mem_filter, decide_eq_true_eq, mem_iff,
    Finset.mem_inter]
  constructor
  · rintro ⟨v, ⟨hv, hs⟩, rfl⟩
    exact ⟨hs, List.mem_toFinset.mpr (List.mem_map_of_mem hv)⟩
  · rintro ⟨hs, ht⟩
    obtain ⟨v, hv, rfl⟩ := List.mem_map.mp (List.mem_toFinset.mp ht)
    exact ⟨v, ⟨hv, hs⟩, rfl⟩

@[simp] theorem keys_sdiff (s t : CaseInsensitiveSet ν) : (s \ t).keys = s.keys \ t.keys := by
  change (ofList (s.values.filter (· ∉ t))).keys = _
  ext k
  rw [keys_ofList]
  simp only [List.mem_toFinset, List.mem_map, List.mem_filter, decide_eq_true_eq, mem_iff,
    Finset.mem_sdiff]
  constructor
  · rintro ⟨v, ⟨hv, ht⟩, rfl⟩
    exact ⟨List.mem_toFinset.mpr (List.mem_map_of_mem hv), ht⟩
  · rintro ⟨hs, ht⟩
    obtain ⟨v, hv, rfl⟩ := List.mem_map.mp (List.mem_toFinset.mp hs)
    exact ⟨v, ⟨hv, ht⟩, rfl⟩

@[simp] theorem keys_discard (s : CaseInsensitiveSet ν) (v : ν) :
    (s.discard v).keys = s.keys.erase (lower v) := by
  ext k
  simp only [keys, discard, List.mem_toFinset, List.mem_map, List.mem_filter, decide_eq_true_eq,
    Finset.mem_erase]
  constructor
  · rintro ⟨w, ⟨hw, hne⟩, rfl⟩
    exact ⟨hne, w, hw, rfl⟩
  · rintro ⟨hne, w, hw, rfl⟩
    exact ⟨w, ⟨hw, hne⟩, rfl⟩

theorem le_iff (s t : CaseInsensitiveSet ν) : s ≤ t ↔ s.keys ⊆ t.keys := by
  change s.len ≤ t.len ∧ (∀ v ∈ s.values, v ∈ t) ↔ _
  have hmem : (∀ v ∈ s.values, v ∈ t) ↔ s.keys ⊆ t.keys := by
    simp only [mem_iff, Finset.subset_iff, keys, List.mem_toFinset, List.mem_map,
      forall_exists_index, and_imp, forall_apply_eq_imp_iff₂]
  rw [hmem, len_eq, len_eq]
  constructor
  · exact And.right
  · intro h
    exact ⟨by exact_mod_cast Finset.card_le_card h, h⟩

theorem lt_iff (s t : CaseInsensitiveSet ν) : s < t ↔ s.keys ⊂ t.keys := by
  change s.len < t.len ∧ s ≤ t ↔ _
  rw [le_iff, len_eq, len_eq, Finset.ssubset_iff_subset_ne]
  constructor
  · rintro ⟨hlt, hsub⟩
    refine ⟨hsub, fun he => ?_⟩
    rw [he] at hlt
    exact lt_irrefl _ hlt
  · rintro ⟨hsub, hne⟩
    exact ⟨by exact_mod_cast Finset.card_lt_card (Finset.ssubset_iff_subset_ne.mpr ⟨hsub, hne⟩),
      hsub⟩

theorem same_iff (s t : CaseInsensitiveSet ν) : s.Same t ↔ s.keys = t.keys := by
  change s.len = t.len ∧ s ≤ t ↔ _
  rw [le_iff, len_eq, len_eq]
  constructor
  · rintro ⟨hlen, hsub⟩
    exact Finset.eq_of_subset_of_card_le hsub (by exact_mod_cast hlen.ge)
  · intro h
    rw [h]
    exact ⟨rfl, Finset.Subset.refl _⟩

theorem truthy_iff (s : CaseInsensitiveSet ν) : s.Truthy ↔ s.keys ≠ ∅ := by
  change s.len ≠ 0 ↔ _
  rw [len_eq]
  simp

/-- A slice of any ordering of the values picks some of the names. -/
theorem keys_firstOf_subset (s : CaseInsensitiveSet ν) {names : List ν} (h : names.Perm s.values)
    (n : ℤ) : (firstOf names n).keys ⊆ s.keys := by
  intro k hk
  rw [firstOf, keys_ofList, List.mem_toFinset] at hk
  rw [keys, List.mem_toFinset]
  exact (h.map lower).mem_iff.mp (((List.take_sublist _ _).map lower).subset hk)

/-- With a bound that is not negative it picks that many of them. -/
theorem firstOf_spec (s : CaseInsensitiveSet ν) {names : List ν} (h : names.Perm s.values) {n : ℤ}
    (hn : 0 ≤ n) :
    (firstOf names n).keys ⊆ s.keys ∧
      ((firstOf names n).keys.card : ℤ) = min n s.keys.card := by
  have hnodup : (names.map lower).Nodup := (h.map lower).nodup_iff.mpr s.nodup
  have hsub : ((names.take n.toNat).map lower).Sublist (names.map lower) :=
    (List.take_sublist _ _).map lower
  refine ⟨s.keys_firstOf_subset h n, ?_⟩
  have hlen : (s.values.length : ℤ) = s.keys.card := len_eq s
  rw [firstOf, if_pos hn, keys_ofList, List.toFinset_card_of_nodup (hnodup.sublist hsub),
    List.length_map, List.length_take, h.length_eq]
  omega

theorem sorted_perm (s : CaseInsensitiveSet ν) : s.sorted.Perm s.values :=
  List.perm_insertionSort _ _

theorem sortedReverse_perm (s : CaseInsensitiveSet ν) : s.sortedReverse.Perm s.values :=
  List.perm_insertionSort _ _

end CaseInsensitiveSet

end Metatroni
