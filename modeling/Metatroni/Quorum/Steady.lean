import Metatroni.Quorum.Phases

/-!
# The phases from a steady state

Once voters and synchronous nodes are the same, only a few numbers decide how
the resolver goes on: the size of the set, how many of its nodes are gone and
how many active nodes are new. This file follows the remaining phases in these
numbers.
-/

namespace Metatroni

open Generators

variable {ν : Type} [NodeName ν]

namespace QuorumStateResolver

variable {A T : Finset ν} {c w q n : ℤ} {s : QuorumStateResolver ν}

@[simp] theorem adjustment_true (n c : ℤ) : adjustment true n c = max (n - c) 0 := rfl

@[simp] theorem adjustment_false (n c : ℤ) : adjustment false n c = 0 := rfl

theorem Balanced.of_card_le {q n : ℤ} (h : (T.card : ℤ) ≤ q + n) : Balanced q T n T := by
  refine ⟨?_, Or.inl (Finset.Subset.refl T)⟩
  intro _
  rw [Finset.union_self]
  exact h

namespace Steady

theorem nonempty (h : Steady A c w q n T s) : T ≠ ∅ := by
  rintro rfl
  have hone := h.one_le
  have hle := h.le_card
  rw [Finset.card_empty] at hle
  omega

theorem subset_all (T A : Finset ν) : T ⊆ T ∪ T ∪ A :=
  Finset.subset_union_left.trans Finset.subset_union_left

theorem len_union (h : Steady A c w q n T s) : (s.voters ∪ s.sync).len = T.card := by
  rw [CaseInsensitiveSet.len_eq, CaseInsensitiveSet.keys_union, h.voters, h.sync, Finset.union_self]

/-- A change of the quorum alone. -/
theorem reaches_quorum (h : Steady A c w q n T s) {q' r : ℤ} {adjustQuorum : Bool} (hr : q' = r)
    (h₀ : 0 ≤ r) (h₁ : r < T.card) (hoverlap : (T.card : ℤ) ≤ r + n) :
    Gen.Reaches (quorumUpdate q' s.voters none adjustQuorum) s
      (Steady A c w (r + adjustment adjustQuorum n c) n T) := by
  have hadjust := adjustment_nonneg adjustQuorum n c
  have hoverlap' : (T.card : ℤ) ≤ r + adjustment adjustQuorum n c + n := by omega
  refine (h.toAt.reaches_quorum (Or.inr h.nonempty) hr h.voters h₀ (Or.inr h₁) (subset_all T A)
    (Balanced.of_card_le hoverlap')).mono fun s' hat => ?_
  exact ⟨hat, hoverlap', by omega, h.one_le, h.le_card⟩

/-- A change of the number of synchronous nodes alone. -/
theorem reaches_sync (h : Steady A c w q n T s) {n' m : ℤ} (hm : n' = m) (h₁ : 1 ≤ m)
    (hle : m ≤ T.card) (hoverlap : (T.card : ℤ) ≤ q + m) :
    Gen.Reaches (syncUpdate n' s.sync) s (Steady A c w q m T) := by
  refine (h.toAt.reaches_sync hm h.sync (by omega) hle (subset_all T A)
    (Balanced.of_card_le hoverlap)).mono fun s' hat => ?_
  exact ⟨hat, hoverlap, h.quorum_nonneg, h₁, hle⟩

end Steady

/-! ## Trimming the margin -/

/-- `numsync` after cases 3 and 4, for `t` nodes. -/
def trimmedNumsync (c w q n t : ℤ) : ℤ :=
  if t < q + min n c ∧ w < n then max w (t - q) else n

/-- The quorum after cases 3 and 4. -/
def trimmedQuorum (c w q n t : ℤ) : ℤ :=
  if (t < q + min n c ∧ n ≤ w) ∨ (q + min n c ≤ t ∧ n = w ∧ t < q + n ∧ c < n) then
    t - n + max (n - c) 0
  else q

/-- Cases 3 and 4 never raise. -/
theorem Steady.reaches_trimMargin (h : Steady A c w q n T s) (hw : 1 ≤ w) :
    Gen.Reaches trimMargin s
      (Steady A c w (trimmedQuorum c w q n T.card) (trimmedNumsync c w q n T.card) T) := by
  have hone := h.one_le
  have hle := h.le_card
  have hq := h.quorum_nonneg
  have hquorum : s.sync.len - s.numsync = T.card - n := by
    rw [CaseInsensitiveSet.len_eq, h.sync, h.numsync]
  apply Gen.Reaches.bindSelf
  simp only [h.len_union, h.quorum, h.numsync, h.confirmed, h.wanted]
  split
  · next hmargin =>
      split
      · next hgt =>
          have hvoters : max w (s.voters.len - q) = max w (T.card - q) := by
            rw [CaseInsensitiveSet.len_eq, h.voters]
          rw [trimmedQuorum, if_neg (by omega), trimmedNumsync, if_pos (by omega)]
          exact h.reaches_sync hvoters (by omega) (by omega) (by omega)
      · next hle' =>
          rw [trimmedQuorum, if_pos (by omega), trimmedNumsync, if_neg (by omega)]
          rw [← h.numsync, hquorum, h.numsync]
          exact h.reaches_quorum rfl (by omega) (by omega) (by omega)
  · next hmargin =>
      apply Gen.reaches_when
      · intro hcond
        simp only [h.len_union, h.quorum, h.numsync, h.confirmed, h.wanted] at hcond
        rw [trimmedQuorum, if_pos (by omega), trimmedNumsync, if_neg (by omega)]
        rw [← h.numsync, hquorum, h.numsync]
        exact h.reaches_quorum rfl (by omega) (by omega) (by omega)
      · intro hcond
        simp only [h.len_union, h.quorum, h.numsync, h.confirmed, h.wanted] at hcond
        rw [trimmedQuorum, if_neg (by omega), trimmedNumsync, if_neg (by omega)]
        exact h

/-! ## Removing nodes that are gone -/

/-- The quorum for `k` nodes that are left, all of which had to be waited for. -/
def leftQuorum (w k : ℤ) : ℤ := if k ≤ w then 0 else k - w

theorem At.reaches_removeRemaining {toRemove : CaseInsensitiveSet ν} {U K : Finset ν}
    (h : At A c w 0 U U.card U s) (hsub : toRemove.keys ⊆ U) (hK : U \ toRemove.keys = K)
    (hne : K ≠ ∅) (hw : 1 ≤ w) :
    Gen.Reaches (removeRemaining toRemove) s (Steady A c w (leftQuorum w K.card) K.card K) := by
  have hpos := Finset.card_pos.mpr (Finset.nonempty_iff_ne_empty.mpr hne)
  have hsubset : K ⊆ U := hK ▸ Finset.sdiff_subset
  have hcard := Finset.card_sdiff_add_card_eq_card hsub
  rw [hK] at hcard
  have hU : U ≠ ∅ := fun hempty => hne (Finset.subset_empty.mp (hempty ▸ hsubset))
  have hleft : 0 ≤ leftQuorum w K.card ∧ leftQuorum w K.card < K.card := by
    rw [leftQuorum]
    split <;> omega
  refine Gen.Reaches.bind (Gen.reaches_check (if_pos h.quorum) h) fun s₁ h₁ => ?_
  have hnum : s₁.numsync - toRemove.len = K.card := by
    rw [CaseInsensitiveSet.len_eq, h₁.numsync]
    omega
  have hvoters : (s₁.voters \ toRemove).keys = K := by
    rw [CaseInsensitiveSet.keys_sdiff, h₁.voters, hK]
  have hsync : (s₁.sync \ toRemove).keys = K := by
    rw [CaseInsensitiveSet.keys_sdiff, h₁.sync, hK]
  have hquorum : (if s₁.numsync - toRemove.len - min s₁.syncWanted (s₁.sync \ toRemove).len ≠ 0
      then min (s₁.numsync - toRemove.len - min s₁.syncWanted (s₁.sync \ toRemove).len)
        ((s₁.voters \ toRemove).len - 1)
      else 0) = leftQuorum w K.card := by
    rw [hnum, h₁.wanted, CaseInsensitiveSet.len_eq, CaseInsensitiveSet.len_eq, hvoters, hsync,
      leftQuorum]
    split <;> split <;> omega
  apply Gen.Reaches.bindSelf
  refine Gen.Reaches.bind (h₁.reaches_quorum (Or.inr hU) hquorum hvoters hleft.1 (Or.inr hleft.2)
    (hsubset.trans (Steady.subset_all U A)) ?_) fun s₂ h₂ => ?_
  · refine ⟨?_, Or.inl hsubset⟩
    intro _
    rw [Finset.union_eq_right.mpr hsubset, adjustment_false]
    omega
  · rw [adjustment_false, Int.add_zero] at h₂
    refine (h₂.reaches_sync hnum hsync (by omega) le_rfl ?_ ?_).mono fun s₃ h₃ => ?_
    · exact Finset.subset_union_left.trans Finset.subset_union_left
    · exact Balanced.of_card_le (by omega)
    · exact ⟨h₃, by omega, hleft.1, by omega, le_rfl⟩

/-- What follows once the removed nodes are no longer synchronous. -/
def removeVoters (toRemove remove : CaseInsensitiveSet ν) : Method ν := do
  let self ← Gen.self
  quorumUpdate ((self.voters \ remove).len - self.numsync) (self.voters \ remove) none
    (¬ (self.sync ∩ toRemove).Truthy)
  Gen.when (self.sync ∩ toRemove).Truthy (removeRemaining (self.sync ∩ toRemove))

section RemoveVoters

variable {toRemove remove : CaseInsensitiveSet ν}

/-- All nodes that are gone fit into the quorum. -/
theorem At.reaches_removeVoters {m : ℤ} (h : At A c w q T m (T ∩ A) s)
    (hR : toRemove.keys = T \ A) (hremove : remove.keys = T \ A) (hK : T ∩ A ≠ ∅) (h₁ : 1 ≤ m)
    (hm : m ≤ (T ∩ A).card) :
    Gen.Reaches (removeVoters toRemove remove) s
      (Steady A c w ((T ∩ A).card - m + max (m - c) 0) m (T ∩ A)) := by
  have hT : T ≠ ∅ := fun hempty => hK (by rw [hempty, Finset.empty_inter])
  have hvoters : (s.voters \ remove).keys = T ∩ A := by
    rw [CaseInsensitiveSet.keys_sdiff, h.voters, hremove, sdiff_sdiff_right_self,
      Finset.inf_eq_inter]
  have hquorum : (s.voters \ remove).len - s.numsync = (T ∩ A).card - m := by
    rw [CaseInsensitiveSet.len_eq, hvoters, h.numsync]
  have hnone : ¬ (s.sync ∩ toRemove).Truthy := by
    rw [CaseInsensitiveSet.truthy_iff, CaseInsensitiveSet.keys_inter, h.sync, hR, not_not]
    exact Finset.disjoint_iff_inter_eq_empty.mp (Finset.disjoint_sdiff_inter T A).symm
  have hadjust := adjustment_nonneg (decide (¬ (s.sync ∩ toRemove).Truthy)) m c
  apply Gen.Reaches.bindSelf
  refine Gen.Reaches.bind (h.reaches_quorum (Or.inr hT) hquorum hvoters (by omega)
    (Or.inr (by omega)) (Finset.inter_subset_left.trans
      (Finset.subset_union_left.trans Finset.subset_union_left))
    (Balanced.of_card_le (by omega))) fun s₁ h' => ?_
  apply Gen.reaches_when
  · exact fun htruthy => absurd htruthy hnone
  · intro _
    rw [decide_eq_true hnone, adjustment_true] at h'
    exact ⟨h', by omega, by omega, h₁, hm⟩

/-- The quorum is used up, and the other nodes had to be waited for. -/
theorem At.reaches_removeVoters_rest {U : Finset ν} (h : At A c w q T U.card U s)
    (hR : toRemove.keys = T \ A) (hremove : remove.keys ⊂ T \ A) (hU : T \ remove.keys = U)
    (hK : T ∩ A ≠ ∅) (hw : 1 ≤ w) :
    Gen.Reaches (removeVoters toRemove remove) s
      (Steady A c w (leftQuorum w (T ∩ A).card) (T ∩ A).card (T ∩ A)) := by
  have hT : T ≠ ∅ := fun hempty => hK (by rw [hempty, Finset.empty_inter])
  have hvoters : (s.voters \ remove).keys = U := by
    rw [CaseInsensitiveSet.keys_sdiff, h.voters, hU]
  have hquorum : (s.voters \ remove).len - s.numsync = 0 := by
    rw [CaseInsensitiveSet.len_eq, hvoters, h.numsync]
    omega
  have hleft : (s.sync ∩ toRemove).keys = (T \ A) \ remove.keys := by
    rw [CaseInsensitiveSet.keys_inter, h.sync, hR, ← hU]
    ext x
    simp only [Finset.mem_inter, Finset.mem_sdiff]
    tauto
  have hsome : (s.sync ∩ toRemove).Truthy := by
    rw [CaseInsensitiveSet.truthy_iff, hleft, Ne, Finset.sdiff_eq_empty_iff_subset]
    exact hremove.2
  have hadjust := adjustment_nonneg (decide (¬ (s.sync ∩ toRemove).Truthy)) U.card c
  apply Gen.Reaches.bindSelf
  refine Gen.Reaches.bind (h.reaches_quorum (Or.inr hT) hquorum hvoters le_rfl (Or.inl rfl)
    (Finset.subset_union_right.trans Finset.subset_union_left)
    (Balanced.of_card_le (by omega))) fun s₁ h₁ => ?_
  apply Gen.reaches_when
  · intro _
    rw [decide_eq_false (not_not.mpr hsome), adjustment_false, Int.add_zero] at h₁
    apply h₁.reaches_removeRemaining _ _ hK hw
    · rw [hleft, ← hU]
      exact Finset.sdiff_subset_sdiff Finset.sdiff_subset (Finset.Subset.refl _)
    · rw [hleft, ← hU]
      ext x
      have hx : x ∈ remove.keys → x ∈ T \ A := fun hmem => hremove.subset hmem
      simp only [Finset.mem_inter, Finset.mem_sdiff] at hx ⊢
      tauto
  · exact fun hnot => absurd hsome hnot

end RemoveVoters

/-- `numsync` after the removal of `g` nodes of which `k` are left. -/
def remainingNumsync (w q n g k : ℤ) : ℤ :=
  if g = 0 then n else if g ≤ q then min (max w n) k else k

/-- The quorum after that. -/
def remainingQuorum (c w q n g k : ℤ) : ℤ :=
  if g = 0 then q
  else if g ≤ q then k - min (max w n) k + max (min (max w n) k - c) 0
  else leftQuorum w k

/-- Nodes that are gone are removed by giving up quorum, as far as it goes. -/
theorem Steady.reaches_removeByQuorum {toRemove : CaseInsensitiveSet ν}
    (h : Steady A c w q n T s) (hR : toRemove.keys = T \ A) (hK : T ∩ A ≠ ∅) (hG : T \ A ≠ ∅)
    (hw : 1 ≤ w) :
    Gen.Reaches (removeByQuorum toRemove) s
      (Steady A c w (remainingQuorum c w q n (T \ A).card (T ∩ A).card)
        (remainingNumsync w q n (T \ A).card (T ∩ A).card) (T ∩ A)) := by
  have hk := Finset.card_pos.mpr (Finset.nonempty_iff_ne_empty.mpr hK)
  have hg := Finset.card_pos.mpr (Finset.nonempty_iff_ne_empty.mpr hG)
  have hsum := Finset.card_inter_add_card_sdiff T A
  have hone := h.one_le
  have hle := h.le_card
  have hnonneg := h.quorum_nonneg
  have hoverlap := h.overlap
  obtain ⟨hremsub, hremcard⟩ := toRemove.firstOf_spec toRemove.sortedReverse_perm hnonneg
  rw [hR] at hremsub hremcard
  apply Gen.Reaches.bindSelf
  simp only [h.quorum]
  generalize CaseInsensitiveSet.firstOf toRemove.sortedReverse q = remove at hremsub hremcard ⊢
  have hrest := Finset.card_sdiff_add_card_eq_card (hremsub.trans Finset.sdiff_subset)
  have hsync : (s.sync \ remove).keys = T \ remove.keys := by
    rw [CaseInsensitiveSet.keys_sdiff, h.sync]
  have hnum : min (if s.numsync < s.syncWanted then s.syncWanted else s.numsync)
      (s.sync \ remove).len = min (max w n) (T \ remove.keys).card := by
    rw [CaseInsensitiveSet.len_eq, hsync, h.numsync, h.wanted]
    split <;> omega
  have hsubset : T \ remove.keys ⊆ T := Finset.sdiff_subset
  refine Gen.Reaches.bind (h.toAt.reaches_sync hnum hsync (by omega) (by omega)
    (hsubset.trans (subset_all T A)) ?_) fun s₁ h₁ => ?_
  · refine ⟨?_, Or.inr hsubset⟩
    intro _
    rw [Finset.union_eq_left.mpr hsubset]
    omega
  by_cases hall : ((T \ A).card : ℤ) ≤ q
  · have hremove : remove.keys = T \ A := by
      apply Finset.eq_of_subset_of_card_le hremsub
      omega
    rw [hremove, sdiff_sdiff_right_self, Finset.inf_eq_inter] at h₁
    rw [remainingQuorum, if_neg (by omega), if_pos hall, remainingNumsync, if_neg (by omega),
      if_pos hall]
    exact h₁.reaches_removeVoters hR hremove hK (by omega) (min_le_right _ _)
  · have hremove : remove.keys ⊂ T \ A := by
      refine ⟨hremsub, fun hsub => ?_⟩
      have hle := Finset.card_le_card hsub
      omega
    rw [show min (max w n) ((T \ remove.keys).card : ℤ) = (T \ remove.keys).card by omega] at h₁
    rw [remainingQuorum, if_neg (by omega), if_neg hall, remainingNumsync, if_neg (by omega),
      if_neg hall]
    exact h₁.reaches_removeVoters_rest hR hremove rfl hK hw

/-- Removing some of the nodes never raises. -/
theorem Steady.reaches_removeGoneNodes (h : Steady A c w q n T s) (hK : T ∩ A ≠ ∅) (hw : 1 ≤ w) :
    Gen.Reaches removeGoneNodes s
      (Steady A c w (remainingQuorum c w q n (T \ A).card (T ∩ A).card)
        (remainingNumsync w q n (T \ A).card (T ∩ A).card) (T ∩ A)) := by
  have hgone : (s.sync \ s.active).keys = T \ A := by
    rw [CaseInsensitiveSet.keys_sdiff, h.sync, h.active]
  have hnotall : ¬ ((s.sync \ s.active).Truthy ∧ s.sync.Same (s.sync \ s.active)) := by
    rw [CaseInsensitiveSet.same_iff, hgone, h.sync]
    rintro ⟨-, heq⟩
    apply hK
    rw [heq, Finset.sdiff_inter_self]
  apply Gen.Reaches.bindSelf
  rw [if_neg hnotall]
  apply Gen.reaches_when
  · intro htruthy
    rw [CaseInsensitiveSet.truthy_iff, hgone] at htruthy
    have hg := Finset.card_pos.mpr (Finset.nonempty_iff_ne_empty.mpr htruthy)
    by_cases hq : q = 0
    · -- all nodes have to be waited for
      have hn : n = T.card := by
        have hoverlap := h.overlap
        have hle := h.le_card
        omega
      rw [h.quorum, if_neg (not_not.mpr hq), remainingQuorum, if_neg (by omega), if_neg (by omega),
        remainingNumsync, if_neg (by omega), if_neg (by omega)]
      have hat := h.toAt
      rw [hq, hn] at hat
      apply hat.reaches_removeRemaining _ _ hK hw
      · rw [hgone]
        exact Finset.sdiff_subset
      · rw [hgone, sdiff_sdiff_right_self, Finset.inf_eq_inter]
    · rw [h.quorum, if_pos hq]
      exact h.reaches_removeByQuorum hgone hK htruthy hw
  · intro hnone
    rw [CaseInsensitiveSet.truthy_iff, hgone, not_not] at hnone
    have hT : T ∩ A = T := Finset.inter_eq_left.mpr (Finset.sdiff_eq_empty_iff_subset.mp hnone)
    rw [hnone, Finset.card_empty, Int.natCast_zero, remainingQuorum, if_pos rfl, remainingNumsync,
      if_pos rfl, hT]
    exact h

/-- Removing all nodes never raises. -/
theorem Steady.reaches_removeGoneNodes_all (h : Steady A c w q n T s) (hK : T ∩ A = ∅) :
    Gen.Reaches removeGoneNodes s (At A c w 0 ∅ 0 ∅) := by
  have hgone : (s.sync \ s.active).keys = T := by
    rw [CaseInsensitiveSet.keys_sdiff, h.sync, h.active, ← Finset.sdiff_inter_self_left, hK,
      Finset.sdiff_empty]
  have hall : (s.sync \ s.active).Truthy ∧ s.sync.Same (s.sync \ s.active) := by
    rw [CaseInsensitiveSet.truthy_iff, CaseInsensitiveSet.same_iff, hgone, h.sync]
    exact ⟨h.nonempty, rfl⟩
  apply Gen.Reaches.bindSelf
  rw [if_pos hall]
  refine Gen.Reaches.bind (h.toAt.reaches_quorum (Or.inr h.nonempty) rfl CaseInsensitiveSet.keys_empty
    le_rfl (Or.inl rfl) (Finset.empty_subset _) ?_) fun s₁ h₁ => ?_
  · exact ⟨fun hne => absurd rfl hne, Or.inl (Finset.empty_subset _)⟩
  · rw [adjustment_false, Int.add_zero] at h₁
    refine h₁.reaches_sync rfl CaseInsensitiveSet.keys_empty le_rfl ?_ (Finset.empty_subset _) ?_
    · rw [Finset.card_empty]
      rfl
    · exact Balanced.of_card_le (by rw [Finset.card_empty]; rfl)

/-! ## Adding new nodes -/

/-- The second part of adding nodes never raises. -/
theorem Steady.reaches_addByQuorum {toAdd : CaseInsensitiveSet ν} {m : ℤ}
    (h : Steady A c w q n T s) (hadd : toAdd.keys = A \ T) (hTA : T ⊆ A) (h₁ : 1 ≤ m)
    (hm : m ≤ n) :
    Gen.Reaches (addByQuorum m toAdd) s fun s' => ∃ q', Steady A c w q' m A s' := by
  have hle := Finset.card_le_card hTA
  have hn := h.le_card
  have hall : T ∪ A \ T = A := Finset.union_sdiff_of_subset hTA
  have hvoters : (s.voters ∪ toAdd).keys = A := by
    rw [CaseInsensitiveSet.keys_union, hadd, h.voters, hall]
  have hquorum : (s.voters ∪ toAdd).len - m = A.card - m := by
    rw [CaseInsensitiveSet.len_eq, hvoters]
  have hadjust := adjustment_nonneg (decide (s.numsyncConfirmed < m)) n c
  apply Gen.Reaches.bindSelf
  refine Gen.Reaches.bind (h.toAt.reaches_quorum (Or.inr h.nonempty) hquorum hvoters (by omega)
    (Or.inr (by omega)) Finset.subset_union_right ?_) fun s₁ h₁' => ?_
  · refine ⟨?_, Or.inr hTA⟩
    intro _
    rw [Finset.union_eq_left.mpr hTA]
    omega
  · apply Gen.Reaches.bindSelf
    have hsync : (s₁.sync ∪ toAdd).keys = A := by
      rw [CaseInsensitiveSet.keys_union, hadd, h₁'.sync, hall]
    refine (h₁'.reaches_sync rfl hsync (by omega) (by omega) Finset.subset_union_right
      (Balanced.of_card_le (by omega))).mono fun s₂ h₂ => ?_
    exact ⟨_, h₂, by omega, by omega, h₁, by omega⟩

/-- The first part of adding nodes, once it has picked them. -/
def addPicked (syncWanted : ℤ) (toAdd add : CaseInsensitiveSet ν) (numsync : ℤ)
    (sync : CaseInsensitiveSet ν) : Method ν := do
  syncUpdate numsync sync
  let self ← Gen.self
  quorumUpdate ((self.voters ∪ add).len - syncWanted) (self.voters ∪ add) none true
  let self ← Gen.self
  Gen.when (toAdd \ self.sync).Truthy (addByQuorum syncWanted (toAdd \ self.sync))

theorem Steady.addBySync_run {toAdd : CaseInsensitiveSet ν} {m : ℤ}
    (h : Steady A c w q n T s) :
    addBySync m toAdd s =
      addPicked m toAdd (CaseInsensitiveSet.firstOf toAdd.sorted (m - n))
        (n + (CaseInsensitiveSet.firstOf toAdd.sorted (m - n)).len)
        (s.sync ∪ CaseInsensitiveSet.firstOf toAdd.sorted (m - n)) s := by
  have htruthy : s.sync.Truthy := by
    rw [CaseInsensitiveSet.truthy_iff, h.sync]
    exact h.nonempty
  rw [addBySync, Gen.self_bind]
  simp only [if_pos htruthy, h.numsync]
  rfl

section AddPicked

variable {toAdd add sync : CaseInsensitiveSet ν} {R : Finset ν} {m numsync : ℤ}

theorem card_union_picked (hR : R ⊆ A \ T) : (T ∪ R).card = T.card + R.card := by
  apply Finset.card_union_of_disjoint
  rw [Finset.disjoint_right]
  intro x hx
  exact (Finset.mem_sdiff.mp (hR hx)).2

/-- The picked nodes become synchronous. -/
theorem Steady.reaches_pickedSync (h : Steady A c w q n T s) (hR : R ⊆ A \ T)
    (hsync : sync.keys = T ∪ R) (hnum : numsync = n + R.card) :
    Gen.Reaches (syncUpdate numsync sync) s (At A c w q T (n + R.card) (T ∪ R)) := by
  have hcard := card_union_picked hR
  have hone := h.one_le
  have hle := h.le_card
  have hoverlap := h.overlap
  apply h.toAt.reaches_sync hnum hsync
  · omega
  · omega
  · exact Finset.union_subset (subset_all T A)
      ((hR.trans Finset.sdiff_subset).trans Finset.subset_union_right)
  · refine ⟨?_, Or.inl Finset.subset_union_left⟩
    intro _
    rw [Finset.union_eq_right.mpr Finset.subset_union_left]
    omega

/-- The picked nodes become voters, and the rest follows by quorum. The quorum
is computed for `m` synchronous nodes, which `hfit` allows where fewer are picked. -/
theorem Steady.reaches_addPicked (h : Steady A c w q n T s) (hTA : T ⊆ A)
    (htoAdd : toAdd.keys = A \ T) (hadd : add.keys = R) (hR : R ⊆ A \ T)
    (hsync : sync.keys = T ∪ R) (hnum : numsync = n + R.card) (hm : n + R.card ≤ m)
    (hmA : m ≤ A.card) (hpick : n + R.card = m ∨ R = A \ T)
    (hfit : m ≤ n + R.card + max (n + R.card - c) 0) :
    Gen.Reaches (addPicked m toAdd add numsync sync) s fun s' =>
      ∃ q' n', n' ≤ m ∧ Steady A c w q' n' A s' := by
  have hcard := card_union_picked hR
  have hsub : T ∪ R ⊆ A := Finset.union_subset hTA (hR.trans Finset.sdiff_subset)
  have hone := h.one_le
  have hle := h.le_card
  have hoverlap := h.overlap
  have hrest : (A \ T) \ (T ∪ R) = A \ (T ∪ R) := by
    ext x
    simp only [Finset.mem_sdiff, Finset.mem_union]
    tauto
  have hmT : m ≤ (T ∪ R).card := by
    rcases hpick with hpick | rfl
    · omega
    · rw [Finset.union_sdiff_of_subset hTA]
      exact hmA
  refine Gen.Reaches.bind (h.reaches_pickedSync hR hsync hnum) fun s₁ h₁ => ?_
  apply Gen.Reaches.bindSelf
  have hvoters : (s₁.voters ∪ add).keys = T ∪ R := by
    rw [CaseInsensitiveSet.keys_union, hadd, h₁.voters]
  have hquorum : (s₁.voters ∪ add).len - m = (T ∪ R).card - m := by
    rw [CaseInsensitiveSet.len_eq, hvoters]
  refine Gen.Reaches.bind (h₁.reaches_quorum (Or.inr h.nonempty) hquorum hvoters (by omega)
    (Or.inr (by omega)) (hsub.trans Finset.subset_union_right)
    (Balanced.of_card_le (by rw [adjustment_true]; omega))) fun s₂ h₂ => ?_
  rw [adjustment_true] at h₂
  have hsteady : Steady A c w _ (n + R.card) (T ∪ R) s₂ :=
    ⟨h₂, by omega, by omega, by omega, by omega⟩
  have hleft : (toAdd \ s₂.sync).keys = A \ (T ∪ R) := by
    rw [CaseInsensitiveSet.keys_sdiff, htoAdd, h₂.sync, hrest]
  apply Gen.Reaches.bindSelf
  apply Gen.reaches_when
  · intro hsome
    rw [CaseInsensitiveSet.truthy_iff, hleft] at hsome
    have hn : n + R.card = m := by
      refine hpick.resolve_right fun hall => hsome ?_
      rw [hall, Finset.union_sdiff_of_subset hTA, sdiff_self]
      rfl
    refine (hsteady.reaches_addByQuorum hleft hsub (by omega) hn.ge).mono fun s₃ h₃ => ?_
    obtain ⟨q', h₃⟩ := h₃
    exact ⟨q', m, le_rfl, h₃⟩
  · intro hnone
    rw [CaseInsensitiveSet.truthy_iff, hleft, not_not, Finset.sdiff_eq_empty_iff_subset] at hnone
    rw [Finset.Subset.antisymm hsub hnone] at hsteady
    exact ⟨_, _, hm, hsteady⟩

theorem Steady.raises_addPicked (h : Steady A c w q n T s) (hTA : T ⊆ A) (hadd : add.keys = R)
    (hR : R ⊆ A \ T) (hne : R ≠ ∅) (hsync : sync.keys = T ∪ R) (hnum : numsync = n + R.card)
    (hbad : n + R.card + max (n + R.card - c) 0 < m) :
    Gen.Raises (addPicked m toAdd add numsync sync) s := by
  have hsub : T ∪ R ⊆ A := Finset.union_subset hTA (hR.trans Finset.sdiff_subset)
  refine Gen.Reaches.bind_raises (h.reaches_pickedSync hR hsync hnum) fun s₁ h₁ => ?_
  apply Gen.Raises.bindSelf
  have hvoters : (s₁.voters ∪ add).keys = T ∪ R := by
    rw [CaseInsensitiveSet.keys_union, hadd, h₁.voters]
  have hquorum : (s₁.voters ∪ add).len - m = (T ∪ R).card - m := by
    rw [CaseInsensitiveSet.len_eq, hvoters]
  apply Gen.Raises.bind
  apply h₁.raises_quorum hquorum hvoters
  refine Or.inr (Or.inr ⟨Or.inr h.nonempty, ?_, hsub.trans Finset.subset_union_right, ?_⟩)
  · -- the picked nodes are no voters yet
    intro heq
    obtain ⟨x, hx⟩ := Finset.nonempty_iff_ne_empty.mpr hne
    exact (Finset.mem_sdiff.mp (hR hx)).2 (Finset.union_eq_left.mp heq hx)
  · intro hb
    have hnonempty : T ∪ R ≠ ∅ := fun hempty => h.nonempty (Finset.union_eq_empty.mp hempty).1
    have hoverlap := hb.overlap hnonempty
    rw [Finset.union_self, adjustment_true] at hoverlap
    omega

end AddPicked

theorem Steady.addNewNodes_keys (h : Steady A c w q n T s) (hTA : T ⊆ A) :
    (s.active \ s.sync).keys = A \ T ∧
      min s.syncWanted (s.sync ∪ (s.active \ s.sync)).len = min w A.card := by
  have hadd : (s.active \ s.sync).keys = A \ T := by
    rw [CaseInsensitiveSet.keys_sdiff, h.active, h.sync]
  refine ⟨hadd, ?_⟩
  rw [CaseInsensitiveSet.len_eq, CaseInsensitiveSet.keys_union, hadd, h.sync, h.wanted,
    Finset.union_sdiff_of_subset hTA]

/-- The nodes picked from the new ones. -/
theorem Steady.picked_spec (h : Steady A c w q n T s) (hTA : T ⊆ A) (hne : ¬ A ⊆ T) {m : ℤ}
    (hm : n < m) :
    let R := (CaseInsensitiveSet.firstOf (s.active \ s.sync).sorted (m - n)).keys
    R ⊆ A \ T ∧ R ≠ ∅ ∧ (n + R.card = m ∨ R = A \ T ∧ n + R.card < m) := by
  obtain ⟨hsub, hcard⟩ := (s.active \ s.sync).firstOf_spec (s.active \ s.sync).sorted_perm
    (show 0 ≤ m - n by omega)
  rw [(h.addNewNodes_keys hTA).1] at hsub hcard
  have hpos : 0 < (A \ T).card := by
    rw [Finset.card_pos, Finset.sdiff_nonempty]
    exact hne
  refine ⟨hsub, ?_, ?_⟩
  · intro hempty
    rw [hempty, Finset.card_empty] at hcard
    omega
  · by_cases hall : (A \ T).card < m - n
    · right
      refine ⟨Finset.eq_of_subset_of_card_le hsub ?_, ?_⟩
      · omega
      · omega
    · left
      omega

/-- New nodes are added unless the confirmed ones are too many. -/
theorem Steady.reaches_addNewNodes (h : Steady A c w q n T s) (hTA : T ⊆ A) (hne : ¬ A ⊆ T)
    (hw : 1 ≤ w)
    (hfit : min w A.card ≤ n + (A \ T).card + max (n + (A \ T).card - c) 0) :
    Gen.Reaches addNewNodes s fun s' => ∃ q' n', n' ≤ min w A.card ∧ Steady A c w q' n' A s' := by
  obtain ⟨htoAdd, hm⟩ := h.addNewNodes_keys hTA
  have hpos := Finset.card_pos.mpr (Finset.nonempty_iff_ne_empty.mpr h.nonempty)
  have hle := Finset.card_le_card hTA
  apply Gen.Reaches.bindSelf
  simp only [hm, h.numsync]
  apply Gen.reaches_when
  · intro _
    split
    · next hinc =>
        obtain ⟨hR, hRne, hpick⟩ := h.picked_spec hTA hne (show n < min w (A.card : ℤ) by omega)
        refine Gen.Reaches.congr ?_ h.addBySync_run
        apply h.reaches_addPicked hTA htoAdd rfl hR
        · rw [CaseInsensitiveSet.keys_union, h.sync]
        · rw [CaseInsensitiveSet.len_eq]
        · omega
        · omega
        · exact hpick.imp id And.left
        · rcases hpick with hpick | ⟨hall, -⟩
          · omega
          · rw [hall]
            exact hfit
    · next hinc =>
        refine (h.reaches_addByQuorum htoAdd hTA (by omega) (by omega)).mono fun s' hs' => ?_
        obtain ⟨q', hs'⟩ := hs'
        exact ⟨q', _, le_rfl, hs'⟩
  · intro hnone
    rw [CaseInsensitiveSet.truthy_iff, htoAdd, not_not, Finset.sdiff_eq_empty_iff_subset] at hnone
    exact absurd hnone hne

theorem Steady.raises_addNewNodes (h : Steady A c w q n T s) (hTA : T ⊆ A) (hne : ¬ A ⊆ T)
    (hbad : n + (A \ T).card + max (n + (A \ T).card - c) 0 < min w A.card) :
    Gen.Raises addNewNodes s := by
  obtain ⟨htoAdd, hm⟩ := h.addNewNodes_keys hTA
  apply Gen.Raises.bindSelf
  simp only [hm, h.numsync]
  refine Gen.Raises.when ?_ ?_
  · rw [CaseInsensitiveSet.truthy_iff, htoAdd, Ne, Finset.sdiff_eq_empty_iff_subset]
    exact hne
  · obtain ⟨hR, hRne, hpick⟩ := h.picked_spec hTA hne (show n < min w (A.card : ℤ) by omega)
    have hcard := Finset.card_le_card hR
    have hall := hpick.resolve_left (by omega)
    rw [if_pos (by omega)]
    refine Gen.Raises.congr ?_ h.addBySync_run
    apply h.raises_addPicked hTA rfl hR hRne
    · rw [CaseInsensitiveSet.keys_union, h.sync]
    · rw [CaseInsensitiveSet.len_eq]
    · rw [hall.1]
      exact hbad

theorem Steady.reaches_addNewNodes_none (h : Steady A c w q n T s) (hTA : T ⊆ A) (hA : A ⊆ T) :
    Gen.Reaches addNewNodes s (Steady A c w q n T) := by
  apply Gen.Reaches.bindSelf
  apply Gen.reaches_when
  · intro hsome
    rw [CaseInsensitiveSet.truthy_iff, (h.addNewNodes_keys hTA).1, Ne,
      Finset.sdiff_eq_empty_iff_subset] at hsome
    exact absurd hA hsome
  · exact fun _ => h

/-! ## Changing the replication factor -/

/-- A reduction skips the `/sync` key where its quorum is large enough for the
larger number of synchronous nodes, not for the smaller one. -/
def FactorStuck (w q n t : ℤ) : Prop := w < n ∧ q + w < t ∧ t ≤ q + n - w

theorem Steady.reaches_factor (h : Steady A c w q n T s) (hw : 1 ≤ w)
    (hfit : ¬ FactorStuck w q n T.card) :
    Gen.Reaches handleReplicationFactorChange s fun _ => True := by
  have hone := h.one_le
  have hle := h.le_card
  have hoverlap := h.overlap
  have hq := h.quorum_nonneg
  rw [FactorStuck] at hfit
  have hinc : min s.syncWanted s.sync.len - s.numsync = min w T.card - n := by
    rw [CaseInsensitiveSet.len_eq, h.sync, h.wanted, h.numsync]
  apply Gen.Reaches.bindSelf
  simp only [hinc]
  split
  · next hpos =>
      apply Gen.Reaches.bindSelf
      refine (h.reaches_sync (m := min w T.card) ?_ ?_ ?_ ?_).bind fun s₁ h₁ => ?_
      · rw [h.numsync]
        omega
      · omega
      · omega
      · omega
      · apply Gen.Reaches.bindSelf
        have hquorum : s₁.voters.len - s₁.numsync = T.card - min w T.card := by
          rw [CaseInsensitiveSet.len_eq, h₁.voters, h₁.numsync]
        exact (h₁.reaches_quorum hquorum (by omega) (by omega) (by omega)).mono fun _ _ => trivial
  · apply Gen.reaches_when
    · intro hneg
      apply Gen.Reaches.bindSelf
      have hmid : Gen.Reaches (Gen.when (s.quorum - (min w T.card - n) < s.voters.len) <|
          quorumUpdate (s.voters.len - s.numsync - (min w T.card - n)) s.voters none
            (s.numsyncConfirmed < s.syncWanted)) s
          fun s' => ∃ q', (T.card : ℤ) ≤ q' + w ∧ Steady A c w q' n T s' := by
        apply Gen.reaches_when
        · intro _
          have hquorum : s.voters.len - s.numsync - (min w T.card - n) = T.card - w := by
            rw [CaseInsensitiveSet.len_eq, h.voters, h.numsync]
            omega
          refine (h.reaches_quorum hquorum (by omega) (by omega) (by omega)).mono fun s' hs' => ?_
          have hadjust := adjustment_nonneg (decide (s.numsyncConfirmed < s.syncWanted)) n c
          exact ⟨_, by omega, hs'⟩
        · intro hskip
          rw [CaseInsensitiveSet.len_eq, h.voters, h.quorum] at hskip
          exact ⟨q, by omega, h⟩
      refine hmid.bind fun s₁ ⟨q', hq', h₁⟩ => ?_
      apply Gen.Reaches.bindSelf
      refine (h₁.reaches_sync (m := w) ?_ hw ?_ hq').mono fun _ _ => trivial
      · rw [h₁.numsync]
        omega
      · omega
    · exact fun _ => trivial

theorem Steady.raises_factor (h : Steady A c w q n T s) (hbad : FactorStuck w q n T.card) :
    Gen.Raises handleReplicationFactorChange s := by
  have hle := h.le_card
  obtain ⟨hlt, hshort, hskip⟩ := hbad
  have hinc : min s.syncWanted s.sync.len - s.numsync = w - n := by
    rw [CaseInsensitiveSet.len_eq, h.sync, h.wanted, h.numsync]
    omega
  apply Gen.Raises.bindSelf
  simp only [hinc]
  rw [if_neg (by omega)]
  refine Gen.Raises.when (by omega) ?_
  apply Gen.Raises.bindSelf
  refine Gen.Reaches.bind_raises (P := Steady A c w q n T) ?_ fun s₁ h₁ => ?_
  · apply Gen.reaches_when
    · intro hlow
      rw [CaseInsensitiveSet.len_eq, h.voters, h.quorum] at hlow
      omega
    · exact fun _ => h
  · apply Gen.Raises.bindSelf
    have hnum : s₁.numsync + (w - n) = w := by
      rw [h₁.numsync]
      omega
    apply h₁.toAt.raises_sync hnum h₁.sync (subset_all T A)
    refine Or.inr (Or.inr fun hb => ?_)
    have hoverlap := hb.overlap h.nonempty
    rw [Finset.union_self] at hoverlap
    omega

/-! ## From an empty state -/

section Empty

/-- Without any node the first new ones become synchronous, and `/sync` waits
until they are confirmed. -/
theorem At.reaches_addNewNodes_empty (h : At A 0 w q ∅ n ∅ s) (hn : n ≤ 0) (hw : 1 ≤ w) :
    Gen.Reaches addNewNodes s fun s' =>
      ∃ q' n', (n' = min w A.card ∨ A = ∅ ∧ n' ≤ 0) ∧ At A 0 w q' ∅ n' A s' := by
  have htoAdd : (s.active \ s.sync).keys = A := by
    rw [CaseInsensitiveSet.keys_sdiff, h.active, h.sync, Finset.sdiff_empty]
  have hm : min s.syncWanted (s.sync ∪ (s.active \ s.sync)).len = min w A.card := by
    rw [CaseInsensitiveSet.len_eq, CaseInsensitiveSet.keys_union, htoAdd, h.sync, h.wanted,
      Finset.empty_union]
  have hnone : ¬ s.sync.Truthy := by
    rw [CaseInsensitiveSet.truthy_iff, h.sync]
    exact fun hne => hne rfl
  apply Gen.Reaches.bindSelf
  simp only [hm, h.numsync]
  apply Gen.reaches_when
  · intro hsome
    rw [CaseInsensitiveSet.truthy_iff, htoAdd] at hsome
    have hpos := Finset.card_pos.mpr (Finset.nonempty_iff_ne_empty.mpr hsome)
    rw [if_pos (by omega)]
    apply Gen.Reaches.bindSelf
    simp only [if_neg hnone, h.numsync]
    refine Gen.Reaches.bind (h.reaches_sync (m := min w A.card) (by omega) ?_ (by omega) (by omega)
      Finset.subset_union_right ?_) fun s₁ h₁ => ?_
    · rw [CaseInsensitiveSet.keys_union, htoAdd, h.sync, Finset.empty_union]
    · exact ⟨fun hne => absurd rfl hne, Or.inl (Finset.empty_subset A)⟩
    apply Gen.Reaches.bindSelf
    have hvoters : (s₁.voters ∪ (s.active \ s.sync)).keys = A := by
      rw [CaseInsensitiveSet.keys_union, htoAdd, h₁.voters, Finset.empty_union]
    refine Gen.Reaches.bind (h₁.reaches_reset ?_ ?_) fun s₂ h₂ => ?_
    · rw [CaseInsensitiveSet.len_eq, hvoters]
      omega
    · rw [CaseInsensitiveSet.len_eq, hvoters]
      omega
    apply Gen.Reaches.bindSelf
    apply Gen.reaches_when
    · intro hleft
      rw [CaseInsensitiveSet.truthy_iff, CaseInsensitiveSet.keys_sdiff, htoAdd, h₂.sync, sdiff_self]
        at hleft
      exact absurd rfl hleft
    · exact fun _ => ⟨0, _, Or.inl rfl, h₂⟩
  · intro hempty
    rw [CaseInsensitiveSet.truthy_iff, htoAdd, not_not] at hempty
    refine ⟨q, n, Or.inr ⟨hempty, hn⟩, ?_⟩
    rw [hempty] at h ⊢
    exact h

theorem At.reaches_factor_empty (h : At A 0 w q ∅ n A s) (hw : 1 ≤ w)
    (hn : n = min w A.card ∨ A = ∅ ∧ n ≤ 0) :
    Gen.Reaches handleReplicationFactorChange s fun _ => True := by
  have hinc : min s.syncWanted s.sync.len - s.numsync = min w A.card - n := by
    rw [CaseInsensitiveSet.len_eq, h.sync, h.wanted, h.numsync]
  apply Gen.Reaches.bindSelf
  simp only [hinc]
  rcases hn with hn | ⟨rfl, hn⟩
  · rw [if_neg (by omega)]
    apply Gen.reaches_when
    · intro hneg
      omega
    · exact fun _ => trivial
  · rw [Finset.card_empty]
    split
    · apply Gen.Reaches.bindSelf
      refine Gen.Reaches.bind (h.reaches_sync (m := 0) ?_ h.sync le_rfl ?_ (Finset.empty_subset _)
        ⟨fun hne => absurd rfl hne, Or.inl (Finset.empty_subset _)⟩) fun s₁ h₁ => ?_
      · rw [h.numsync]
        omega
      · rw [Finset.card_empty]
        rfl
      · apply Gen.Reaches.bindSelf
        have hquorum : s₁.voters.len - s₁.numsync = 0 := by
          rw [CaseInsensitiveSet.len_eq, h₁.voters, h₁.numsync]
          rfl
        rw [hquorum]
        exact (h₁.reaches_reset le_rfl (Or.inl rfl)).mono fun _ _ => trivial
    · apply Gen.reaches_when
      · intro hneg
        omega
      · exact fun _ => trivial

/-- From an empty state no phase raises. -/
theorem At.reaches_rest_empty (h : At A 0 w q ∅ n ∅ s) (hn : n ≤ 0) (hw : 1 ≤ w) :
    Gen.Reaches (addNewNodes >>= fun _ => handleReplicationFactorChange) s fun _ => True :=
  (h.reaches_addNewNodes_empty hn hw).bind fun _ ⟨_, _, hn', h'⟩ => h'.reaches_factor_empty hw hn'

theorem At.reaches_trimMargin_empty (h : At A 0 w q ∅ n ∅ s) (hq : q ≤ 0) (hn : n ≤ 0)
    (hw : 1 ≤ w) : Gen.Reaches trimMargin s (At A 0 w q ∅ n ∅) := by
  have hlen : (s.voters ∪ s.sync).len = 0 := by
    rw [CaseInsensitiveSet.len_eq, CaseInsensitiveSet.keys_union, h.voters, h.sync]
    rfl
  apply Gen.Reaches.bindSelf
  simp only [hlen, h.quorum, h.numsync, h.confirmed]
  rw [if_neg (by omega)]
  apply Gen.reaches_when
  · intro hcond
    rw [h.numsync, h.wanted] at hcond
    omega
  · exact fun _ => h

theorem At.reaches_removeGoneNodes_empty (h : At A c w q ∅ n ∅ s) :
    Gen.Reaches removeGoneNodes s (At A c w q ∅ n ∅) := by
  have hnone : ¬ (s.sync \ s.active).Truthy := by
    rw [CaseInsensitiveSet.truthy_iff, CaseInsensitiveSet.keys_sdiff, h.sync, Finset.empty_sdiff]
    exact fun hne => hne rfl
  apply Gen.Reaches.bindSelf
  rw [if_neg fun hall => hnone hall.1]
  apply Gen.reaches_when
  · exact fun hsome => absurd hsome hnone
  · exact fun _ => h

end Empty

end QuorumStateResolver

end Metatroni
