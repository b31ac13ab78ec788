import Metatroni.Quorum.Steady

/-!
# When iterating the resolver raises

`_generate_transitions` runs its four phases one after another. This file puts
the statements about the single phases together: from a consistent state with
a settled leader the iteration returns its transitions, except in five kinds of
states.
-/

namespace Metatroni

open Generators

variable {ν : Type} [NodeName ν]

namespace QuorumStateResolver

variable {A T V S : Finset ν} {c w q n : ℤ} {s : QuorumStateResolver ν}

/-! ## The numbers of a steady state -/

/-- The numbers of a steady state with `g` nodes that are gone and `k` that are
active. -/
structure Sizes (c w q n g k : ℤ) : Prop where
  overlap : g + k ≤ q + n
  quorum_nonneg : 0 ≤ q
  one_le : 1 ≤ n
  le_card : n ≤ g + k
  one_le_wanted : 1 ≤ w
  confirmed_nonneg : 0 ≤ c
  confirmed_le : c ≤ k
  gone_nonneg : 0 ≤ g
  one_le_left : 1 ≤ k

namespace Sizes

variable {g k d : ℤ}

/-- `numsync` after margin and gone nodes. -/
def keptNumsync (c w q n g k : ℤ) : ℤ :=
  remainingNumsync w (trimmedQuorum c w q n (g + k)) (trimmedNumsync c w q n (g + k)) g k

/-- The quorum after margin and gone nodes. -/
def keptQuorum (c w q n g k : ℤ) : ℤ :=
  remainingQuorum c w (trimmedQuorum c w q n (g + k)) (trimmedNumsync c w q n (g + k)) g k

/-- A removal makes `numsync` large enough for new nodes to fit. -/
theorem short_iff (h : Sizes c w q n g k) (hd : 0 < d) :
    keptNumsync c w q n g k + d + max (keptNumsync c w q n g k + d - c) 0 < min w (k + d) ↔
      g = 0 ∧ n + d + max (n + d - c) 0 < min w (k + d) := by
  obtain ⟨hoverlap, hq, hn, hle, hw, hc, hck, hg, hk⟩ := h
  unfold keptNumsync remainingNumsync trimmedQuorum trimmedNumsync
  split_ifs <;> omega

theorem factorStuck_iff (h : Sizes c w q n 0 k) :
    FactorStuck w (keptQuorum c w q n 0 k) (keptNumsync c w q n 0 k) k ↔
      w < n ∧ q + min n c ≤ k ∧ q + w < k ∧ k ≤ q + n - w := by
  obtain ⟨hoverlap, hq, hn, hle, hw, hc, hck, hg, hk⟩ := h
  unfold FactorStuck keptQuorum keptNumsync remainingQuorum remainingNumsync trimmedQuorum
    trimmedNumsync
  rw [if_pos rfl, if_pos rfl, Int.zero_add]
  split_ifs <;> omega

theorem factorStuck_iff_of_gone (h : Sizes c w q n g k) (hg : 0 < g) :
    FactorStuck w (keptQuorum c w q n g k) (keptNumsync c w q n g k) k ↔
      w < n ∧ g ≤ q ∧ q + c ≤ g + k ∧ w < c ∧ w + c ≤ min n k := by
  obtain ⟨hoverlap, hq, hn, hle, hw, hc, hck, -, hk⟩ := h
  unfold FactorStuck keptQuorum keptNumsync remainingQuorum remainingNumsync leftQuorum
    trimmedQuorum trimmedNumsync
  rw [if_neg hg.ne', if_neg hg.ne']
  split_ifs <;> omega

/-- The quorum was just raised by what is not confirmed. -/
theorem factorStuck_iff_of_adjusted (h : Sizes c w q n g k) (hq : q = g + k - n + max (n - c) 0) :
    FactorStuck w (keptQuorum c w q n g k) (keptNumsync c w q n g k) k ↔
      w < n ∧ w < c ∧ w + c ≤ min n k := by
  have hn := h.one_le
  have hle := h.le_card
  have hck := h.confirmed_le
  have hw := h.one_le_wanted
  rcases h.gone_nonneg.eq_or_lt with rfl | hg
  · rw [h.factorStuck_iff]
    omega
  · rw [h.factorStuck_iff_of_gone hg]
    omega

/-- The quorum was just set for gone nodes. -/
theorem factorStuck_iff_of_exact (h : Sizes c w q n g k) (hg : 0 < g) (hq : q = g + k - n) :
    FactorStuck w (keptQuorum c w q n g k) (keptNumsync c w q n g k) k ↔
      w < n ∧ w < c ∧ w + c ≤ min n k ∧ n ≤ k := by
  have hw := h.one_le_wanted
  rw [h.factorStuck_iff_of_gone hg]
  omega

end Sizes

/-! ## The phases after the non-steady cases -/

theorem sdiff_inter_active (T A : Finset ν) : A \ (T ∩ A) = A \ T := by
  rw [Finset.inter_comm, Finset.sdiff_inter_self_left]

theorem card_sdiff_add_card_inter_active (T A : Finset ν) :
    ((T \ A).card : ℤ) + (T ∩ A).card = T.card := by
  rw [← Finset.card_sdiff_add_card_inter T A, Int.natCast_add]

theorem card_sdiff_pos (h : ¬ T ⊆ A) : (0 : ℤ) < (T \ A).card := by
  rw [Int.natCast_pos, Finset.card_pos, Finset.sdiff_nonempty]
  exact h

/-- The phases from the removal of gone nodes on. -/
def changeNodes : Method ν := do
  removeGoneNodes
  addNewNodes
  handleReplicationFactorChange

theorem Steady.reaches_changeNodes {q' n' : ℤ} (h : Steady A c w q' n' T s) (hw : 1 ≤ w)
    (hK : T ∩ A ≠ ∅) {q₃ n₃ : ℤ}
    (hq₃ : remainingQuorum c w q' n' (T \ A).card (T ∩ A).card = q₃)
    (hn₃ : remainingNumsync w q' n' (T \ A).card (T ∩ A).card = n₃)
    (hadd : ¬ A ⊆ T → min w A.card ≤ n₃ + (A \ T).card + max (n₃ + (A \ T).card - c) 0)
    (hfactor : A ⊆ T → ¬ FactorStuck w q₃ n₃ (T ∩ A).card) :
    Gen.Reaches changeNodes s fun _ => True := by
  have hremove := h.reaches_removeGoneNodes hK hw
  rw [hq₃, hn₃] at hremove
  refine hremove.bind fun s₁ h₁ => ?_
  by_cases hA : A ⊆ T
  · refine Gen.Reaches.bind (h₁.reaches_addNewNodes_none Finset.inter_subset_right
      (Finset.subset_inter hA (Finset.Subset.refl A))) fun s₂ h₂ => ?_
    exact h₂.reaches_factor hw (hfactor hA)
  · have hne : ¬ A ⊆ T ∩ A := fun hsub => hA (hsub.trans Finset.inter_subset_left)
    refine Gen.Reaches.bind (h₁.reaches_addNewNodes Finset.inter_subset_right hne hw ?_)
      fun s₂ ⟨q₄, n₄, hle, h₂⟩ => ?_
    · rw [sdiff_inter_active]
      exact hadd hA
    · apply h₂.reaches_factor hw
      intro hbad
      exact absurd hbad.1 (by omega)

theorem Steady.raises_changeNodes {q' n' : ℤ} (h : Steady A c w q' n' T s) (hw : 1 ≤ w)
    (hK : T ∩ A ≠ ∅) {q₃ n₃ : ℤ}
    (hq₃ : remainingQuorum c w q' n' (T \ A).card (T ∩ A).card = q₃)
    (hn₃ : remainingNumsync w q' n' (T \ A).card (T ∩ A).card = n₃)
    (hbad : ¬ A ⊆ T ∧ n₃ + (A \ T).card + max (n₃ + (A \ T).card - c) 0 < min w A.card ∨
      A ⊆ T ∧ FactorStuck w q₃ n₃ (T ∩ A).card) :
    Gen.Raises changeNodes s := by
  have hremove := h.reaches_removeGoneNodes hK hw
  rw [hq₃, hn₃] at hremove
  refine hremove.bind_raises fun s₁ h₁ => ?_
  rcases hbad with ⟨hA, hshort⟩ | ⟨hA, hstuck⟩
  · have hne : ¬ A ⊆ T ∩ A := fun hsub => hA (hsub.trans Finset.inter_subset_left)
    rw [← sdiff_inter_active] at hshort
    exact (h₁.raises_addNewNodes Finset.inter_subset_right hne hshort).bind
  · refine Gen.Reaches.bind_raises (h₁.reaches_addNewNodes_none Finset.inter_subset_right
      (Finset.subset_inter hA (Finset.Subset.refl A))) fun s₂ h₂ => ?_
    exact h₂.raises_factor hstuck

/-- Once all nodes are gone nothing raises. -/
theorem Steady.reaches_changeNodes_all (h : Steady A 0 w q n T s) (hw : 1 ≤ w)
    (hK : T ∩ A = ∅) : Gen.Reaches changeNodes s fun _ => True :=
  (h.reaches_removeGoneNodes_all hK).bind fun _ h₁ => h₁.reaches_rest_empty le_rfl hw

/-! ## All phases -/

/-- New nodes are too few to reach `sync_wanted`, but the confirmed ones leave
the quorum as it was computed for `sync_wanted`. -/
def AddStuck (A : Finset ν) (c w : ℤ) (V : Finset ν) (n : ℤ) (S : Finset ν) : Prop :=
  let T := matchedNodes A V S
  let reached : ℤ := min n T.card + (A \ T).card
  (c ≠ 0 ∨ V ≠ ∅) ∧ T ⊂ A ∧ reached + max (reached - c) 0 < min w A.card

/-- A reduction of `numsync` skips the `/sync` key although the quorum is too
low for the smaller number. -/
def ReduceStuck (A : Finset ν) (c w q : ℤ) (V : Finset ν) (n : ℤ) (S : Finset ν) : Prop :=
  let T := matchedNodes A V S
  let m : ℤ := min n T.card
  A ⊆ T ∧ w < m ∧
    if T = V then
      if A = V then q + min m c ≤ V.card ∧ q + w < V.card ∧ V.card ≤ q + m - w
      else (V \ A).card ≤ q ∧ q + c ≤ V.card ∧ w < c ∧ w + c ≤ min m A.card
    else w < c ∧ w + c ≤ min m A.card ∧ (S ⊂ V → ¬ S ⊆ A → m ≤ A.card)

/-- Without a confirmed node no node is gone or new. -/
theorem ReduceStuck.eq_of_unconfirmed (h : ReduceStuck A c w q V n S) (hw : 1 ≤ w) (hc : c ≤ 0) :
    matchedNodes A V S = V ∧ A = V := by
  obtain ⟨-, -, h⟩ := h
  split at h
  · next hTV =>
      split at h
      · next hAV => exact ⟨hTV, hAV⟩
      · omega
  · omega

theorem ReduceStuck.confirmed_or_voters (h : ReduceStuck A c w q V n S) (hw : 1 ≤ w) :
    c ≠ 0 ∨ V ≠ ∅ := by
  by_contra hnone
  rw [not_or, not_not, not_not] at hnone
  have hTV := (h.eq_of_unconfirmed hw hnone.1.le).1
  have hlt := h.2.1
  rw [hTV, hnone.2, Finset.card_empty] at hlt
  omega

/-- The five kinds of states from which the iteration raises. -/
def Stuck (A : Finset ν) (c w q : ℤ) (V : Finset ν) (n : ℤ) (S : Finset ν) : Prop :=
  MatchStuck A c V n S ∨ AddStuck A c w V n S ∨ ReduceStuck A c w q V n S

/-- With new nodes only the case that none is gone can raise. -/
theorem addStuck_iff {m r : ℤ} (hT : matchedNodes A V S = T) (hm : min n T.card = m)
    (hsizes : Sizes c w r m (T \ A).card (T ∩ A).card) (hc : c ≠ 0 ∨ V ≠ ∅) :
    let n₃ := Sizes.keptNumsync c w r m (T \ A).card (T ∩ A).card
    AddStuck A c w V n S ↔
      ¬ A ⊆ T ∧ n₃ + (A \ T).card + max (n₃ + (A \ T).card - c) 0 < min w A.card := by
  intro n₃
  have hcard : (A.card : ℤ) = (T ∩ A).card + (A \ T).card := by
    rw [Finset.inter_comm, ← card_sdiff_add_card_inter_active A T, Int.add_comm]
  have hgone : T ⊆ A ↔ ((T \ A).card : ℤ) = 0 := by
    rw [Int.natCast_eq_zero, Finset.card_eq_zero, Finset.sdiff_eq_empty_iff_subset]
  simp only [AddStuck, hT, hm, ssubset_iff_subset_not_subset]
  by_cases hA : A ⊆ T
  · exact ⟨fun hstuck => absurd hA hstuck.2.1.2, fun hstuck => absurd hA hstuck.1⟩
  · rw [hcard, hsizes.short_iff (card_sdiff_pos hA), hgone]
    tauto

/-- Without new nodes only the replication factor can raise. -/
theorem reduceStuck_iff {m r : ℤ} (hT : matchedNodes A V S = T) (hm : min n T.card = m)
    (hr : matchedQuorum A c q V n S = r) (hsizes : Sizes c w r m (T \ A).card (T ∩ A).card) :
    ReduceStuck A c w q V n S ↔
      A ⊆ T ∧ FactorStuck w (Sizes.keptQuorum c w r m (T \ A).card (T ∩ A).card)
        (Sizes.keptNumsync c w r m (T \ A).card (T ∩ A).card) (T ∩ A).card := by
  simp only [ReduceStuck, hT, hm]
  apply and_congr_right
  intro hA
  have hsum := card_sdiff_add_card_inter_active T A
  have hleft : T ∩ A = A := Finset.inter_eq_right.mpr hA
  rw [hleft] at hsizes hsum ⊢
  simp only [matchedQuorum, hT, hm] at hr
  by_cases hTV : T = V
  · rw [if_pos hTV] at hr
    subst hr
    by_cases hAV : A = V
    · rw [if_pos hTV, if_pos hAV, ← hTV]
      rw [hTV, hAV, sdiff_self] at hsizes
      rw [hTV, hAV, sdiff_self]
      exact hsizes.factorStuck_iff.symm
    · have hgone : ¬ T ⊆ A := fun hsub => hAV ((hA.antisymm hsub).trans hTV)
      rw [if_pos hTV, if_neg hAV, ← hTV, hsizes.factorStuck_iff_of_gone (card_sdiff_pos hgone),
        hsum]
  · -- the voters have changed, so the quorum was computed from `numsync`
    rw [if_neg hTV, ← hsum] at hr
    rw [if_neg hTV]
    by_cases hadjust : S ⊂ V → S ⊆ A
    · rw [decide_eq_true hadjust, adjustment_true] at hr
      rw [hsizes.factorStuck_iff_of_adjusted hr.symm]
      tauto
    · rw [decide_eq_false hadjust, adjustment_false, Int.add_zero] at hr
      rw [Classical.not_imp] at hadjust
      have hgone : ¬ T ⊆ A := by
        intro hsub
        rw [← hT, matchedNodes_of_superset hadjust.1.subset] at hsub
        exact hadjust.2 (Finset.subset_union_left.trans hsub)
      rw [hsizes.factorStuck_iff_of_exact (card_sdiff_pos hgone) hr.symm]
      tauto

instance (A : Finset ν) (c : ℤ) (V : Finset ν) (n : ℤ) (S : Finset ν) :
    Decidable (MatchStuck A c V n S) :=
  inferInstanceAs (Decidable (_ ∨ _ ∨ _))

instance (A : Finset ν) (c w : ℤ) (V : Finset ν) (n : ℤ) (S : Finset ν) :
    Decidable (AddStuck A c w V n S) :=
  inferInstanceAs (Decidable (_ ∧ _ ∧ _))

instance (A : Finset ν) (c w q : ℤ) (V : Finset ν) (n : ℤ) (S : Finset ν) :
    Decidable (ReduceStuck A c w q V n S) :=
  inferInstanceAs (Decidable (_ ∧ _ ∧ _))

instance (A : Finset ν) (c w q : ℤ) (V : Finset ν) (n : ℤ) (S : Finset ν) :
    Decidable (Stuck A c w q V n S) :=
  inferInstanceAs (Decidable (_ ∨ _ ∨ _))

namespace Start

theorem confirmed_le_matched (h : Start A c w q V n S s) :
    c ≤ (matchedNodes A V S ∩ A).card := by
  have hsub : S ∩ A ⊆ matchedNodes A V S ∩ A := by
    intro x hx
    simp only [matchedNodes, Finset.mem_inter, Finset.mem_union] at hx ⊢
    tauto
  have hle := Finset.card_le_card hsub
  have hc := h.confirmed_le
  omega

theorem sizes (h : Start A c w q V n S s) {m r : ℤ} {s' : QuorumStateResolver ν}
    (hT : matchedNodes A V S = T) (hs : Steady A c w r m T s') (hK : T ∩ A ≠ ∅) :
    Sizes c w r m (T \ A).card (T ∩ A).card where
  overlap := by
    rw [card_sdiff_add_card_inter_active]
    exact hs.overlap
  quorum_nonneg := hs.quorum_nonneg
  one_le := hs.one_le
  le_card := by
    rw [card_sdiff_add_card_inter_active]
    exact hs.le_card
  one_le_wanted := h.one_le_wanted
  confirmed_nonneg := h.confirmed_nonneg
  confirmed_le := by
    rw [← hT]
    exact h.confirmed_le_matched
  gone_nonneg := Int.natCast_nonneg _
  one_le_left := by
    have hpos := Finset.card_pos.mpr (Finset.nonempty_iff_ne_empty.mpr hK)
    omega

theorem reaches_nonSteady (h : Start A c w q V n S s) (hstuck : ¬ MatchStuck A c V n S)
    (hc : c ≠ 0 ∨ V ≠ ∅) {m r : ℤ} (hT : matchedNodes A V S = T) (hm : min n T.card = m)
    (hr : matchedQuorum A c q V n S = r) :
    Gen.Reaches handleNonSteadyCases s
      (Steady A c w (trimmedQuorum c w r m T.card) (trimmedNumsync c w r m T.card) T) := by
  have hmatch := h.reaches_match hstuck hc
  rw [hT, hm, hr] at hmatch
  refine hmatch.bind fun s₁ h₁ => ?_
  have hsame : s₁.voters.Same s₁.sync := by
    rw [CaseInsensitiveSet.same_iff, h₁.voters, h₁.sync]
  refine Gen.Reaches.bind (Gen.reaches_check (if_pos hsame) h₁) fun s₂ h₂ => ?_
  exact h₂.reaches_trimMargin h.one_le_wanted

theorem reaches_nonSteady_reset (h : Start A 0 w q ∅ n S s) (hstuck : ¬ MatchStuck A 0 ∅ n S) :
    Gen.Reaches handleNonSteadyCases s fun s' => ∃ q' n', n' ≤ 0 ∧ At A 0 w q' ∅ n' ∅ s' := by
  refine (h.reaches_match_reset hstuck).bind fun s₁ ⟨q', n', hn, hq, h₁⟩ => ?_
  have hsame : s₁.voters.Same s₁.sync := by
    rw [CaseInsensitiveSet.same_iff, h₁.voters, h₁.sync]
  refine Gen.Reaches.bind (Gen.reaches_check (if_pos hsame) h₁) fun s₂ h₂ => ?_
  exact (h₂.reaches_trimMargin_empty hq hn h.one_le_wanted).mono fun _ h₃ => ⟨q', n', hn, h₃⟩

/-- Outside the five kinds all phases run to their end. -/
theorem reaches_phases (h : Start A c w q V n S s) (hstuck : ¬ Stuck A c w q V n S) :
    Gen.Reaches (handleNonSteadyCases >>= fun _ => changeNodes) s fun _ => True := by
  rw [Stuck, not_or, not_or] at hstuck
  obtain ⟨hmatch, hadd, hreduce⟩ := hstuck
  by_cases hc : c ≠ 0 ∨ V ≠ ∅
  · obtain ⟨T, hT⟩ : ∃ T, matchedNodes A V S = T := ⟨_, rfl⟩
    obtain ⟨m, hm⟩ : ∃ m, min n (T.card : ℤ) = m := ⟨_, rfl⟩
    obtain ⟨r, hr⟩ : ∃ r, matchedQuorum A c q V n S = r := ⟨_, rfl⟩
    refine (h.reaches_nonSteady hmatch hc hT hm hr).bind fun s₁ h₁ => ?_
    by_cases hK : T ∩ A = ∅
    · have hzero : c = 0 := by
        have hle := h.confirmed_le_matched
        rw [hT, hK, Finset.card_empty] at hle
        exact le_antisymm hle h.confirmed_nonneg
      subst hzero
      exact h₁.reaches_changeNodes_all h.one_le_wanted hK
    · obtain ⟨_, s₀, -, h₀⟩ := h.reaches_match hmatch hc
      rw [hT, hm, hr] at h₀
      have hsizes := h.sizes hT h₀ hK
      rw [← card_sdiff_add_card_inter_active T A] at h₁
      refine h₁.reaches_changeNodes h.one_le_wanted hK rfl rfl ?_ ?_
      · intro hA
        by_contra hshort
        exact hadd ((addStuck_iff hT hm hsizes hc).mpr ⟨hA, not_le.mp hshort⟩)
      · intro hA hbad
        exact hreduce ((reduceStuck_iff hT hm hr hsizes).mpr ⟨hA, hbad⟩)
  · obtain ⟨rfl, rfl⟩ : c = 0 ∧ V = ∅ := by
      rw [not_or, not_not, not_not] at hc
      exact hc
    refine (h.reaches_nonSteady_reset hmatch).bind fun s₁ ⟨q', n', hn, h₁⟩ => ?_
    exact (h₁.reaches_removeGoneNodes_empty).bind fun s₂ h₂ => h₂.reaches_rest_empty hn h.one_le_wanted

/-- In each of them some phase raises. -/
theorem raises_phases (h : Start A c w q V n S s) (hstuck : Stuck A c w q V n S) :
    Gen.Raises (handleNonSteadyCases >>= fun _ => changeNodes) s := by
  by_cases hmatch : MatchStuck A c V n S
  · exact (h.raises_match hmatch).bind
  · have hbad := hstuck.resolve_left hmatch
    have hc : c ≠ 0 ∨ V ≠ ∅ := by
      rcases hbad with hadd | hreduce
      · exact hadd.1
      · exact hreduce.confirmed_or_voters h.one_le_wanted
    obtain ⟨T, hT⟩ : ∃ T, matchedNodes A V S = T := ⟨_, rfl⟩
    obtain ⟨m, hm⟩ : ∃ m, min n (T.card : ℤ) = m := ⟨_, rfl⟩
    obtain ⟨r, hr⟩ : ∃ r, matchedQuorum A c q V n S = r := ⟨_, rfl⟩
    obtain ⟨_, s₀, -, h₀⟩ := h.reaches_match hmatch hc
    rw [hT, hm, hr] at h₀
    refine (h.reaches_nonSteady hmatch hc hT hm hr).bind_raises fun s₁ h₁ => ?_
    have hK : T ∩ A ≠ ∅ := by
      intro hempty
      have hle := h.confirmed_le_matched
      rw [hT, hempty, Finset.card_empty] at hle
      rcases hbad with ⟨-, hadd, -⟩ | hreduce
      · rw [hT] at hadd
        rw [Finset.inter_eq_left.mpr hadd.subset] at hempty
        exact h₁.nonempty hempty
      · obtain ⟨hTV, hAV⟩ := hreduce.eq_of_unconfirmed h.one_le_wanted hle
        rw [hT] at hTV
        rw [hAV, ← hTV, Finset.inter_self] at hempty
        exact h₁.nonempty hempty
    have hsizes := h.sizes hT h₀ hK
    rw [← card_sdiff_add_card_inter_active T A] at h₁
    refine h₁.raises_changeNodes h.one_le_wanted hK rfl rfl ?_
    exact hbad.imp (addStuck_iff hT hm hsizes hc).mp (reduceStuck_iff hT hm hr hsizes).mp

end Start

/-! ## The iteration -/

/-- A consistent state whose leader is settled. -/
structure ConsistentStart (s : QuorumStateResolver ν) : Prop where
  leader : s.leader = s.leaderWanted
  leader_notMem : s.leader ∉ s.voters ∧ s.leader ∉ s.sync ∧ s.leader ∉ s.active
  invariants : s.checkInvariants = .ok ()
  quorum_lt : s.quorum = 0 ∨ s.quorum < s.voters.len
  numsync_le : s.numsync ≤ s.sync.len
  confirmed_nonneg : 0 ≤ s.numsyncConfirmed
  confirmed_le : s.numsyncConfirmed ≤ (s.sync ∩ s.active).len
  one_le_wanted : 1 ≤ s.syncWanted

namespace ConsistentStart

/-- The recovered `numsync_confirmed` counts active synchronous nodes too. -/
theorem adjustConfirmed_bounds (h : ConsistentStart s) :
    0 ≤ s.adjustConfirmed.numsyncConfirmed ∧
      s.adjustConfirmed.numsyncConfirmed ≤ (s.sync ∩ s.active).len := by
  rw [adjustConfirmed]
  split
  · have hvoters : 0 ≤ s.voters.len := Int.natCast_nonneg _
    have hsync : 0 ≤ (s.sync ∩ s.active).len := Int.natCast_nonneg _
    have hq := h.quorum_lt
    exact ⟨le_min hsync (by omega), min_le_left _ _⟩
  · exact ⟨h.confirmed_nonneg, h.confirmed_le⟩

theorem at_start (h : ConsistentStart s) :
    At s.active.keys s.adjustConfirmed.numsyncConfirmed s.syncWanted s.quorum s.voters.keys
      s.numsync s.sync.keys s.adjustConfirmed := by
  have hframe : s.adjustConfirmed =
      { s with numsyncConfirmed := s.adjustConfirmed.numsyncConfirmed } := by
    rw [adjustConfirmed]
    split <;> rfl
  have houtside : lower s.leader ∉ s.voters.keys ∪ s.sync.keys ∪ s.active.keys := by
    obtain ⟨hvoters, hsync, hactive⟩ := h.leader_notMem
    rw [CaseInsensitiveSet.mem_iff] at hvoters hsync hactive
    simp only [Finset.mem_union, not_or]
    exact ⟨⟨hvoters, hsync⟩, hactive⟩
  rw [hframe]
  exact ⟨h.leader, houtside, rfl, rfl, rfl, rfl, rfl, rfl, rfl⟩

theorem start (h : ConsistentStart s) :
    Start s.active.keys s.adjustConfirmed.numsyncConfirmed s.syncWanted s.quorum s.voters.keys
      s.numsync s.sync.keys s.adjustConfirmed where
  toAt := h.at_start
  balanced := by
    have hcheck : s.adjustConfirmed.checkInvariants = s.checkInvariants := by
      rw [adjustConfirmed]
      split <;> rfl
    rw [← h.at_start.check_iff, hcheck]
    exact h.invariants
  quorum_lt := by
    rw [← CaseInsensitiveSet.len_eq]
    exact h.quorum_lt
  numsync_le := by
    rw [← CaseInsensitiveSet.len_eq]
    exact h.numsync_le
  confirmed_nonneg := h.adjustConfirmed_bounds.1
  confirmed_le := by
    rw [← CaseInsensitiveSet.keys_inter, ← CaseInsensitiveSet.len_eq]
    exact h.adjustConfirmed_bounds.2
  one_le_wanted := h.one_le_wanted

end ConsistentStart

/-- From a consistent state with a settled leader the iteration raises exactly
in the five kinds of states. -/
theorem iter_returns_iff (self : QuorumStateResolver ν) (h : ConsistentStart self) :
    (∃ ts, self.iter = .ok ts) ↔
      ¬ Stuck self.active.keys self.adjustConfirmed.numsyncConfirmed self.syncWanted self.quorum
        self.voters.keys self.numsync self.sync.keys := by
  have hrun : generateTransitions self =
      (handleNonSteadyCases >>= fun _ => changeNodes) self.adjustConfirmed := by
    rw [generateTransitions_of_leader h.leader.symm h.invariants, settle_of_leader h.leader.symm]
    rfl
  constructor
  · rintro ⟨ts, hts⟩ hstuck
    obtain ⟨ys, s', e, hraise⟩ := h.start.raises_phases hstuck
    rw [iter, hrun, hraise] at hts
    cases hts
  · intro hstuck
    obtain ⟨ys, s', hreach, -⟩ := h.start.reaches_phases hstuck
    exact ⟨mergeTransitions ys, by rw [iter, hrun, hreach]⟩

/-- `d` is new and `sync_wanted` was raised from one to two. -/
theorem iter_returns_for_two :
    let self := init "a" 1 (.ofList ["b", "c"]) 1 (.ofList ["b", "c"]) 2 (.ofList ["b", "c", "d"]) 2
      "a"
    ConsistentStart self ∧ ∃ ts, self.iter = .ok ts := by
  intro self
  have hstart : ConsistentStart self := by
    constructor <;> decide +kernel
  exact ⟨hstart, (iter_returns_iff self hstart).mpr (by decide +kernel)⟩

/-- The same change to three nodes raises: `numsync` gets to two only, but the
quorum is computed for three. -/
theorem iter_raises_for_three :
    let self := init "a" 1 (.ofList ["b", "c"]) 1 (.ofList ["b", "c"]) 2 (.ofList ["b", "c", "d"]) 3
      "a"
    ConsistentStart self ∧
      self.iter = .error (.quorumError (.noOverlap 4 0 (.ofList ["b", "c", "d"]))) := by
  intro self
  constructor
  · constructor <;> decide +kernel
  · decide +kernel

end QuorumStateResolver

end Metatroni
