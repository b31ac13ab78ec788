import Mathlib.Data.Finset.Card

/-!
# Sets that cannot all be missed

A group of nodes survives with tolerance `q` if every choice of `q + 1` of its
nodes contains a good one. The lemmas say how the number of nodes that are not
good changes with the group, and how it is bounded by an overlap with a set of
nodes known to be good.
-/

namespace Quorums

variable {α : Type} {group good : Finset α} {q : ℤ} {p p' : α → Prop}

/-- Every choice of `q + 1` nodes of the group contains one with the property. -/
def Survives (group : Finset α) (q : ℤ) (p : α → Prop) : Prop :=
  ∀ choice ⊆ group, (choice.card : ℤ) = q + 1 → ∃ a ∈ choice, p a

section

variable [DecidablePred p] [DecidablePred p']

/-- The nodes of the group without the property. -/
def missing (group : Finset α) (p : α → Prop) [DecidablePred p] : Finset α :=
  group.filter fun a => ¬ p a

theorem survives_of_card_missing_le (h : ((missing group p).card : ℤ) ≤ q) :
    Survives group q p := by
  intro choice hsub hcard
  by_contra hnone
  push Not at hnone
  have hmissing : choice ⊆ missing group p := by
    intro a ha
    exact Finset.mem_filter.mpr ⟨hsub ha, hnone a ha⟩
  have hle := Finset.card_le_card hmissing
  omega

/-- A property that spreads leaves fewer nodes without it. -/
theorem card_missing_mono (h : ∀ a ∈ group, p a → p' a) :
    (missing group p').card ≤ (missing group p).card := by
  apply Finset.card_le_card
  intro a ha
  obtain ⟨hmem, hnot⟩ := Finset.mem_filter.mp ha
  exact Finset.mem_filter.mpr ⟨hmem, fun hp => hnot (h a hmem hp)⟩

variable [DecidableEq α]

/-- A new node may be without the property, an old one only if it was before. -/
theorem card_missing_le_add (group other : Finset α) :
    (missing other p).card ≤ (missing group p).card + (other \ group).card := by
  calc (missing other p).card
      ≤ (missing group p ∪ (other \ group)).card := by
        apply Finset.card_le_card
        intro a ha
        obtain ⟨hmem, hnot⟩ := Finset.mem_filter.mp ha
        by_cases hold : a ∈ group
        · exact Finset.mem_union_left _ (Finset.mem_filter.mpr ⟨hold, hnot⟩)
        · exact Finset.mem_union_right _ (Finset.mem_sdiff.mpr ⟨hmem, hold⟩)
    _ ≤ (missing group p).card + (other \ group).card := Finset.card_union_le _ _

/-- Nodes with the property, in the group or not, are not among those without it. -/
theorem card_missing_add_card_le (group : Finset α) (h : ∀ a ∈ good, p a) :
    (missing group p).card + good.card ≤ (group ∪ good).card := by
  have hdisj : Disjoint (missing group p) good := by
    rw [Finset.disjoint_left]
    intro a ha hgood
    exact (Finset.mem_filter.mp ha).2 (h a hgood)
  rw [← Finset.card_union_of_disjoint hdisj]
  exact Finset.card_le_card (Finset.union_subset_union_left (Finset.filter_subset _ _))

end

end Quorums
