import Metatroni.Quorum.Phases

/-!
# The optimal state as the fixpoint of the resolver

The docstring of `QuorumStateResolver` names one optimal state for a set of
active nodes. This file shows that the resolver yields nothing exactly in that
state, and that a resolver that is built again and again from what the earlier
ones have written gets there.

Runs that raise are no matter here, so all statements are about what a phase
leaves behind if it returns. Nothing is assumed about the place of the leader,
which may well be a voter or a synchronous node; the two sets that the phases
work on are then compared without it.
-/

namespace Metatroni

open Generators

variable {ν : Type} [NodeName ν]

namespace QuorumStateResolver

variable {A V S T : Finset ν} {c w q n : ℤ} {s : QuorumStateResolver ν}

/-- No `restart` among the transitions. -/
def Plain (ys : List (Transition ν)) : Prop := ∀ t ∈ ys, t.transitionType ≠ .restart

theorem plain_nil : Plain ([] : List (Transition ν)) := by
  intro t ht
  exact absurd ht List.not_mem_nil

theorem Plain.append {ys zs : List (Transition ν)} (hy : Plain ys) (hz : Plain zs) :
    Plain (ys ++ zs) := by
  intro t ht
  rcases List.mem_append.mp ht with ht | ht
  · exact hy t ht
  · exact hz t ht

theorem upToRestart_append {ys : List (Transition ν)} (hy : Plain ys) (zs : List (Transition ν)) :
    upToRestart (ys ++ zs) = ys ++ upToRestart zs := by
  induction ys with
  | nil => rfl
  | cons t ys ih =>
      rw [List.cons_append, upToRestart_cons _ (hy t List.mem_cons_self), List.cons_append,
        ih fun u hu => hy u (List.mem_cons_of_mem t hu)]

/-! ## The two updates -/

namespace Reads

theorem returns_sync {names : CaseInsensitiveSet ν} {S' : Finset ν} {n' m : ℤ}
    (h : Reads A c w q V n S s) (hm : n' = m) (hk : names.keys = S') :
    Gen.Returns (syncUpdate n' names) s fun ys s' =>
      Plain ys ∧ m ≤ S'.card ∧ Reads A c w q V m S' s' := by
  intro ys s' hx
  subst hm hk
  obtain ⟨h₀, h₁⟩ := syncUpdate_ranges hx
  rw [syncUpdate_run n' names s h₀ h₁] at hx
  obtain ⟨-, rfl, rfl⟩ := match_check_eq_ok hx
  rw [CaseInsensitiveSet.len_eq] at h₁
  refine ⟨?_, h₁, ?_⟩
  · intro t ht
    obtain rfl := List.mem_singleton.mp ht
    exact TransitionType.noConfusion
  · exact ⟨h.quorum, h.voters, rfl, rfl, h.active, h.confirmed, h.wanted⟩

/-- An update of `/sync` that is no reset ends where it was told to. -/
theorem returns_quorum {names : CaseInsensitiveSet ν} {V' : Finset ν} {q' r : ℤ}
    {adjustQuorum : Bool} (h : Reads A c w q V n S s) (hv : V ≠ ∅ ∨ c ≠ 0 ∧ V' ≠ ∅)
    (hr : q' = r) (hk : names.keys = V') :
    Gen.Returns (quorumUpdate q' names none adjustQuorum) s fun ys s' =>
      Plain ys ∧ Reads A c w (r + adjustment adjustQuorum n c) V' n S s' := by
  intro ys s' hx
  subst hr hk
  obtain ⟨h₀, h₁⟩ := quorumUpdate_ranges hx
  have hassign : s.assignQuorum q' names none adjustQuorum = _ :=
    h.assignQuorum_eq (hv.symm.imp And.left id)
  rcases quorumUpdate_run q' names none adjustQuorum s h₀ h₁ with
    ⟨hsame, -, hrun⟩ | ⟨hsame, hempty, -⟩ | ⟨-, hrun⟩
  · rw [hrun, Outcome.mk.injEq] at hx
    obtain ⟨rfl, rfl, -⟩ := hx
    rw [hassign, CaseInsensitiveSet.same_iff] at hsame
    have hV : names.keys = V := hsame.2.2.trans h.voters
    have hq : q' + adjustment adjustQuorum n c = q := hsame.2.1.trans h.quorum
    refine ⟨plain_nil, ?_⟩
    rw [hV, hq]
    exact h
  · exfalso
    rw [hassign, CaseInsensitiveSet.same_iff] at hsame
    rw [CaseInsensitiveSet.truthy_iff, not_not] at hempty
    have hnames : names.keys = ∅ := hsame.2.2.trans hempty
    rcases hv with hv | hv
    · exact hv (h.voters.symm.trans hempty)
    · exact hv.2 hnames
  · rw [hrun] at hx
    obtain ⟨-, rfl, rfl⟩ := match_check_eq_ok hx
    refine ⟨?_, ?_⟩
    · intro t ht
      obtain rfl := List.mem_singleton.mp ht
      exact TransitionType.noConfusion
    · rw [hassign]
      exact ⟨rfl, rfl, h.numsync, h.sync, h.active, h.confirmed, h.wanted⟩

/-- A reset of `/sync` restarts only where there was nothing to reset. -/
theorem returns_reset {names : CaseInsensitiveSet ν} {q' : ℤ} {adjustQuorum : Bool}
    (h : Reads A 0 w q ∅ n S s) :
    Gen.Returns (quorumUpdate q' names none adjustQuorum) s fun ys s' =>
      (q ≠ 0 → Plain ys) ∧ (q = 0 → upToRestart ys = []) ∧ Reads A 0 w 0 ∅ n S s' := by
  intro ys s' hx
  obtain ⟨h₀, h₁⟩ := quorumUpdate_ranges hx
  have hassign : s.assignQuorum q' names none adjustQuorum = _ := h.assignQuorum_reset
  have hreads : Reads A 0 w 0 ∅ n S { s with quorum := 0, voters := ∅ } :=
    ⟨rfl, rfl, h.numsync, h.sync, h.active, h.confirmed, h.wanted⟩
  rcases quorumUpdate_run q' names none adjustQuorum s h₀ h₁ with
    ⟨-, hsome, -⟩ | ⟨hsame, -, hrun⟩ | ⟨hdiffer, hrun⟩
  · exfalso
    rw [CaseInsensitiveSet.truthy_iff, h.voters] at hsome
    exact hsome rfl
  · rw [hrun] at hx
    obtain ⟨-, rfl, rfl⟩ := match_check_eq_ok hx
    rw [hassign] at hsame ⊢
    refine ⟨fun hne => absurd (hsame.2.1.trans h.quorum).symm hne, fun _ => ?_, hreads⟩
    exact upToRestart_cons_restart _ rfl
  · rw [hrun] at hx
    obtain ⟨-, rfl, rfl⟩ := match_check_eq_ok hx
    rw [hassign] at hdiffer ⊢
    refine ⟨?_, fun hzero => absurd ?_ hdiffer, hreads⟩
    · intro _ t ht
      obtain rfl := List.mem_singleton.mp ht
      exact TransitionType.noConfusion
    · refine ⟨rfl, (h.quorum.trans hzero).symm, ?_⟩
      rw [CaseInsensitiveSet.same_iff, h.voters]
      rfl

/-! ## The phases -/

/-- No `restart` so far, and the nodes `K` are synchronous. -/
def Keeps (A : Finset ν) (c w : ℤ) (K : Finset ν) (ys : List (Transition ν))
    (s : QuorumStateResolver ν) : Prop :=
  Plain ys ∧ ∃ (q : ℤ) (V : Finset ν) (n : ℤ) (S : Finset ν),
    n ≤ S.card ∧ K ⊆ S ∧ Reads A c w q V n S s

/-- No `restart` so far, and the nodes `T` are the voters and synchronous. -/
def Joined (A : Finset ν) (c w : ℤ) (T : Finset ν) (ys : List (Transition ν))
    (s : QuorumStateResolver ν) : Prop :=
  Plain ys ∧ ∃ q n : ℤ, n ≤ T.card ∧ Reads A c w q T n T s

theorem returns_evictVoters (h : Reads A c w q V n S s) (hsub : S ⊂ V) (hn : n ≤ S.card) :
    Gen.Returns evictVoters s (Keeps A c w S) := by
  have hv : V ≠ ∅ := fun hempty => Finset.not_ssubset_empty S (hempty ▸ hsub)
  apply Gen.Returns.bindSelf
  have hfirst : Gen.Returns
      (Gen.when (s.voters \ (s.sync ∪ s.active)).Truthy <|
        quorumUpdate (s.voters.len - (s.voters \ (s.sync ∪ s.active)).len - s.numsync)
          (s.voters \ (s.voters \ (s.sync ∪ s.active))) none (¬ (s.sync \ s.active).Truthy))
      s fun ys s' => Plain ys ∧ ∃ q' V', Reads A c w q' V' n S s' := by
    apply Gen.returns_when
    · intro _
      refine (h.returns_quorum (Or.inl hv) rfl rfl).mono fun ys s' hs => ?_
      exact ⟨hs.1, _, _, hs.2⟩
    · exact fun _ => ⟨plain_nil, q, V, h⟩
  refine hfirst.bind fun ys s₁ ⟨hplain, q', V', h₁⟩ => ?_
  apply Gen.Returns.bindSelf
  apply Gen.returns_when
  · intro _
    refine (h₁.returns_sync h₁.numsync rfl).mono fun zs s₂ ⟨hplain', hle, h₂⟩ => ?_
    refine ⟨hplain.append hplain', q', V', n, _, hle, ?_, h₂⟩
    rw [CaseInsensitiveSet.keys_union, h₁.sync]
    exact Finset.subset_union_left
  · exact fun _ => ⟨hplain.append plain_nil, q', V', n, S, hn, Finset.Subset.refl S, h₁⟩

theorem returns_dropInactive (h : Reads A c w q V n S s) (hn : n ≤ S.card) :
    Gen.Returns (dropInactive s) s fun ys s' =>
      Plain ys ∧ ∃ (n' : ℤ) (S' : Finset ν),
        n' ≤ S'.card ∧ S' ⊆ S ∧ S ∩ A ⊆ S' ∧ Reads A c w q V n' S' s' := by
  have hkept : (s.sync \ (s.sync \ s.active)).keys = S ∩ A := by
    rw [CaseInsensitiveSet.keys_sdiff, CaseInsensitiveSet.keys_sdiff, h.sync, h.active,
      sdiff_sdiff_right_self, Finset.inf_eq_inter]
  apply Gen.returns_when
  · intro _
    refine (h.returns_sync rfl hkept).mono fun ys s' ⟨hplain, hle, h'⟩ => ?_
    exact ⟨hplain, _, _, hle, Finset.inter_subset_left, Finset.Subset.refl _, h'⟩
  · exact fun _ => ⟨plain_nil, n, S, hn, Finset.Subset.refl S, Finset.inter_subset_left, h⟩

theorem returns_addSynced (h : Reads A c w q V n S s) (hc : S ∩ A ≠ ∅ → c ≠ 0) :
    Gen.Returns (addSynced s) s fun ys s' =>
      Plain ys ∧ ∃ q' V', S ∩ A ⊆ V' ∧ Reads A c w q' V' n S s' := by
  have hadded : ((s.sync \ s.voters) ∩ s.active).keys = (S \ V) ∩ A := by
    rw [CaseInsensitiveSet.keys_inter, CaseInsensitiveSet.keys_sdiff, h.sync, h.voters, h.active]
  have hvoters : (s.voters ∪ (s.sync \ s.voters) ∩ s.active).keys = V ∪ (S \ V) ∩ A := by
    rw [CaseInsensitiveSet.keys_union, hadded, h.voters]
  have hsub : S ∩ A ⊆ V ∪ (S \ V) ∩ A := by
    intro x hx
    simp only [Finset.mem_union, Finset.mem_inter, Finset.mem_sdiff] at hx ⊢
    tauto
  apply Gen.returns_when
  · intro hsome
    rw [CaseInsensitiveSet.truthy_iff, hadded] at hsome
    have hne : V ∪ (S \ V) ∩ A ≠ ∅ := fun hempty => hsome (Finset.union_eq_empty.mp hempty).2
    have hSA : S ∩ A ≠ ∅ := by
      intro hempty
      apply hsome
      rw [← Finset.subset_empty, ← hempty]
      exact Finset.inter_subset_inter_right Finset.sdiff_subset
    refine (h.returns_quorum (Or.inr ⟨hc hSA, hne⟩) rfl hvoters).mono
      fun ys s' ⟨hplain, h'⟩ => ?_
    exact ⟨hplain, _, _, hsub, h'⟩
  · intro hnone
    rw [CaseInsensitiveSet.truthy_iff, hadded, not_not] at hnone
    rw [hnone, Finset.union_empty] at hsub
    exact ⟨plain_nil, q, V, hsub, h⟩

theorem returns_dropOthers (h : Reads A c w q V n S s) (hn : n ≤ S.card) (hsub : S ∩ A ⊆ V) :
    Gen.Returns (dropOthers s) s fun ys s' =>
      Plain ys ∧ ∃ (n' : ℤ) (S' : Finset ν),
        n' ≤ S'.card ∧ S ∩ A ⊆ S' ∧ Reads A c w q V n' S' s' := by
  have hkept : (s.sync \ (s.sync \ s.voters)).keys = S ∩ V := by
    rw [CaseInsensitiveSet.keys_sdiff, CaseInsensitiveSet.keys_sdiff, h.sync, h.voters,
      sdiff_sdiff_right_self, Finset.inf_eq_inter]
  apply Gen.returns_when
  · intro _
    refine (h.returns_sync rfl hkept).mono fun ys s' ⟨hplain, hle, h'⟩ => ?_
    exact ⟨hplain, _, _, hle, Finset.subset_inter Finset.inter_subset_left hsub, h'⟩
  · exact fun _ => ⟨plain_nil, n, S, hn, Finset.inter_subset_left, h⟩

theorem returns_extendVoters (h : Reads A c w q V n S s) (hn : n ≤ S.card)
    (hc : S ∩ A ≠ ∅ → c ≠ 0) :
    Gen.Returns extendVoters s (Keeps A c w (S ∩ A)) := by
  rw [extendVoters_eq]
  apply Gen.Returns.bindSelf
  refine (h.returns_dropInactive hn).bind fun ys s₁ ⟨hplain, n₁, S₁, hn₁, hS₁, hkeep, h₁⟩ => ?_
  have hinter : S₁ ∩ A = S ∩ A := by
    apply Finset.Subset.antisymm
    · exact Finset.inter_subset_inter_right hS₁
    · exact Finset.subset_inter hkeep Finset.inter_subset_right
  apply Gen.Returns.bindSelf
  refine (h₁.returns_addSynced (hinter ▸ hc)).bind fun zs s₂ ⟨hplain₂, q₂, V₂, hV₂, h₂⟩ => ?_
  apply Gen.Returns.bindSelf
  refine (h₂.returns_dropOthers hn₁ hV₂).mono fun us s₃ ⟨hplain₃, n₃, S₃, hn₃, hS₃, h₃⟩ => ?_
  exact ⟨hplain.append (hplain₂.append hplain₃), q₂, V₂, n₃, S₃, hn₃, hinter ▸ hS₃, h₃⟩

/-- The first two cases keep the active synchronous nodes. -/
theorem returns_match (h : Reads A c w q V n S s) (hn : n ≤ S.card) (hc : S ∩ A ≠ ∅ → c ≠ 0) :
    Gen.Returns matchVotersAndSync s (Keeps A c w (S ∩ A)) := by
  apply Gen.Returns.bindSelf
  split
  · next hlt =>
      rw [CaseInsensitiveSet.lt_iff, h.sync, h.voters] at hlt
      refine (h.returns_evictVoters hlt hn).mono fun ys s' ⟨hplain, q', V', n', S', hn', hS', h'⟩ => ?_
      exact ⟨hplain, q', V', n', S', hn', Finset.inter_subset_left.trans hS', h'⟩
  · apply Gen.returns_when
    · exact fun _ => h.returns_extendVoters hn hc
    · exact fun _ => ⟨plain_nil, q, V, n, S, hn, Finset.inter_subset_left, h⟩

theorem returns_trimMargin (h : Reads A c w q T n T s) (hn : n ≤ T.card) (hc : T = ∅ → c = 0)
    (hw : 1 ≤ w) : Gen.Returns trimMargin s (Joined A c w T) := by
  have hunion : (s.voters ∪ s.sync).keys = T := by
    rw [CaseInsensitiveSet.keys_union, h.voters, h.sync, Finset.union_self]
  apply Gen.Returns.bindSelf
  simp only [CaseInsensitiveSet.len_eq, hunion, h.quorum, h.numsync, h.confirmed, h.wanted]
  split
  · next hmargin =>
      split
      · refine (h.returns_sync rfl h.sync).mono fun ys s' ⟨hplain, hle, h'⟩ => ?_
        exact ⟨hplain, _, _, hle, h'⟩
      · by_cases hT : T = ∅
        · obtain rfl := hc hT
          subst hT
          refine h.returns_reset.mono fun ys s' ⟨hplain, _, h'⟩ => ?_
          exact ⟨hplain (by rw [Finset.card_empty] at hmargin; omega), 0, n, hn, h'⟩
        · refine (h.returns_quorum (Or.inl hT) rfl h.voters).mono fun ys s' ⟨hplain, h'⟩ => ?_
          exact ⟨hplain, _, n, hn, h'⟩
  · apply Gen.returns_when
    · intro hcond
      have hT : T ≠ ∅ := by
        intro hempty
        rw [hempty, Finset.card_empty] at hn
        rw [h.numsync, h.wanted] at hcond
        omega
      refine (h.returns_quorum (Or.inl hT) rfl h.voters).mono fun ys s' ⟨hplain, h'⟩ => ?_
      exact ⟨hplain, _, n, hn, h'⟩
    · exact fun _ => ⟨plain_nil, q, n, hn, h⟩

/-- The last part of a removal, from nodes `U` of which `K` are left. -/
theorem returns_removeRemaining {toRemove : CaseInsensitiveSet ν} {U K : Finset ν}
    (h : Reads A c w q U n U s) (hU : U ≠ ∅) (hK : U \ toRemove.keys = K) :
    Gen.Returns (removeRemaining toRemove) s (Joined A c w K) := by
  refine Gen.Returns.bind (P := fun ys s' => Plain ys ∧ Reads A c w q U n U s')
    (Gen.returns_check fun _ => ⟨plain_nil, h⟩) fun ys s₁ ⟨hplain, h₁⟩ => ?_
  have hvoters : (s₁.voters \ toRemove).keys = K := by
    rw [CaseInsensitiveSet.keys_sdiff, h₁.voters, hK]
  have hsync : (s₁.sync \ toRemove).keys = K := by
    rw [CaseInsensitiveSet.keys_sdiff, h₁.sync, hK]
  apply Gen.Returns.bindSelf
  refine (h₁.returns_quorum (Or.inl hU) rfl hvoters).bind fun zs s₂ ⟨hplain₂, h₂⟩ => ?_
  refine (h₂.returns_sync rfl hsync).mono fun us s₃ ⟨hplain₃, hle, h₃⟩ => ?_
  exact ⟨hplain.append (hplain₂.append hplain₃), _, _, hle, h₃⟩

theorem returns_removeByQuorum {toRemove : CaseInsensitiveSet ν} (h : Reads A c w q T n T s)
    (hT : T ≠ ∅) (hR : toRemove.keys = T \ A) :
    Gen.Returns (removeByQuorum toRemove) s (Joined A c w (T ∩ A)) := by
  have hremsub := toRemove.keys_firstOf_subset toRemove.sortedReverse_perm s.quorum
  rw [hR] at hremsub
  apply Gen.Returns.bindSelf
  dsimp only
  generalize CaseInsensitiveSet.firstOf toRemove.sortedReverse s.quorum = remove at hremsub ⊢
  have hsync : (s.sync \ remove).keys = T \ remove.keys := by
    rw [CaseInsensitiveSet.keys_sdiff, h.sync]
  refine (h.returns_sync rfl hsync).bind fun ys s₁ ⟨hplain, hle, h₁⟩ => ?_
  have hvoters : (s₁.voters \ remove).keys = T \ remove.keys := by
    rw [CaseInsensitiveSet.keys_sdiff, h₁.voters]
  have hleft : (s₁.sync ∩ toRemove).keys = (T \ remove.keys) ∩ (T \ A) := by
    rw [CaseInsensitiveSet.keys_inter, h₁.sync, hR]
  have hkept : (T \ remove.keys) \ ((T \ remove.keys) ∩ (T \ A)) = T ∩ A := by
    ext x
    have hx : x ∈ remove.keys → x ∈ T \ A := fun hmem => hremsub hmem
    simp only [Finset.mem_sdiff, Finset.mem_inter] at hx ⊢
    tauto
  apply Gen.Returns.bindSelf
  refine (h₁.returns_quorum (Or.inl hT) rfl hvoters).bind fun zs s₂ ⟨hplain₂, h₂⟩ => ?_
  have hplain' := hplain.append hplain₂
  apply Gen.returns_when
  · intro hsome
    rw [CaseInsensitiveSet.truthy_iff, hleft] at hsome
    have hU : T \ remove.keys ≠ ∅ := by
      intro hempty
      rw [hempty, Finset.empty_inter] at hsome
      exact hsome rfl
    refine (h₂.returns_removeRemaining hU (hleft ▸ hkept)).mono fun us s₃ ⟨hplain₃, h₃⟩ => ?_
    rw [← List.append_assoc]
    exact ⟨hplain'.append hplain₃, h₃⟩
  · intro hnone
    rw [CaseInsensitiveSet.truthy_iff, hleft, not_not] at hnone
    rw [hnone, Finset.sdiff_empty] at hkept
    rw [hkept] at h₂ hle
    rw [← List.append_assoc]
    exact ⟨hplain'.append plain_nil, _, _, hle, h₂⟩

theorem returns_removeGoneNodes (h : Reads A c w q T n T s) (hn : n ≤ T.card) :
    Gen.Returns removeGoneNodes s (Joined A c w (T ∩ A)) := by
  have hgone : (s.sync \ s.active).keys = T \ A := by
    rw [CaseInsensitiveSet.keys_sdiff, h.sync, h.active]
  apply Gen.Returns.bindSelf
  dsimp only
  split
  · next hall =>
      rw [CaseInsensitiveSet.truthy_iff, CaseInsensitiveSet.same_iff, hgone, h.sync] at hall
      have hT : T ≠ ∅ := fun hempty => hall.1 (by rw [hempty, Finset.empty_sdiff])
      have hinter : T ∩ A = ∅ := by
        rw [hall.2, Finset.sdiff_inter_self]
      rw [hinter]
      refine (h.returns_quorum (Or.inl hT) rfl CaseInsensitiveSet.keys_empty).bind
        fun ys s₁ ⟨hplain, h₁⟩ => ?_
      refine (h₁.returns_sync rfl CaseInsensitiveSet.keys_empty).mono
        fun zs s₂ ⟨hplain₂, hle, h₂⟩ => ?_
      exact ⟨hplain.append hplain₂, _, _, hle, h₂⟩
  · apply Gen.returns_when
    · intro hsome
      rw [CaseInsensitiveSet.truthy_iff, hgone] at hsome
      have hT : T ≠ ∅ := fun hempty => hsome (by rw [hempty, Finset.empty_sdiff])
      split
      · exact h.returns_removeByQuorum hT hgone
      · apply h.returns_removeRemaining hT
        rw [hgone, sdiff_sdiff_right_self, Finset.inf_eq_inter]
    · intro hnone
      rw [CaseInsensitiveSet.truthy_iff, hgone, not_not, Finset.sdiff_eq_empty_iff_subset] at hnone
      rw [Finset.inter_eq_left.mpr hnone]
      exact ⟨plain_nil, q, n, hn, h⟩

theorem returns_addByQuorum {toAdd : CaseInsensitiveSet ν} {m : ℤ} (h : Reads A c w q T n T s)
    (hT : T ≠ ∅) (hadd : T ∪ toAdd.keys = A) :
    Gen.Returns (addByQuorum m toAdd) s (Joined A c w A) := by
  have hvoters : (s.voters ∪ toAdd).keys = A := by
    rw [CaseInsensitiveSet.keys_union, h.voters, hadd]
  apply Gen.Returns.bindSelf
  refine (h.returns_quorum (Or.inl hT) rfl hvoters).bind fun ys s₁ ⟨hplain, h₁⟩ => ?_
  have hsync : (s₁.sync ∪ toAdd).keys = A := by
    rw [CaseInsensitiveSet.keys_union, h₁.sync, hadd]
  apply Gen.Returns.bindSelf
  refine (h₁.returns_sync rfl hsync).mono fun zs s₂ ⟨hplain₂, hle, h₂⟩ => ?_
  exact ⟨hplain.append hplain₂, _, _, hle, h₂⟩

theorem returns_addBySync {toAdd : CaseInsensitiveSet ν} {m : ℤ} (h : Reads A c w q T n T s)
    (hT : T ≠ ∅) (hadd : T ∪ toAdd.keys = A) :
    Gen.Returns (addBySync m toAdd) s (Joined A c w A) := by
  have htruthy : s.sync.Truthy := by
    rw [CaseInsensitiveSet.truthy_iff, h.sync]
    exact hT
  have hsub := toAdd.keys_firstOf_subset toAdd.sorted_perm (m - s.numsync)
  apply Gen.Returns.bindSelf
  simp only [if_pos htruthy]
  generalize CaseInsensitiveSet.firstOf toAdd.sorted (m - s.numsync) = add at hsub ⊢
  have hsync : (s.sync ∪ add).keys = T ∪ add.keys := by
    rw [CaseInsensitiveSet.keys_union, h.sync]
  refine (h.returns_sync rfl hsync).bind fun ys s₁ ⟨hplain, hle, h₁⟩ => ?_
  have hvoters : (s₁.voters ∪ add).keys = T ∪ add.keys := by
    rw [CaseInsensitiveSet.keys_union, h₁.voters]
  apply Gen.Returns.bindSelf
  refine (h₁.returns_quorum (Or.inl hT) rfl hvoters).bind fun zs s₂ ⟨hplain₂, h₂⟩ => ?_
  have hplain' := hplain.append hplain₂
  have hU : T ∪ add.keys ≠ ∅ := fun hempty => hT (Finset.union_eq_empty.mp hempty).1
  have hleft : (toAdd \ s₂.sync).keys = toAdd.keys \ (T ∪ add.keys) := by
    rw [CaseInsensitiveSet.keys_sdiff, h₂.sync]
  have hall : T ∪ add.keys ∪ toAdd.keys \ (T ∪ add.keys) = A := by
    rw [Finset.union_sdiff_self_eq_union, ← hadd, Finset.union_assoc, Finset.union_eq_right.mpr hsub]
  apply Gen.Returns.bindSelf
  apply Gen.returns_when
  · intro _
    rw [← hleft] at hall
    refine (h₂.returns_addByQuorum hU hall).mono fun us s₃ ⟨hplain₃, h₃⟩ => ?_
    rw [← List.append_assoc]
    exact ⟨hplain'.append hplain₃, h₃⟩
  · intro hnone
    rw [CaseInsensitiveSet.truthy_iff, hleft, not_not] at hnone
    rw [hnone, Finset.union_empty] at hall
    rw [hall] at h₂ hle
    rw [← List.append_assoc]
    exact ⟨hplain'.append plain_nil, _, _, hle, h₂⟩

theorem returns_addNewNodes (h : Reads A c w q T n T s) (hT : T ≠ ∅) (hTA : T ⊆ A)
    (hn : n ≤ T.card) : Gen.Returns addNewNodes s (Joined A c w A) := by
  have htoAdd : (s.active \ s.sync).keys = A \ T := by
    rw [CaseInsensitiveSet.keys_sdiff, h.active, h.sync]
  have hall : T ∪ (s.active \ s.sync).keys = A := by
    rw [htoAdd, Finset.union_sdiff_of_subset hTA]
  apply Gen.Returns.bindSelf
  apply Gen.returns_when
  · intro _
    split
    · exact h.returns_addBySync hT hall
    · exact h.returns_addByQuorum hT hall
  · intro hnone
    rw [CaseInsensitiveSet.truthy_iff, htoAdd, not_not, Finset.sdiff_eq_empty_iff_subset] at hnone
    have heq : T = A := Finset.Subset.antisymm hTA hnone
    rw [heq] at h hn
    exact ⟨plain_nil, q, n, hn, h⟩

theorem returns_factor (h : Reads A c w q T n T s) (hT : T ≠ ∅) :
    Gen.Returns handleReplicationFactorChange s fun ys s' =>
      Plain ys ∧ ∃ q', Reads A c w q' T (min w T.card) T s' := by
  have hinc : min s.syncWanted s.sync.len - s.numsync = min w T.card - n := by
    rw [CaseInsensitiveSet.len_eq, h.sync, h.wanted, h.numsync]
  have hnum {s₁ : QuorumStateResolver ν} {q₁ : ℤ} (h₁ : Reads A c w q₁ T n T s₁) :
      s₁.numsync + (min w T.card - n) = min w T.card := by
    rw [h₁.numsync]
    omega
  apply Gen.Returns.bindSelf
  simp only [hinc]
  split
  · apply Gen.Returns.bindSelf
    refine (h.returns_sync (hnum h) h.sync).bind fun ys s₁ ⟨hplain, _, h₁⟩ => ?_
    apply Gen.Returns.bindSelf
    refine (h₁.returns_quorum (Or.inl hT) rfl h₁.voters).mono fun zs s₂ ⟨hplain₂, h₂⟩ => ?_
    exact ⟨hplain.append hplain₂, _, h₂⟩
  · apply Gen.returns_when
    · intro _
      have hfirst : Gen.Returns
          (Gen.when (s.quorum - (min w T.card - n) < s.voters.len) <|
            quorumUpdate (s.voters.len - s.numsync - (min w T.card - n)) s.voters none
              (s.numsyncConfirmed < s.syncWanted))
          s fun ys s' => Plain ys ∧ ∃ q', Reads A c w q' T n T s' := by
        apply Gen.returns_when
        · intro _
          refine (h.returns_quorum (Or.inl hT) rfl h.voters).mono fun ys s' ⟨hplain, h'⟩ => ?_
          exact ⟨hplain, _, h'⟩
        · exact fun _ => ⟨plain_nil, q, h⟩
      apply Gen.Returns.bindSelf
      refine hfirst.bind fun ys s₁ ⟨hplain, q₁, h₁⟩ => ?_
      apply Gen.Returns.bindSelf
      refine (h₁.returns_sync (hnum h₁) h₁.sync).mono fun zs s₂ ⟨hplain₂, _, h₂⟩ => ?_
      exact ⟨hplain.append hplain₂, q₁, h₂⟩
    · intro hdec
      have hzero : n = min w T.card := by omega
      rw [← hzero]
      exact ⟨plain_nil, q, h⟩

end Reads

/-! ## Where a whole run lands -/

/-- An external pair in terms of finite sets of keys. -/
structure Shows (q : ℤ) (V : Finset ν) (n : ℤ) (S : Finset ν) (e : External ν) : Prop where
  quorum : e.quorum = q
  voters : e.voters.keys = V
  numsync : e.numsync = n
  sync : e.sync.keys = S

theorem Reads.shows (h : Reads A c w q V n S s) : Shows q V n S s.external :=
  ⟨h.quorum, h.voters, h.numsync, h.sync⟩

/-- If the body returns, what it wrote up to a `restart` leaves a pair with the property. -/
def Lands (x : Method ν) (s : QuorumStateResolver ν) (P : External ν → Prop) : Prop :=
  Gen.Returns x s fun ys _ => P (s.external.applyAll (upToRestart ys))

section Lands

variable {x : Method ν} {f : Unit → Method ν} {P : External ν → Prop}
  {Q : QuorumStateResolver ν → Prop}

theorem lands_of_plain (hx : Gen.Ensures x Tracks)
    (h : Gen.Returns x s fun ys s' => Plain ys ∧ Q s') (hQ : ∀ s', Q s' → P s'.external) :
    Lands x s P := by
  intro ys s' hrun
  obtain ⟨hplain, hs'⟩ := h ys s' hrun
  have hall := upToRestart_append hplain []
  rw [List.append_nil, show upToRestart ([] : List (Transition ν)) = [] from rfl,
    List.append_nil] at hall
  rw [hall, ← (hx s ys s' () hrun).external_eq]
  exact hQ s' hs'

theorem lands_bind (hx : Gen.Ensures x Tracks)
    (h : Gen.Returns x s fun ys s' => Plain ys ∧ Q s') (hf : ∀ s', Q s' → Lands (f ()) s' P) :
    Lands (x >>= f) s P := by
  intro ys s' hrun
  obtain ⟨ys₁, s₁, u, ys₂, hrun₁, hrun₂, rfl⟩ := Gen.bind_eq_ok hrun
  obtain ⟨hplain, hs₁⟩ := h ys₁ s₁ hrun₁
  rw [upToRestart_append hplain, External.applyAll_append, ← (hx s ys₁ s₁ u hrun₁).external_eq]
  exact hf s₁ hs₁ ys₂ s' hrun₂

theorem lands_bind_silent (h : Lands x s P)
    (hf : Gen.Returns x s fun _ s' => Gen.Silent (f ()) s') : Lands (x >>= f) s P := by
  intro ys s' hrun
  obtain ⟨ys₁, s₁, u, ys₂, hrun₁, hrun₂, rfl⟩ := Gen.bind_eq_ok hrun
  have hsilent := hf ys₁ s₁ hrun₁
  rw [hsilent, Outcome.mk.injEq] at hrun₂
  obtain ⟨rfl, -⟩ := hrun₂
  rw [List.append_nil]
  exact h ys₁ s₁ hrun₁

theorem Lands.bindSelf {g : QuorumStateResolver ν → Method ν} (h : Lands (g s) s P) :
    Lands (Gen.self >>= g) s P :=
  Gen.Returns.bindSelf h

end Lands

theorem Reads.lands_reset {names : CaseInsensitiveSet ν} {q' : ℤ} {adjustQuorum : Bool}
    (h : Reads A 0 w q ∅ n S s) :
    Lands (quorumUpdate q' names none adjustQuorum) s (Shows 0 ∅ n S) := by
  by_cases hq : q = 0
  · intro ys s' hrun
    obtain ⟨-, hnil, -⟩ := h.returns_reset ys s' hrun
    rw [hnil hq, External.applyAll_nil]
    exact hq ▸ h.shows
  · apply lands_of_plain (Q := Reads A 0 w 0 ∅ n S) (establishes_tracks.quorumUpdate _ _ _)
    · exact h.returns_reset.mono fun ys s' hs' => ⟨hs'.1 hq, hs'.2.2⟩
    · exact fun s' hs' => hs'.shows

/-- The four phases. -/
def phases : Method ν := do
  handleNonSteadyCases
  removeGoneNodes
  addNewNodes
  handleReplicationFactorChange

/-- The two ends of a run: all active nodes are voters and synchronous, or they
are synchronous only and wait to be confirmed. -/
def Landed (A : Finset ν) (w : ℤ) (e : External ν) : Prop :=
  (∃ q, Shows q A (min w A.card) A e) ∨ A ≠ ∅ ∧ Shows 0 ∅ (min w A.card) A e

namespace Reads

/-- A phase that joins `T` is followed by one that lands. -/
theorem lands_of_joined {x : Method ν} {f : Unit → Method ν} {P : External ν → Prop}
    (hx : Gen.Ensures x Tracks) (h : Gen.Returns x s (Joined A c w T))
    (hf : ∀ s' (q' n' : ℤ), n' ≤ T.card → Reads A c w q' T n' T s' → Lands (f ()) s' P) :
    Lands (x >>= f) s P :=
  lands_bind hx h fun s' ⟨q', n', hn', h'⟩ => hf s' q' n' hn' h'

theorem lands_factor (h : Reads A c w q A n A s) (hn : n ≤ A.card) (hc : A = ∅ → c = 0)
    (hw : 1 ≤ w) : Lands handleReplicationFactorChange s (Landed A w) := by
  by_cases hA : A = ∅
  · obtain rfl := hc hA
    subst hA
    have hinc : min s.syncWanted s.sync.len - s.numsync = -n := by
      rw [CaseInsensitiveSet.len_eq, h.sync, h.wanted, h.numsync, Finset.card_empty]
      omega
    have hmin : min w ((∅ : Finset ν).card : ℤ) = 0 := by
      rw [Finset.card_empty]
      omega
    have hland (e : External ν) (he : Shows 0 ∅ 0 ∅ e) : Landed ∅ w e := by
      refine Or.inl ⟨0, ?_⟩
      rw [hmin]
      exact he
    rw [Finset.card_empty] at hn
    apply Lands.bindSelf
    simp only [hinc]
    by_cases hneg : 0 < -n
    · rw [if_pos hneg]
      apply Lands.bindSelf
      have hnum : s.numsync + -n = 0 := by
        rw [h.numsync]
        omega
      refine lands_bind (Q := Reads ∅ 0 w q ∅ 0 ∅) (establishes_tracks.syncUpdate _ _) ?_
        fun s₁ h₁ => ?_
      · exact (h.returns_sync hnum h.sync).mono fun ys s' hs' => ⟨hs'.1, hs'.2.2⟩
      · apply Lands.bindSelf
        exact h₁.lands_reset.mono fun ys s' he => hland _ he
    · rw [if_neg hneg]
      have hzero : n = 0 := by omega
      refine (Gen.silent_when (by omega)).returns ?_
      refine Or.inl ⟨q, ?_⟩
      rw [hmin, ← hzero]
      exact h.shows
  · apply lands_of_plain establishes_tracks.handleReplicationFactorChange (h.returns_factor hA)
    rintro s' ⟨q', h'⟩
    exact Or.inl ⟨q', h'.shows⟩

theorem silent_factor (h : Reads A c w q V n S s) (hn : n = min w S.card) :
    Gen.Silent handleReplicationFactorChange s := by
  have hinc : min s.syncWanted s.sync.len - s.numsync = 0 := by
    rw [CaseInsensitiveSet.len_eq, h.sync, h.wanted, h.numsync]
    omega
  apply Gen.Silent.bindSelf
  rw [if_neg (by omega)]
  exact Gen.silent_when (by omega)

theorem silent_addNewNodes (h : Reads A c w q V n S s) (hA : A ⊆ S) :
    Gen.Silent addNewNodes s := by
  apply Gen.Silent.bindSelf
  apply Gen.silent_when
  rw [CaseInsensitiveSet.truthy_iff, CaseInsensitiveSet.keys_sdiff, h.active, h.sync, not_not,
    Finset.sdiff_eq_empty_iff_subset]
  exact hA

/-- The first nodes become synchronous together, and `/sync` stays empty. -/
theorem returns_addNewNodes_empty (h : Reads A 0 w q ∅ n ∅ s) (hA : A ≠ ∅) (hn : n ≤ 0)
    (hw : 1 ≤ w) :
    Gen.Returns addNewNodes s fun ys s' =>
      Shows 0 ∅ (min w A.card) A (s.external.applyAll (upToRestart ys)) ∧
        Reads A 0 w 0 ∅ (min w A.card) A s' := by
  have htoAdd : (s.active \ s.sync).keys = A := by
    rw [CaseInsensitiveSet.keys_sdiff, h.active, h.sync, Finset.sdiff_empty]
  have hsync : (s.sync ∪ (s.active \ s.sync)).keys = A := by
    rw [CaseInsensitiveSet.keys_union, htoAdd, h.sync, Finset.empty_union]
  have hm : min s.syncWanted (s.sync ∪ (s.active \ s.sync)).len = min w A.card := by
    rw [CaseInsensitiveSet.len_eq, hsync, h.wanted]
  have hpos := Finset.card_pos.mpr (Finset.nonempty_iff_ne_empty.mpr hA)
  have hnone : ¬ s.sync.Truthy := by
    rw [CaseInsensitiveSet.truthy_iff, h.sync]
    exact fun hne => hne rfl
  apply Gen.Returns.bindSelf
  simp only [hm]
  apply Gen.returns_when
  · intro _
    rw [if_pos (by rw [h.numsync]; omega)]
    apply Gen.Returns.bindSelf
    simp only [if_neg hnone]
    have hnum : s.numsync + (min w A.card - s.numsync) = min w A.card := by
      omega
    refine ((h.returns_sync hnum hsync).and_ensures (establishes_tracks.syncUpdate _ _)).bind
      fun ys s₁ ⟨⟨hplain, _, h₁⟩, htracks⟩ => ?_
    apply Gen.Returns.bindSelf
    refine (h₁.returns_reset.and h₁.lands_reset).bind fun zs s₂ ⟨⟨_, _, h₂⟩, hland⟩ => ?_
    apply Gen.Returns.bindSelf
    refine (Gen.silent_when ?_).returns ?_
    · rw [CaseInsensitiveSet.truthy_iff, CaseInsensitiveSet.keys_sdiff, htoAdd, h₂.sync, sdiff_self]
      exact fun hne => hne rfl
    · rw [List.append_nil, upToRestart_append hplain, External.applyAll_append, ← htracks.external_eq]
      exact ⟨hland, h₂⟩
  · intro hempty
    rw [CaseInsensitiveSet.truthy_iff, htoAdd] at hempty
    exact absurd hA hempty

/-- From nodes that are active, voters and synchronous, a run lands. -/
theorem lands_rest (h : Reads A c w q T n T s) (hTA : T ⊆ A) (hn : n ≤ T.card)
    (hc : T = ∅ → c = 0) (hw : 1 ≤ w) :
    Lands (addNewNodes >>= fun _ => handleReplicationFactorChange) s (Landed A w) := by
  by_cases hT : T = ∅
  · obtain rfl := hc hT
    subst hT
    rw [Finset.card_empty] at hn
    by_cases hA : A = ∅
    · have hsilent := h.silent_addNewNodes (by rw [hA])
      subst hA
      refine lands_bind (Q := Reads ∅ 0 w q ∅ n ∅) establishes_tracks.addNewNodes
        (hsilent.returns ⟨plain_nil, h⟩) fun s₁ h₁ => ?_
      exact h₁.lands_factor hn (fun _ => rfl) hw
    · have hadd := h.returns_addNewNodes_empty hA hn hw
      apply lands_bind_silent
      · exact hadd.mono fun ys s' hs' => Or.inr ⟨hA, hs'.1⟩
      · exact hadd.mono fun ys s' hs' => hs'.2.silent_factor rfl
  · have hA : A ≠ ∅ := fun hempty => hT (Finset.subset_empty.mp (hempty ▸ hTA))
    refine lands_of_joined establishes_tracks.addNewNodes (h.returns_addNewNodes hT hTA hn)
      fun s₁ q₁ n₁ hn₁ h₁ => ?_
    exact h₁.lands_factor hn₁ (fun hempty => absurd hempty hA) hw

/-- Every run lands, if `numsync_confirmed` counts the active synchronous nodes. -/
theorem lands_phases (h : Reads A c w q V n S s) (hn : n ≤ S.card) (hc : c = (S ∩ A).card)
    (hw : 1 ≤ w) :
    Lands phases s (Landed A w) := by
  have hconfirmed : S ∩ A ≠ ∅ → c ≠ 0 := by
    intro hne
    have hpos := Finset.card_pos.mpr (Finset.nonempty_iff_ne_empty.mpr hne)
    omega
  have hzero {K : Finset ν} (hkept : S ∩ A ⊆ K) (hK : K = ∅) : c = 0 := by
    rw [hK, Finset.subset_empty] at hkept
    rw [hc, hkept, Finset.card_empty]
    rfl
  have hnonSteady : Gen.Returns handleNonSteadyCases s fun ys s' =>
      Plain ys ∧ ∃ (T : Finset ν) (q' n' : ℤ), S ∩ A ⊆ T ∧ n' ≤ T.card ∧ Reads A c w q' T n' T s' := by
    refine (h.returns_match hn hconfirmed).bind
      fun ys s₁ ⟨hplain, q₁, V₁, n₁, S₁, hn₁, hkept, h₁⟩ => ?_
    refine Gen.Returns.bind (P := fun zs s' => Plain zs ∧ Reads A c w q₁ S₁ n₁ S₁ s')
      (Gen.returns_check fun hassert => ?_) fun zs s₂ ⟨hplain₂, h₂⟩ => ?_
    · have hsame : s₁.voters.Same s₁.sync := by
        by_contra hne
        rw [if_neg hne] at hassert
        cases hassert
      rw [CaseInsensitiveSet.same_iff, h₁.voters, h₁.sync] at hsame
      exact ⟨plain_nil, hsame ▸ h₁⟩
    · refine (h₂.returns_trimMargin hn₁ (hzero hkept) hw).mono
        fun us s₃ ⟨hplain₃, q₃, n₃, hn₃, h₃⟩ => ?_
      exact ⟨hplain.append (hplain₂.append hplain₃), S₁, q₃, n₃, hkept, hn₃, h₃⟩
  refine lands_bind establishes_tracks.handleNonSteadyCases hnonSteady
    fun s₁ ⟨T, q₁, n₁, hkept, hn₁, h₁⟩ => ?_
  refine lands_of_joined establishes_tracks.removeGoneNodes (h₁.returns_removeGoneNodes hn₁)
    fun s₂ q₂ n₂ hn₂ h₂ => ?_
  have hkept' : S ∩ A ⊆ T ∩ A := Finset.subset_inter hkept Finset.inter_subset_right
  exact h₂.lands_rest Finset.inter_subset_right hn₂ (hzero hkept') hw

/-! ## Runs from where a run has landed -/

theorem silent_match (h : Reads A c w q T n T s) : Gen.Silent matchVotersAndSync s := by
  have hlt : ¬ s.sync < s.voters := by
    rw [CaseInsensitiveSet.lt_iff, h.sync, h.voters]
    exact ssubset_irrefl T
  have hgt : ¬ s.voters < s.sync := by
    rw [CaseInsensitiveSet.lt_iff, h.sync, h.voters]
    exact ssubset_irrefl T
  apply Gen.Silent.bindSelf
  rw [if_neg hlt]
  exact Gen.silent_when hgt

theorem silent_assert (h : Reads A c w q T n T s) :
    Gen.Silent (assertSelf fun self => self.voters.Same self.sync) s := by
  apply Gen.silent_check
  rw [if_pos ((CaseInsensitiveSet.same_iff _ _).mpr (h.voters.trans h.sync.symm))]

/-- With all nodes confirmed there is no margin below the optimal quorum. -/
theorem silent_trimMargin (h : Reads A T.card w q T n T s) (hn : n ≤ T.card)
    (hq : q + n ≤ T.card) : Gen.Silent trimMargin s := by
  have hunion : (s.voters ∪ s.sync).keys = T := by
    rw [CaseInsensitiveSet.keys_union, h.voters, h.sync, Finset.union_self]
  apply Gen.Silent.bindSelf
  simp only [CaseInsensitiveSet.len_eq, hunion, h.quorum, h.numsync, h.confirmed, h.wanted]
  rw [if_neg (by omega)]
  apply Gen.silent_when
  rw [CaseInsensitiveSet.len_eq, hunion, h.quorum, h.numsync]
  omega

theorem silent_removeGoneNodes (h : Reads A c w q V n S s) (hS : S ⊆ A) :
    Gen.Silent removeGoneNodes s := by
  have hnone : ¬ (s.sync \ s.active).Truthy := by
    rw [CaseInsensitiveSet.truthy_iff, CaseInsensitiveSet.keys_sdiff, h.sync, h.active, not_not,
      Finset.sdiff_eq_empty_iff_subset]
    exact hS
  apply Gen.Silent.bindSelf
  rw [if_neg fun hall => hnone hall.1]
  exact Gen.silent_when hnone

theorem silent_rest (h : Reads A c w q A (min w A.card) A s) :
    Gen.Silent (removeGoneNodes >>= fun _ => addNewNodes >>= fun _ =>
      handleReplicationFactorChange) s :=
  (h.silent_removeGoneNodes (Finset.Subset.refl A)).bind
    ((h.silent_addNewNodes (Finset.Subset.refl A)).bind (h.silent_factor rfl))

theorem silent_phases (h : Reads A A.card w q A (min w A.card) A s)
    (hq : q + min w A.card ≤ A.card) : Gen.Silent phases s :=
  Gen.Silent.bind (h.silent_match.bind (h.silent_assert.bind
    (h.silent_trimMargin (min_le_right _ _) hq))) h.silent_rest

/-- A quorum above the optimal one is lowered. -/
theorem lands_phases_of_margin (h : Reads A A.card w q A (min w A.card) A s)
    (hw : 1 ≤ w) (hq : A.card < q + min w A.card) :
    Lands phases s (Shows (A.card - min w A.card) A (min w A.card) A) := by
  have hunion : (s.voters ∪ s.sync).keys = A := by
    rw [CaseInsensitiveSet.keys_union, h.voters, h.sync, Finset.union_self]
  have hle : min w (A.card : ℤ) ≤ A.card := min_le_right _ _
  have htrim : Gen.Returns trimMargin s fun ys s' =>
      Plain ys ∧ Reads A A.card w (A.card - min w A.card) A (min w A.card) A s' := by
    apply Gen.Returns.bindSelf
    simp only [CaseInsensitiveSet.len_eq, hunion, h.quorum, h.numsync, h.confirmed, h.wanted]
    rw [if_pos (by omega), if_neg (by omega), h.sync]
    by_cases hA : A = ∅
    · subst hA
      rw [Finset.card_empty] at hq hle h ⊢
      refine h.returns_reset.mono fun ys s' ⟨hplain, _, h'⟩ => ⟨hplain (by omega), ?_⟩
      rw [show ((0 : ℕ) : ℤ) - min w ((0 : ℕ) : ℤ) = 0 by omega]
      exact h'
    · refine (h.returns_quorum (Or.inl hA) rfl h.voters).mono fun ys s' ⟨hplain, h'⟩ => ?_
      have hadjust : adjustment true (min w A.card) A.card = 0 := by
        rw [adjustment, if_pos rfl]
        omega
      rw [hadjust, Int.add_zero] at h'
      exact ⟨hplain, h'⟩
  have hnonSteady : Gen.Returns handleNonSteadyCases s fun ys s' =>
      Plain ys ∧ Reads A A.card w (A.card - min w A.card) A (min w A.card) A s' :=
    h.silent_match.bind_returns (h.silent_assert.bind_returns htrim)
  exact lands_bind establishes_tracks.handleNonSteadyCases hnonSteady
    fun s₁ h₁ => h₁.silent_rest.returns h₁.shows

/-- Without voters, the synchronous nodes become voters and no quorum has to be adjusted. -/
theorem returns_extendVoters_of_unconfirmed (h : Reads A A.card w q ∅ (min w A.card) A s)
    (hA : A ≠ ∅) :
    Gen.Returns extendVoters s fun ys s' =>
      Plain ys ∧ Reads A A.card w (A.card - min w A.card) A (min w A.card) A s' := by
  have hpos := Finset.card_pos.mpr (Finset.nonempty_iff_ne_empty.mpr hA)
  have hadded : ((s.sync \ s.voters) ∩ s.active).keys = A := by
    rw [CaseInsensitiveSet.keys_inter, CaseInsensitiveSet.keys_sdiff, h.sync, h.voters, h.active,
      Finset.sdiff_empty, Finset.inter_self]
  have hvoters : (s.voters ∪ (s.sync \ s.voters) ∩ s.active).keys = A := by
    rw [CaseInsensitiveSet.keys_union, hadded, h.voters, Finset.empty_union]
  have hkept : ¬ (s.sync \ s.active).Truthy := by
    rw [CaseInsensitiveSet.truthy_iff, CaseInsensitiveSet.keys_sdiff, h.sync, h.active, sdiff_self,
      not_not]
    rfl
  have hquorum : (s.voters ∪ (s.sync \ s.voters) ∩ s.active).len - s.numsync =
      A.card - min w A.card := by
    rw [CaseInsensitiveSet.len_eq, hvoters, h.numsync]
  have hadjust : adjustment true (min w A.card) A.card = 0 := by
    rw [adjustment, if_pos rfl]
    omega
  rw [extendVoters_eq]
  apply Gen.Returns.bindSelf
  refine (Gen.silent_when fun hdrop => hkept hdrop.1).bind_returns ?_
  apply Gen.Returns.bindSelf
  refine Gen.Returns.bind (P := fun ys s' =>
    Plain ys ∧ Reads A A.card w (A.card - min w A.card) A (min w A.card) A s') ?_ ?_
  · apply Gen.returns_when
    · intro _
      refine (h.returns_quorum (Or.inr ⟨by omega, hA⟩) hquorum hvoters).mono ?_
      intro ys s' hys
      rw [hadjust, Int.add_zero] at hys
      exact hys
    · intro hnone
      rw [CaseInsensitiveSet.truthy_iff, hadded] at hnone
      exact absurd hA hnone
  · intro ys s₁ hys
    obtain ⟨hplain, h₁⟩ := hys
    apply Gen.Returns.bindSelf
    refine (Gen.silent_when ?_).returns ⟨hplain.append plain_nil, h₁⟩
    rw [CaseInsensitiveSet.truthy_iff, CaseInsensitiveSet.keys_sdiff, h₁.sync, h₁.voters,
      sdiff_self, not_not]
    rfl

/-- Synchronous nodes that wait to be confirmed become voters. -/
theorem lands_phases_of_unconfirmed (h : Reads A A.card w q ∅ (min w A.card) A s) (hA : A ≠ ∅) :
    Lands phases s (Shows (A.card - min w A.card) A (min w A.card) A) := by
  have hpos := Finset.card_pos.mpr (Finset.nonempty_iff_ne_empty.mpr hA)
  have hle : min w (A.card : ℤ) ≤ A.card := min_le_right _ _
  have hlt : ¬ s.sync < s.voters := by
    rw [CaseInsensitiveSet.lt_iff, h.sync, h.voters]
    exact Finset.not_ssubset_empty A
  have hgt : s.voters < s.sync := by
    rw [CaseInsensitiveSet.lt_iff, h.sync, h.voters]
    exact Finset.empty_ssubset.mpr (Finset.nonempty_iff_ne_empty.mpr hA)
  have hmatch : Gen.Returns matchVotersAndSync s fun ys s' =>
      Plain ys ∧ Reads A A.card w (A.card - min w A.card) A (min w A.card) A s' := by
    apply Gen.Returns.bindSelf
    rw [if_neg hlt]
    exact Gen.returns_when (fun _ => h.returns_extendVoters_of_unconfirmed hA)
      fun hnot => absurd hgt hnot
  have hnonSteady : Gen.Returns handleNonSteadyCases s fun ys s' =>
      Plain ys ∧ Reads A A.card w (A.card - min w A.card) A (min w A.card) A s' := by
    refine hmatch.bind ?_
    intro ys s₁ hys
    obtain ⟨hplain, h₁⟩ := hys
    refine h₁.silent_assert.bind_returns ?_
    refine (h₁.silent_trimMargin hle (by omega)).returns ?_
    exact ⟨hplain.append plain_nil, h₁⟩
  exact lands_bind establishes_tracks.handleNonSteadyCases hnonSteady
    fun s₁ h₁ => h₁.silent_rest.returns h₁.shows

end Reads

/-! ## The fixpoint -/

/-- A state of the settled leader that counts the active synchronous nodes as confirmed. -/
structure ConfirmedStart (s : QuorumStateResolver ν) : Prop where
  leader : s.leader = s.leaderWanted
  invariants : s.checkInvariants = .ok ()
  numsync_le : s.numsync ≤ s.sync.len
  confirmed : s.numsyncConfirmed = (s.sync ∩ s.active).len
  one_le_wanted : 1 ≤ s.syncWanted

namespace ConfirmedStart

theorem confirmed_card (h : ConfirmedStart s) :
    s.numsyncConfirmed = (s.sync.keys ∩ s.active.keys).card := by
  rw [h.confirmed, CaseInsensitiveSet.len_eq, CaseInsensitiveSet.keys_inter]

theorem reads (h : ConfirmedStart s) :
    Reads s.active.keys (s.sync.keys ∩ s.active.keys).card s.syncWanted s.quorum s.voters.keys
      s.numsync s.sync.keys s :=
  ⟨rfl, rfl, rfl, rfl, rfl, h.confirmed_card, rfl⟩

theorem generateTransitions_run (h : ConfirmedStart s) : generateTransitions s = phases s := by
  have hadjust : s.adjustConfirmed = s := by
    rw [adjustConfirmed, if_neg]
    rintro ⟨hzero, hsome⟩
    exact hsome (h.confirmed.symm.trans hzero)
  rw [generateTransitions_of_leader h.leader.symm h.invariants, settle_of_leader h.leader.symm,
    hadjust]
  rfl

theorem iter_lands {ts : List (Transition ν)} {P : External ν → Prop} (h : ConfirmedStart s)
    (hland : Lands phases s P) (hiter : s.iter = .ok ts) : P (s.external.applyAll ts) := by
  obtain ⟨ys, s', u, hrun, rfl⟩ := iter_eq_ok hiter
  rw [h.generateTransitions_run] at hrun
  rw [applyAll_mergeTransitions]
  exact hland ys s' hrun

theorem iter_landed {ts : List (Transition ν)} (h : ConfirmedStart s) (hiter : s.iter = .ok ts) :
    Landed s.active.keys s.syncWanted (s.external.applyAll ts) := by
  refine h.iter_lands (h.reads.lands_phases ?_ rfl h.one_le_wanted) hiter
  rw [← CaseInsensitiveSet.len_eq]
  exact h.numsync_le

end ConfirmedStart

/-- Nothing is left to do: the docstring's optimal state, where the quorum may
also be lower, as far as the invariants permit that. -/
def Quiet (A : Finset ν) (w : ℤ) (e : External ν) : Prop :=
  ∃ q, q + min w A.card ≤ A.card ∧ Shows q A (min w A.card) A e

namespace ConfirmedStart

theorem iter_of_quiet (h : ConfirmedStart s) (hquiet : Quiet s.active.keys s.syncWanted s.external) :
    s.iter = .ok [] := by
  obtain ⟨q, hq, hshow⟩ := hquiet
  have hreads : Reads s.active.keys s.active.keys.card s.syncWanted q s.active.keys
      (min s.syncWanted s.active.keys.card) s.active.keys s := by
    refine ⟨hshow.quorum, hshow.voters, hshow.numsync, hshow.sync, rfl, ?_, rfl⟩
    rw [h.confirmed_card, show s.sync.keys = s.active.keys from hshow.sync, Finset.inter_self]
  rw [iter, h.generateTransitions_run, hreads.silent_phases hq]
  simp only [mergeTransitions]

/-- Where a run has landed, the next one leaves nothing to do. -/
theorem quiet_of_landed {ts : List (Transition ν)} (h : ConfirmedStart s)
    (hland : Landed s.active.keys s.syncWanted s.external) (hiter : s.iter = .ok ts) :
    Quiet s.active.keys s.syncWanted (s.external.applyAll ts) := by
  have hoptimal (e : External ν)
      (he : Shows (s.active.keys.card - min s.syncWanted s.active.keys.card) s.active.keys
        (min s.syncWanted s.active.keys.card) s.active.keys e) :
      Quiet s.active.keys s.syncWanted e := ⟨_, by omega, he⟩
  have hconfirmed {q n : ℤ} {V : Finset ν} (hshow : Shows q V n s.active.keys s.external) :
      Reads s.active.keys s.active.keys.card s.syncWanted q V n s.active.keys s := by
    refine ⟨hshow.quorum, hshow.voters, hshow.numsync, hshow.sync, rfl, ?_, rfl⟩
    rw [h.confirmed_card, show s.sync.keys = s.active.keys from hshow.sync, Finset.inter_self]
  rcases hland with ⟨q, hshow⟩ | ⟨hA, hshow⟩
  · by_cases hq : q + min s.syncWanted s.active.keys.card ≤ s.active.keys.card
    · have hquiet : Quiet s.active.keys s.syncWanted s.external := ⟨q, hq, hshow⟩
      rw [h.iter_of_quiet hquiet, Except.ok.injEq] at hiter
      rw [← hiter]
      exact hquiet
    · apply hoptimal
      refine h.iter_lands ((hconfirmed hshow).lands_phases_of_margin h.one_le_wanted ?_) hiter
      omega
  · apply hoptimal
    exact h.iter_lands ((hconfirmed hshow).lands_phases_of_unconfirmed hA) hiter

/-- Only the quorum of a resolver without nodes may differ from the optimal one. -/
theorem quiet_iff (h : ConfirmedStart s) (hactive : s.leader ∉ s.active) :
    Quiet s.active.keys s.syncWanted s.external ↔
      s.sync.Same s.active ∧ s.voters.Same s.active ∧
        s.numsync = min s.syncWanted s.active.len ∧
        (s.quorum = s.active.len - s.numsync ∨ ¬ s.active.Truthy ∧ s.quorum < 0) := by
  have hw := h.one_le_wanted
  rw [CaseInsensitiveSet.same_iff, CaseInsensitiveSet.same_iff, CaseInsensitiveSet.len_eq,
    CaseInsensitiveSet.truthy_iff, not_not]
  constructor
  · rintro ⟨q, hq, hshow⟩
    have hsync : s.sync.keys = s.active.keys := hshow.sync
    have hvoters : s.voters.keys = s.active.keys := hshow.voters
    have hnumsync : s.numsync = min s.syncWanted s.active.keys.card := hshow.numsync
    have hquorum : s.quorum = q := hshow.quorum
    refine ⟨hsync, hvoters, hnumsync, ?_⟩
    by_cases hA : s.active.keys = ∅
    · rw [hA, Finset.card_empty] at hq hnumsync ⊢
      rcases lt_or_ge s.quorum 0 with hneg | hnonneg
      · exact Or.inr ⟨rfl, hneg⟩
      · left
        omega
    · left
      have hoverlap := ((checkInvariants_eq_ok_iff s).mp h.invariants).overlap (hvoters ▸ hA)
      have hnodes : s.external.voterNodes ∪ s.external.syncNodes s.leaderWanted =
          insert (lower s.leader) s.active.keys := by
        rw [External.voterNodes, External.syncNodes, ← h.leader]
        simp only [external, hvoters, hsync, Finset.union_self]
      rw [hnodes, Finset.card_insert_of_notMem
        ((CaseInsensitiveSet.mem_iff _ _).not.mp hactive)] at hoverlap
      have hoverlap' : ((s.active.keys.card + 1 : ℕ) : ℤ) ≤ s.quorum + s.numsync + 1 := hoverlap
      omega
  · rintro ⟨hsync, hvoters, hnumsync, hquorum⟩
    refine ⟨s.quorum, ?_, rfl, hvoters, hnumsync, hsync⟩
    rcases hquorum with hquorum | ⟨hA, hquorum⟩
    · omega
    · rw [hA, Finset.card_empty]
      omega

end ConfirmedStart

/-- The resolver yields nothing exactly in the optimal state. Without any node
it does not care for a quorum below zero either. -/
theorem iter_yields_nothing_iff_optimal (self : QuorumStateResolver ν)
    (hleader : self.leader = self.leaderWanted)
    (hnotMem : self.leader ∉ self.voters ∧ self.leader ∉ self.sync ∧ self.leader ∉ self.active)
    (hinvariants : self.checkInvariants = .ok ()) (hnumsync : self.numsync ≤ self.sync.len)
    (hconfirmed : self.numsyncConfirmed = (self.sync ∩ self.active).len)
    (hwanted : 1 ≤ self.syncWanted) :
    self.iter = .ok [] ↔
      self.sync.Same self.active ∧ self.voters.Same self.active ∧
        self.numsync = min self.syncWanted self.active.len ∧
        (self.quorum = self.active.len - self.numsync ∨
          ¬ self.active.Truthy ∧ self.quorum < 0) := by
  have h : ConfirmedStart self := ⟨hleader, hinvariants, hnumsync, hconfirmed, hwanted⟩
  rw [← h.quiet_iff hnotMem.2.2]
  constructor
  · intro hiter
    have hland : Landed self.active.keys self.syncWanted self.external := h.iter_landed hiter
    exact h.quiet_of_landed hland hiter
  · exact h.iter_of_quiet

/-- Three nodes of which two are waited for. -/
theorem iter_yields_nothing_for_three :
    let self := init "a" 1 (.ofList ["b", "c", "d"]) 2 (.ofList ["b", "c", "d"]) 3
      (.ofList ["b", "c", "d"]) 2 "a"
    self.checkInvariants = .ok () ∧ self.iter = .ok [] := by
  intro self
  have hinvariants : self.checkInvariants = .ok () := by decide +kernel
  refine ⟨hinvariants, ?_⟩
  apply (iter_yields_nothing_iff_optimal self (by decide +kernel) (by decide +kernel) hinvariants
    (by decide +kernel) (by decide +kernel) (by decide +kernel)).mpr
  decide +kernel

/-- A negative quorum of nobody is left as it is. -/
theorem iter_yields_nothing_for_negative_quorum :
    let self := init "a" (-1) ∅ 0 ∅ 0 ∅ 1 "a"
    self.leader = self.leaderWanted ∧
      (self.leader ∉ self.voters ∧ self.leader ∉ self.sync ∧ self.leader ∉ self.active) ∧
      self.checkInvariants = .ok () ∧ self.numsync ≤ self.sync.len ∧
      self.numsyncConfirmed = (self.sync ∩ self.active).len ∧ 1 ≤ self.syncWanted ∧
      self.iter = .ok [] ∧ self.quorum ≠ self.active.len - self.numsync := by
  decide +kernel

/-! ## Convergence -/

/-- The resolver that the HA loop builds from what is written outside, with
every active synchronous node confirmed. -/
def rebuild (name : ν) (active : CaseInsensitiveSet ν) (syncWanted : ℤ) (e : External ν) :
    QuorumStateResolver ν :=
  init e.leader e.quorum e.voters e.numsync e.sync (e.sync ∩ active).len active syncWanted name

/-- A run of such a resolver whose transitions are all applied. -/
def Reruns (name : ν) (active : CaseInsensitiveSet ν) (syncWanted : ℤ) (e e' : External ν) :
    Prop :=
  ∃ ts, (rebuild name active syncWanted e).iter = .ok ts ∧ e' = e.applyAll ts

/-- `numsync` as `__init__` reads it. -/
def clamp (e : External ν) : External ν := { e with numsync := min e.numsync e.sync.len }

theorem clamp_applyAll {ts : List (Transition ν)} (hrange : ∀ t ∈ ts, InRange t) (e : External ν) :
    clamp (e.applyAll ts) = (clamp e).applyAll ts := by
  induction ts generalizing e with
  | nil => rfl
  | cons t ts ih =>
      have happly : clamp (e.apply t) = (clamp e).apply t := by
        have ht := hrange t List.mem_cons_self
        rw [InRange] at ht
        rw [External.apply, External.apply]
        cases htype : t.transitionType with
        | quorum => rfl
        | sync =>
            rw [htype] at ht
            simp only [clamp]
            rw [min_eq_left ht]
        | restart => rfl
      rw [External.applyAll_cons, External.applyAll_cons,
        ih (fun u hu => hrange u (List.mem_cons_of_mem t hu)), happly]

section Rerun

variable {name : ν} {active : CaseInsensitiveSet ν} {syncWanted : ℤ} {e e' : External ν}

theorem rebuild_confirmedStart (hleader : e.leader = name)
    (hinvariants : (rebuild name active syncWanted e).checkInvariants = .ok ())
    (hwanted : 1 ≤ syncWanted) : ConfirmedStart (rebuild name active syncWanted e) :=
  ⟨hleader, hinvariants, min_le_right _ _, rfl, hwanted⟩

theorem applyAll_leader {ts : List (Transition ν)} (hleader : ∀ t ∈ ts, t.leader = e.leader) :
    (e.applyAll ts).leader = e.leader := by
  induction ts generalizing e with
  | nil => rfl
  | cons t ts ih =>
      have happly : (e.apply t).leader = e.leader := by
        rw [External.apply]
        cases t.transitionType with
        | quorum => exact hleader t List.mem_cons_self
        | sync => rfl
        | restart => rfl
      rw [External.applyAll_cons, ih, happly]
      intro u hu
      rw [happly]
      exact hleader u (List.mem_cons_of_mem t hu)

/-- A run keeps the leader and the invariants, so the next resolver starts from
where it ended. -/
theorem Reruns.next (h : Reruns name active syncWanted e e')
    (hstart : ConfirmedStart (rebuild name active syncWanted e)) :
    ∃ ts, (rebuild name active syncWanted e).iter = .ok ts ∧
      (rebuild name active syncWanted e').external =
        (rebuild name active syncWanted e).external.applyAll ts ∧
      ConfirmedStart (rebuild name active syncWanted e') := by
  obtain ⟨ts, hiter, rfl⟩ := h
  have hkeeps := iter_keepsLeader hstart.leader.symm hstart.invariants hiter
  have hexternal : (rebuild name active syncWanted (e.applyAll ts)).external =
      (rebuild name active syncWanted e).external.applyAll ts :=
    clamp_applyAll (fun t ht => (hkeeps t ht).2) e
  refine ⟨ts, hiter, hexternal, rebuild_confirmedStart ?_ ?_ hstart.one_le_wanted⟩
  · rw [applyAll_leader fun t ht => (hkeeps t ht).1]
    exact hstart.leader
  · have hconsistent := iter_take_consistent hstart.invariants hiter ts.length
    rw [List.take_length, ← hexternal] at hconsistent
    exact (checkInvariants_eq_ok_iff _).mpr hconsistent

end Rerun

/-- Whatever the resolver starts from, after two runs nothing is left to do. -/
theorem reruns_converge (name : ν) (active : CaseInsensitiveSet ν) (syncWanted : ℤ)
    (states : ℕ → External ν) (hleader : (states 0).leader = name)
    (hinvariants : (rebuild name active syncWanted (states 0)).checkInvariants = .ok ())
    (hwanted : 1 ≤ syncWanted)
    (hrun : ∀ k, Reruns name active syncWanted (states k) (states (k + 1))) :
    ∃ k ≤ 3, (rebuild name active syncWanted (states k)).iter = .ok [] := by
  have h₀ := rebuild_confirmedStart hleader hinvariants hwanted
  obtain ⟨ts₀, hiter₀, hexternal₁, h₁⟩ := (hrun 0).next h₀
  obtain ⟨ts₁, hiter₁, hexternal₂, h₂⟩ := (hrun 1).next h₁
  have hlanded := h₀.iter_landed hiter₀
  rw [← hexternal₁] at hlanded
  have hquiet := h₁.quiet_of_landed hlanded hiter₁
  rw [← hexternal₂] at hquiet
  exact ⟨2, by omega, h₂.iter_of_quiet hquiet⟩

/-- Three replicas of a leader without any synchronous node: the first run ends
with a `restart`, the second one writes `/sync`. -/
theorem reruns_converge_from_empty :
    let active : CaseInsensitiveSet String := .ofList ["b", "c", "d"]
    let start : External String := ⟨"a", 0, ∅, 0, ∅⟩
    let first : List (Transition String) := [⟨.sync, "a", 2, active⟩, ⟨.restart, "a", 0, ∅⟩]
    let second : List (Transition String) := [⟨.quorum, "a", 1, active⟩]
    let states : ℕ → External String := fun
      | 0 => start
      | 1 => start.applyAll first
      | _ => start.applyAll (first ++ second)
    (rebuild "a" active 2 start).iter = .ok first ∧
      ∃ k ≤ 3, (rebuild "a" active 2 (states k)).iter = .ok [] := by
  intro active start first second states
  have hfirst : (rebuild "a" active 2 start).iter = .ok first := by decide +kernel
  have hsecond : (rebuild "a" active 2 (start.applyAll first)).iter = .ok second := by
    decide +kernel
  have hlast : (rebuild "a" active 2 (start.applyAll (first ++ second))).iter = .ok [] := by
    decide +kernel
  refine ⟨hfirst, ?_⟩
  apply reruns_converge "a" active 2 states rfl (by decide +kernel) (by decide)
  intro k
  match k with
  | 0 => exact ⟨first, hfirst, rfl⟩
  | 1 => exact ⟨second, hsecond, External.applyAll_append start first second⟩
  | k + 2 => exact ⟨[], hlast, rfl⟩

end QuorumStateResolver

end Metatroni
