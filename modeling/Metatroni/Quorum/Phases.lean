import Metatroni.Quorum.External

/-!
# Where the phases of the resolver lead

The phases of `_generate_transitions` one after another, from a state that is
described by its quorum, its voters, its `numsync` and its synchronous nodes as
finite sets of lower-cased names. For each phase there is a statement where it
ends, and for those that can raise also one when they do.

The node that runs the resolver is neither a voter nor synchronous nor active,
so it drops out of the invariants.
-/

namespace Metatroni

open Generators

variable {ν : Type} [NodeName ν]

namespace QuorumStateResolver

/-- Both invariants, without the leader. -/
structure Balanced (q : ℤ) (V : Finset ν) (n : ℤ) (S : Finset ν) : Prop where
  overlap : V ≠ ∅ → ((V ∪ S).card : ℤ) ≤ q + n
  nested : V ⊆ S ∨ S ⊆ V

/-- A state of the resolver in the terms of this file, for active nodes `A`,
`numsync_confirmed` `c` and `sync_wanted` `w`. -/
structure At (A : Finset ν) (c w : ℤ) (q : ℤ) (V : Finset ν) (n : ℤ) (S : Finset ν)
    (s : QuorumStateResolver ν) : Prop where
  leader : s.leader = s.leaderWanted
  outside : lower s.leader ∉ V ∪ S ∪ A
  quorum : s.quorum = q
  voters : s.voters.keys = V
  numsync : s.numsync = n
  sync : s.sync.keys = S
  active : s.active.keys = A
  confirmed : s.numsyncConfirmed = c
  wanted : s.syncWanted = w

variable {A V S : Finset ν} {c w q n : ℤ} {s : QuorumStateResolver ν}

namespace At

theorem notMem_voters (h : At A c w q V n S s) : lower s.leader ∉ V := fun hmem =>
  h.outside (Finset.mem_union_left _ (Finset.mem_union_left _ hmem))

theorem notMem_sync (h : At A c w q V n S s) : lower s.leader ∉ S := fun hmem =>
  h.outside (Finset.mem_union_left _ (Finset.mem_union_right _ hmem))

theorem check_iff (h : At A c w q V n S s) : s.checkInvariants = .ok () ↔ Balanced q V n S := by
  have hunion : s.external.voterNodes ∪ s.external.syncNodes s.leaderWanted =
      insert (lower s.leader) (V ∪ S) := by
    simp only [External.voterNodes, External.syncNodes, external, ← h.leader, h.voters, h.sync,
      Finset.insert_union, Finset.union_insert, Finset.insert_idem]
  have hcard : (insert (lower s.leader) (V ∪ S)).card = (V ∪ S).card + 1 :=
    Finset.card_insert_of_notMem fun hmem => h.outside (Finset.mem_union_left _ hmem)
  have hsub₁ : s.external.voterNodes ⊆ s.external.syncNodes s.leaderWanted ↔ V ⊆ S := by
    simp only [External.voterNodes, External.syncNodes, external, ← h.leader, h.voters, h.sync]
    exact Finset.insert_subset_insert_iff h.notMem_voters
  have hsub₂ : s.external.syncNodes s.leaderWanted ⊆ s.external.voterNodes ↔ S ⊆ V := by
    simp only [External.voterNodes, External.syncNodes, external, ← h.leader, h.voters, h.sync]
    exact Finset.insert_subset_insert_iff h.notMem_sync
  rw [checkInvariants_eq_ok_iff]
  constructor
  · intro hc
    refine ⟨?_, ?_⟩
    · intro hv
      have hoverlap := hc.overlap (h.voters ▸ hv)
      rw [hunion, hcard] at hoverlap
      simp only [external, h.quorum, h.numsync] at hoverlap
      omega
    · rw [← hsub₁, ← hsub₂]
      exact hc.nested
  · intro hb
    refine ⟨?_, ?_⟩
    · intro hv
      have hoverlap := hb.overlap (h.voters ▸ hv)
      rw [hunion, hcard]
      simp only [external, h.quorum, h.numsync]
      omega
    · rw [hsub₁, hsub₂]
      exact hb.nested

/-! ## The two updates -/

/-- The state after `sync_update` has assigned its attributes. -/
theorem assignSync {names : CaseInsensitiveSet ν} (h : At A c w q V n S s) (n' : ℤ)
    (hsub : names.keys ⊆ V ∪ S ∪ A) :
    At A c w q V n' names.keys { s with numsync := n', sync := names } where
  leader := h.leader
  outside := by
    intro hmem
    rcases Finset.mem_union.mp hmem with hmem | hmem
    · rcases Finset.mem_union.mp hmem with hmem | hmem
      · exact h.notMem_voters hmem
      · exact h.outside (hsub hmem)
    · exact h.outside (Finset.mem_union_right _ hmem)
  quorum := h.quorum
  voters := h.voters
  numsync := rfl
  sync := rfl
  active := h.active
  confirmed := h.confirmed
  wanted := h.wanted

theorem assignVoters {names : CaseInsensitiveSet ν} (h : At A c w q V n S s) (q' : ℤ)
    (hsub : names.keys ⊆ V ∪ S ∪ A) :
    At A c w q' names.keys n S { s with quorum := q', voters := names } where
  leader := h.leader
  outside := by
    intro hmem
    rcases Finset.mem_union.mp hmem with hmem | hmem
    · rcases Finset.mem_union.mp hmem with hmem | hmem
      · exact h.outside (hsub hmem)
      · exact h.notMem_sync hmem
    · exact h.outside (Finset.mem_union_right _ hmem)
  quorum := rfl
  voters := rfl
  numsync := h.numsync
  sync := h.sync
  active := h.active
  confirmed := h.confirmed
  wanted := h.wanted

theorem reaches_sync {names : CaseInsensitiveSet ν} {S' : Finset ν} {n' m : ℤ}
    (h : At A c w q V n S s) (hm : n' = m) (hk : names.keys = S') (h₀ : 0 ≤ m)
    (h₁ : m ≤ S'.card) (hsub : S' ⊆ V ∪ S ∪ A) (hb : Balanced q V m S') :
    Gen.Reaches (syncUpdate n' names) s (At A c w q V m S') := by
  subst hm hk
  have hat := h.assignSync n' hsub
  rw [← CaseInsensitiveSet.len_eq] at h₁
  refine ⟨[⟨.sync, s.leader, n', names⟩], _, ?_, hat⟩
  rw [syncUpdate_run n' names s h₀ h₁, hat.check_iff.mpr hb]

theorem raises_sync {names : CaseInsensitiveSet ν} {S' : Finset ν} {n' m : ℤ}
    (h : At A c w q V n S s) (hm : n' = m) (hk : names.keys = S') (hsub : S' ⊆ V ∪ S ∪ A)
    (hbad : m < 0 ∨ ↑S'.card < m ∨ ¬ Balanced q V m S') :
    Gen.Raises (syncUpdate n' names) s := by
  subst hm hk
  rcases hs : syncUpdate n' names s with ⟨ys, s', e | u⟩
  · exact ⟨ys, s', e, hs⟩
  · exfalso
    obtain ⟨h₀, h₁⟩ := syncUpdate_ranges hs
    rw [syncUpdate_run n' names s h₀ h₁] at hs
    obtain ⟨hc, -, -⟩ := match_check_eq_ok hs
    rw [(h.assignSync n' hsub).check_iff] at hc
    rw [CaseInsensitiveSet.len_eq] at h₁
    rcases hbad with hneg | habove | hb
    · exact absurd h₀ (not_le.mpr hneg)
    · exact absurd h₁ (not_le.mpr habove)
    · exact hb hc

end At

/-- By how much `quorum_update` raises the quorum. -/
def adjustment (adjustQuorum : Bool) (n c : ℤ) : ℤ := if adjustQuorum then max (n - c) 0 else 0

/-- The attributes that the phases read, whatever the place of the leader. -/
structure Reads (A : Finset ν) (c w : ℤ) (q : ℤ) (V : Finset ν) (n : ℤ) (S : Finset ν)
    (s : QuorumStateResolver ν) : Prop where
  quorum : s.quorum = q
  voters : s.voters.keys = V
  numsync : s.numsync = n
  sync : s.sync.keys = S
  active : s.active.keys = A
  confirmed : s.numsyncConfirmed = c
  wanted : s.syncWanted = w

namespace Reads

theorem assignQuorum_eq {names : CaseInsensitiveSet ν} {q' : ℤ} {adjustQuorum : Bool}
    (h : Reads A c w q V n S s) (hv : c ≠ 0 ∨ V ≠ ∅) :
    s.assignQuorum q' names none adjustQuorum =
      { s with quorum := q' + adjustment adjustQuorum n c, voters := names } := by
  have hnot : ¬ (s.numsyncConfirmed = 0 ∧ ¬ s.voters.Truthy) := by
    rw [CaseInsensitiveSet.truthy_iff, h.voters, h.confirmed]
    rintro ⟨hc, hempty⟩
    rcases hv with hv | hv
    · exact hv hc
    · exact hempty hv
  simp only [assignQuorum, adjustedQuorum, Option.getD_none, if_neg hnot, adjustment]
  cases adjustQuorum with
  | true => simp only [if_true, h.numsync, h.confirmed]
  | false => simp only [Bool.false_eq_true, if_false, Int.add_zero]

/-- Without voters and without a confirmed node the `/sync` key is reset. -/
theorem assignQuorum_reset {names : CaseInsensitiveSet ν} {q' : ℤ} {adjustQuorum : Bool}
    (h : Reads A 0 w q ∅ n S s) :
    s.assignQuorum q' names none adjustQuorum = { s with quorum := 0, voters := ∅ } := by
  have hreset : s.numsyncConfirmed = 0 ∧ ¬ s.voters.Truthy := by
    rw [CaseInsensitiveSet.truthy_iff, h.voters, h.confirmed]
    exact ⟨rfl, fun hne => hne rfl⟩
  simp only [assignQuorum, adjustedQuorum, Option.getD_none, if_pos hreset]

end Reads

namespace At

theorem reads (h : At A c w q V n S s) : Reads A c w q V n S s :=
  ⟨h.quorum, h.voters, h.numsync, h.sync, h.active, h.confirmed, h.wanted⟩

/-- `quorum_update` returns if its arguments are in range and the assigned
attributes pass the check. -/
theorem reaches_assign {names names' : CaseInsensitiveSet ν} {q' q'' : ℤ} {adjustQuorum : Bool}
    (h : At A c w q V n S s) (h₀ : 0 ≤ q') (h₁ : q' = 0 ∨ q' < names.keys.card)
    (ha : s.assignQuorum q' names none adjustQuorum = { s with quorum := q'', voters := names' })
    (hsub : names'.keys ⊆ V ∪ S ∪ A) (hb : Balanced q'' names'.keys n S) :
    Gen.Reaches (quorumUpdate q' names none adjustQuorum) s (At A c w q'' names'.keys n S) := by
  have hat := h.assignVoters q'' hsub
  have hcheck := hat.check_iff.mpr hb
  have hrange : ¬ (0 < q' ∧ names.len ≤ q') := by
    rw [CaseInsensitiveSet.len_eq]
    omega
  rw [← ha] at hat hcheck
  rcases quorumUpdate_run q' names none adjustQuorum s h₀ hrange with
    ⟨hsame, -, hr⟩ | ⟨-, -, hr⟩ | ⟨-, hr⟩
  · -- nothing is written, and nothing would change but the case of the names
    rw [ha, CaseInsensitiveSet.same_iff] at hsame
    obtain ⟨-, hquorum, hvoters⟩ := hsame
    refine ⟨[], s, hr, ?_⟩
    have hq : q'' = q := hquorum.trans h.quorum
    have hV : names'.keys = V := hvoters.trans h.voters
    rw [hq, hV]
    exact h
  · rw [hcheck] at hr
    exact ⟨_, _, hr, hat⟩
  · rw [hcheck] at hr
    exact ⟨_, _, hr, hat⟩

theorem reaches_quorum {names : CaseInsensitiveSet ν} {V' : Finset ν} {q' r : ℤ}
    {adjustQuorum : Bool} (h : At A c w q V n S s) (hv : c ≠ 0 ∨ V ≠ ∅) (hr : q' = r)
    (hk : names.keys = V') (h₀ : 0 ≤ r) (h₁ : r = 0 ∨ r < V'.card) (hsub : V' ⊆ V ∪ S ∪ A)
    (hb : Balanced (r + adjustment adjustQuorum n c) V' n S) :
    Gen.Reaches (quorumUpdate q' names none adjustQuorum) s
      (At A c w (r + adjustment adjustQuorum n c) V' n S) := by
  subst hr hk
  exact h.reaches_assign h₀ h₁ (h.reads.assignQuorum_eq hv) hsub hb

theorem reaches_reset {names : CaseInsensitiveSet ν} {q' : ℤ} {adjustQuorum : Bool}
    (h : At A 0 w q ∅ n S s) (h₀ : 0 ≤ q') (h₁ : q' = 0 ∨ q' < names.keys.card) :
    Gen.Reaches (quorumUpdate q' names none adjustQuorum) s (At A 0 w 0 ∅ n S) :=
  h.reaches_assign h₀ h₁ h.reads.assignQuorum_reset (Finset.empty_subset _)
    ⟨fun hne => absurd rfl hne, Or.inl (Finset.empty_subset _)⟩

theorem raises_quorum {names : CaseInsensitiveSet ν} {V' : Finset ν} {q' r : ℤ}
    {adjustQuorum : Bool} (h : At A c w q V n S s) (hr : q' = r) (hk : names.keys = V')
    (hbad : r < 0 ∨ (0 < r ∧ ↑V'.card ≤ r) ∨ ((c ≠ 0 ∨ V ≠ ∅) ∧ V' ≠ V ∧ V' ⊆ V ∪ S ∪ A ∧
      ¬ Balanced (r + adjustment adjustQuorum n c) V' n S)) :
    Gen.Raises (quorumUpdate q' names none adjustQuorum) s := by
  subst hr hk
  rcases hs : quorumUpdate q' names none adjustQuorum s with ⟨ys, s', e | u⟩
  · exact ⟨ys, s', e, hs⟩
  · exfalso
    obtain ⟨h₀, hrange⟩ := quorumUpdate_ranges hs
    rcases hbad with hneg | habove | ⟨hv, hne, hsub, hb⟩
    · exact absurd h₀ (not_le.mpr hneg)
    · rw [CaseInsensitiveSet.len_eq] at hrange
      exact hrange habove
    · have ha : s.assignQuorum q' names none adjustQuorum = _ := h.reads.assignQuorum_eq hv
      have hcheck := (h.assignVoters (q' + adjustment adjustQuorum n c) hsub).check_iff
      rw [← ha] at hcheck
      rcases quorumUpdate_run q' names none adjustQuorum s h₀ hrange with
        ⟨hsame, -⟩ | ⟨-, -, hr⟩ | ⟨-, hr⟩
      · rw [ha, CaseInsensitiveSet.same_iff, h.voters] at hsame
        exact hne hsame.2.2
      · rw [hr] at hs
        exact hb (hcheck.mp (match_check_eq_ok hs).1)
      · rw [hr] at hs
        exact hb (hcheck.mp (match_check_eq_ok hs).1)

end At

/-! ## Matching voters and synchronous nodes -/

/-- With a voter there is at least one synchronous node to wait for. -/
theorem Balanced.one_le (hb : Balanced q V n S) (hv : V ≠ ∅) (hq : q = 0 ∨ q < V.card) :
    1 ≤ n := by
  have hoverlap := hb.overlap hv
  have hle : V.card ≤ (V ∪ S).card := Finset.card_le_card Finset.subset_union_left
  have hpos := Finset.card_pos.mpr (Finset.nonempty_iff_ne_empty.mpr hv)
  omega

/-- The quorum after dead nodes were evicted from the voters. -/
def evictedQuorum (A : Finset ν) (c q : ℤ) (V : Finset ν) (n : ℤ) (S : Finset ν) : ℤ :=
  if V ⊆ S ∪ A then q else ((S ∪ V ∩ A).card : ℤ) - n + adjustment (decide (S ⊆ A)) n c

/-- The resolver is between two phases, with nodes that are voters and synchronous. -/
structure Steady (A : Finset ν) (c w q n : ℤ) (T : Finset ν) (s : QuorumStateResolver ν) : Prop
    extends At A c w q T n T s where
  overlap : (T.card : ℤ) ≤ q + n
  quorum_nonneg : 0 ≤ q
  one_le : 1 ≤ n
  le_card : n ≤ T.card

theorem adjustment_nonneg (adjustQuorum : Bool) (n c : ℤ) : 0 ≤ adjustment adjustQuorum n c := by
  cases adjustQuorum with
  | true => exact le_max_right _ _
  | false => exact le_rfl

theorem card_le_evictedQuorum (hb : Balanced q V n S) (hsub : S ⊆ V) (hv : V ≠ ∅) :
    ((S ∪ V ∩ A).card : ℤ) ≤ evictedQuorum A c q V n S + n := by
  rw [evictedQuorum]
  split
  · have hoverlap := hb.overlap hv
    rw [Finset.union_eq_left.mpr hsub] at hoverlap
    have hle : (S ∪ V ∩ A).card ≤ V.card :=
      Finset.card_le_card (Finset.union_subset hsub Finset.inter_subset_left)
    omega
  · have hadjust := adjustment_nonneg (decide (S ⊆ A)) n c
    omega

/-- Voters that are neither synchronous nor active are evicted. -/
theorem At.evictDead (h : At A c w q V n S s) (hb : Balanced q V n S) (hsub : S ⊆ V)
    (hv : V ≠ ∅) (hq : q = 0 ∨ q < V.card) (hn : n ≤ S.card) :
    Gen.Reaches
      (Gen.when (s.voters \ (s.sync ∪ s.active)).Truthy
        (quorumUpdate (s.voters.len - (s.voters \ (s.sync ∪ s.active)).len - s.numsync)
          (s.voters \ (s.voters \ (s.sync ∪ s.active))) none
          (¬ (s.sync \ s.active).Truthy)))
      s (At A c w (evictedQuorum A c q V n S) (S ∪ V ∩ A) n S) := by
  have hdead : (s.voters \ (s.sync ∪ s.active)).keys = V \ (S ∪ A) := by
    rw [CaseInsensitiveSet.keys_sdiff, CaseInsensitiveSet.keys_union, h.voters, h.sync, h.active]
  have hkept : V \ (V \ (S ∪ A)) = S ∪ V ∩ A := by
    rw [sdiff_sdiff_right_self, Finset.inf_eq_inter, Finset.inter_union_distrib_left,
      Finset.inter_eq_right.mpr hsub]
  apply Gen.reaches_when
  · intro htruthy
    rw [CaseInsensitiveSet.truthy_iff, hdead, Ne, Finset.sdiff_eq_empty_iff_subset] at htruthy
    have hgone : (¬ (s.sync \ s.active).Truthy) ↔ S ⊆ A := by
      rw [CaseInsensitiveSet.truthy_iff, CaseInsensitiveSet.keys_sdiff, h.sync, h.active, not_not,
        Finset.sdiff_eq_empty_iff_subset]
    have hcard := Finset.card_sdiff_add_card_eq_card (Finset.sdiff_subset (s := V) (t := S ∪ A))
    rw [hkept] at hcard
    have hone := hb.one_le hv hq
    have hle : S.card ≤ (S ∪ V ∩ A).card := Finset.card_le_card Finset.subset_union_left
    have hquorum : evictedQuorum A c q V n S =
        ((S ∪ V ∩ A).card : ℤ) - n + adjustment (decide (¬ (s.sync \ s.active).Truthy)) n c := by
      rw [evictedQuorum, if_neg htruthy, decide_eq_decide.mpr hgone]
    have hoverlap := card_le_evictedQuorum (A := A) (c := c) hb hsub hv
    rw [hquorum] at hoverlap ⊢
    apply h.reaches_quorum (Or.inr hv)
    · rw [CaseInsensitiveSet.len_eq, CaseInsensitiveSet.len_eq, hdead, h.voters, h.numsync]
      omega
    · rw [CaseInsensitiveSet.keys_sdiff, hdead, h.voters, hkept]
    · omega
    · omega
    · intro x hx
      simp only [Finset.mem_union, Finset.mem_inter] at hx ⊢
      tauto
    · refine ⟨?_, Or.inr Finset.subset_union_left⟩
      intro _
      rw [Finset.union_eq_left.mpr Finset.subset_union_left]
      exact hoverlap
  · intro hnone
    rw [CaseInsensitiveSet.truthy_iff, hdead, not_not, Finset.sdiff_eq_empty_iff_subset] at hnone
    have hsame : S ∪ V ∩ A = V := by
      rw [← hkept, Finset.sdiff_eq_empty_iff_subset.mpr hnone, Finset.sdiff_empty]
    rw [hsame, evictedQuorum, if_pos hnone]
    exact h

/-- Case 1 never raises. -/
theorem At.reaches_evictVoters (h : At A c w q V n S s) (hb : Balanced q V n S) (hsub : S ⊆ V)
    (hv : V ≠ ∅) (hq : q = 0 ∨ q < V.card) (hn : n ≤ S.card) :
    Gen.Reaches evictVoters s (Steady A c w (evictedQuorum A c q V n S) n (S ∪ V ∩ A)) := by
  have hone := hb.one_le hv hq
  have hle : S.card ≤ (S ∪ V ∩ A).card := Finset.card_le_card Finset.subset_union_left
  have hoverlap := card_le_evictedQuorum (A := A) (c := c) hb hsub hv
  have hnonneg : 0 ≤ evictedQuorum A c q V n S := by
    rw [evictedQuorum]
    split
    · have hoverlap := hb.overlap hv
      rw [Finset.union_eq_left.mpr hsub] at hoverlap
      have hle := Finset.card_le_card hsub
      omega
    · have hadjust := adjustment_nonneg (decide (S ⊆ A)) n c
      omega
  apply Gen.Reaches.bindSelf
  refine (h.evictDead hb hsub hv hq hn).bind fun s' h' => ?_
  apply Gen.Reaches.bindSelf
  have hadd : ((s'.voters ∩ s'.active) \ s'.sync).keys = ((S ∪ V ∩ A) ∩ A) \ S := by
    rw [CaseInsensitiveSet.keys_sdiff, CaseInsensitiveSet.keys_inter, h'.voters, h'.sync, h'.active]
  have hsync : S ∪ ((S ∪ V ∩ A) ∩ A) \ S = S ∪ V ∩ A := by
    ext x
    simp only [Finset.mem_union, Finset.mem_inter, Finset.mem_sdiff]
    tauto
  refine Gen.Reaches.mono (P := At A c w (evictedQuorum A c q V n S) (S ∪ V ∩ A) n (S ∪ V ∩ A)) ?_
    fun _ hat => ⟨hat, hoverlap, hnonneg, hone, by omega⟩
  apply Gen.reaches_when
  · intro _
    apply h'.reaches_sync h'.numsync
    · rw [CaseInsensitiveSet.keys_union, hadd, h'.sync, hsync]
    · omega
    · omega
    · intro x hx
      simp only [Finset.mem_union] at hx ⊢
      tauto
    · refine ⟨?_, Or.inl (Finset.Subset.refl _)⟩
      intro _
      rw [Finset.union_self]
      exact hoverlap
  · intro hnone
    rw [CaseInsensitiveSet.truthy_iff, hadd, not_not] at hnone
    rw [hnone, Finset.union_empty] at hsync
    rw [← hsync] at h' ⊢
    exact h'

/-- The first statement of case 2: inactive nodes are no longer synchronous. -/
def dropInactive (s : QuorumStateResolver ν) : Method ν :=
  let removeFromSync := s.sync \ s.active
  let sync := s.sync \ removeFromSync
  Gen.when (removeFromSync.Truthy ∧ sync.Truthy ∧
      (¬ s.voters.Truthy ∨ (sync ∩ s.voters).Truthy)) <|
    syncUpdate (min s.numsync (s.sync.len - removeFromSync.len)) sync

/-- The second statement of case 2: active synchronous nodes become voters. -/
def addSynced (s : QuorumStateResolver ν) : Method ν :=
  let addToVoters := (s.sync \ s.voters) ∩ s.active
  let voters := s.voters ∪ addToVoters
  Gen.when addToVoters.Truthy <| quorumUpdate (voters.len - s.numsync) voters none true

/-- The last statement of case 2: other nodes are no longer synchronous. -/
def dropOthers (s : QuorumStateResolver ν) : Method ν :=
  let removeFromSync := s.sync \ s.voters
  Gen.when removeFromSync.Truthy <|
    syncUpdate (min s.numsync (s.sync.len - removeFromSync.len)) (s.sync \ removeFromSync)

theorem extendVoters_eq : (extendVoters : Method ν) =
    (Gen.self >>= fun s => dropInactive s >>= fun _ =>
      Gen.self >>= fun s => addSynced s >>= fun _ => Gen.self >>= dropOthers) := rfl

theorem At.dropInactive_keys (h : At A c w q V n S s) :
    (s.sync \ (s.sync \ s.active)).keys = S ∩ A ∧
      min s.numsync (s.sync.len - (s.sync \ s.active).len) = min n (S ∩ A).card := by
  have hinactive : (s.sync \ s.active).keys = S \ A := by
    rw [CaseInsensitiveSet.keys_sdiff, h.sync, h.active]
  have hcard := Finset.card_inter_add_card_sdiff S A
  refine ⟨?_, ?_⟩
  · rw [CaseInsensitiveSet.keys_sdiff, hinactive, h.sync, sdiff_sdiff_right_self,
      Finset.inf_eq_inter]
  · rw [CaseInsensitiveSet.len_eq, CaseInsensitiveSet.len_eq, hinactive, h.sync, h.numsync]
    omega

theorem At.dropInactive_iff (h : At A c w q V n S s) :
    ((s.sync \ s.active).Truthy ∧ (s.sync \ (s.sync \ s.active)).Truthy ∧
      (¬ s.voters.Truthy ∨ ((s.sync \ (s.sync \ s.active)) ∩ s.voters).Truthy)) ↔
    ¬ S ⊆ A ∧ S ∩ A ≠ ∅ ∧ (V = ∅ ∨ S ∩ A ∩ V ≠ ∅) := by
  have hkept := h.dropInactive_keys.1
  simp only [CaseInsensitiveSet.truthy_iff, hkept, CaseInsensitiveSet.keys_inter, h.voters, not_not]
  rw [CaseInsensitiveSet.keys_sdiff, h.sync, h.active, Ne, Finset.sdiff_eq_empty_iff_subset]

/-- Without an inactive voter, the active ones of the synchronous nodes are kept. -/
theorem At.reaches_dropInactive (h : At A c w q V n S s) (hb : Balanced q V n S) (hsub : V ⊆ S)
    (hV : V ⊆ A) (hS : S ∩ A ≠ ∅) (hq : 0 ≤ q ∨ V = ∅) (h₀ : 0 ≤ n) (hn : n ≤ S.card) :
    Gen.Reaches (dropInactive s) s (At A c w q V (min n (S ∩ A).card) (S ∩ A)) := by
  obtain ⟨hkept, hnum⟩ := h.dropInactive_keys
  apply Gen.reaches_when
  · intro _
    apply h.reaches_sync hnum hkept
    · omega
    · omega
    · intro x hx
      simp only [Finset.mem_union, Finset.mem_inter] at hx ⊢
      tauto
    · have hnested : V ⊆ S ∩ A := Finset.subset_inter hsub hV
      refine ⟨?_, Or.inl hnested⟩
      intro hv
      have hoverlap := hb.overlap hv
      rw [Finset.union_eq_right.mpr hsub] at hoverlap
      rw [Finset.union_eq_right.mpr hnested]
      have hle : (S ∩ A).card ≤ S.card := Finset.card_le_card Finset.inter_subset_left
      have hq := hq.resolve_right hv
      omega
  · intro hnone
    rw [h.dropInactive_iff] at hnone
    have hall : S ⊆ A := by
      by_contra hnot
      refine hnone ⟨hnot, hS, ?_⟩
      by_cases hv : V = ∅
      · exact Or.inl hv
      · right
        rw [Finset.inter_eq_right.mpr (Finset.subset_inter hsub hV)]
        exact hv
    rw [Finset.inter_eq_left.mpr hall, min_eq_left hn]
    exact h

/-- Without an active voter all synchronous nodes are kept for now. -/
theorem At.reaches_dropInactive_of_voters (h : At A c w q V n S s)
    (hS : S ∩ A = ∅ ∨ V ≠ ∅ ∧ V ∩ A = ∅) : Gen.Reaches (dropInactive s) s (At A c w q V n S) := by
  apply Gen.reaches_when
  · intro hdrop
    rw [h.dropInactive_iff] at hdrop
    obtain ⟨-, hne, hcommon⟩ := hdrop
    exfalso
    rcases hS with hS | ⟨hv, hVA⟩
    · exact hne hS
    · rcases hcommon with hempty | hcommon
      · exact hv hempty
      · apply hcommon
        rw [Finset.inter_assoc, Finset.inter_comm A V, hVA, Finset.inter_empty]
  · exact fun _ => h

theorem At.addSynced_keys (h : At A c w q V n S s) :
    ((s.sync \ s.voters) ∩ s.active).keys = (S \ V) ∩ A ∧
      (s.voters ∪ (s.sync \ s.voters) ∩ s.active).keys = V ∪ S ∩ A ∧
      (s.voters ∪ (s.sync \ s.voters) ∩ s.active).len - s.numsync = (V ∪ S ∩ A).card - n := by
  have hadd : ((s.sync \ s.voters) ∩ s.active).keys = (S \ V) ∩ A := by
    rw [CaseInsensitiveSet.keys_inter, CaseInsensitiveSet.keys_sdiff, h.sync, h.voters, h.active]
  have hvoters : (s.voters ∪ (s.sync \ s.voters) ∩ s.active).keys = V ∪ S ∩ A := by
    rw [CaseInsensitiveSet.keys_union, hadd, h.voters]
    ext x
    simp only [Finset.mem_union, Finset.mem_inter, Finset.mem_sdiff]
    tauto
  refine ⟨hadd, hvoters, ?_⟩
  rw [CaseInsensitiveSet.len_eq, hvoters, h.numsync]

theorem At.addSynced_iff (h : At A c w q V n S s) :
    ((s.sync \ s.voters) ∩ s.active).Truthy ↔ ¬ S ∩ A ⊆ V := by
  rw [CaseInsensitiveSet.truthy_iff, h.addSynced_keys.1, not_iff_comm, not_not,
    Finset.eq_empty_iff_forall_notMem, Finset.subset_iff]
  simp only [Finset.mem_inter, Finset.mem_sdiff, not_and]
  constructor
  · intro hsub x hx hA
    exact hx.2 (hsub ⟨hx.1, hA⟩)
  · intro hall x hx
    by_contra hx'
    exact hall x ⟨hx.1, hx'⟩ hx.2

/-- The quorum after active synchronous nodes became voters. -/
def syncedQuorum (A : Finset ν) (c q : ℤ) (V : Finset ν) (n : ℤ) (S : Finset ν) : ℤ :=
  if S ∩ A ⊆ V then q else ((V ∪ S ∩ A).card : ℤ) - n + adjustment true n c

theorem At.reaches_addSynced_of_subset (h : At A c w q V n S s) (hnone : S ∩ A ⊆ V) :
    Gen.Reaches (addSynced s) s (At A c w q V n S) := by
  apply Gen.reaches_when
  · intro hadd
    rw [h.addSynced_iff] at hadd
    exact absurd hnone hadd
  · exact fun _ => h

theorem At.reaches_addSynced (h : At A c w q V n S s) (hsub : V ⊆ S) (hc : c ≠ 0 ∨ V ≠ ∅)
    (h₁ : 1 ≤ n) (hn : n ≤ (V ∪ S ∩ A).card)
    (hs : (S.card : ℤ) ≤ (V ∪ S ∩ A).card + adjustment true n c) :
    Gen.Reaches (addSynced s) s (At A c w (syncedQuorum A c q V n S) (V ∪ S ∩ A) n S) := by
  have hnested : V ∪ S ∩ A ⊆ S := Finset.union_subset hsub Finset.inter_subset_left
  apply Gen.reaches_when
  · intro hadd
    rw [h.addSynced_iff] at hadd
    rw [syncedQuorum, if_neg hadd]
    apply h.reaches_quorum hc h.addSynced_keys.2.2 h.addSynced_keys.2.1
    · omega
    · omega
    · exact hnested.trans (Finset.subset_union_right.trans Finset.subset_union_left)
    · refine ⟨?_, Or.inl hnested⟩
      intro _
      rw [Finset.union_eq_right.mpr hnested]
      omega
  · intro hnone
    rw [h.addSynced_iff, not_not] at hnone
    rw [syncedQuorum, if_pos hnone, Finset.union_eq_left.mpr hnone]
    exact h

theorem At.raises_addSynced (h : At A c w q V n S s) (hsub : V ⊆ S) (hadd : ¬ S ∩ A ⊆ V)
    (hbad : n ≤ 0 ∨ ↑(V ∪ S ∩ A).card < n ∨
      V ≠ ∅ ∧ (V ∪ S ∩ A).card + adjustment true n c < S.card) :
    Gen.Raises (addSynced s) s := by
  have hnested : V ∪ S ∩ A ⊆ S := Finset.union_subset hsub Finset.inter_subset_left
  have hne : V ∪ S ∩ A ≠ V := fun heq => hadd (Finset.union_eq_left.mp heq)
  have hpos : 0 < (V ∪ S ∩ A).card := by
    rw [Finset.card_pos, Finset.nonempty_iff_ne_empty]
    intro hempty
    obtain ⟨hV, hSA⟩ := Finset.union_eq_empty.mp hempty
    exact hadd (hSA ▸ Finset.empty_subset V)
  refine Gen.Raises.when (h.addSynced_iff.mpr hadd) ?_
  apply h.raises_quorum h.addSynced_keys.2.2 h.addSynced_keys.2.1
  rcases hbad with hneg | habove | ⟨hv, hlt⟩
  · exact Or.inr (Or.inl ⟨by omega, by omega⟩)
  · exact Or.inl (by omega)
  · refine Or.inr (Or.inr ⟨Or.inr hv, hne, ?_, ?_⟩)
    · exact hnested.trans (Finset.subset_union_right.trans Finset.subset_union_left)
    · intro hb
      have hoverlap := hb.overlap (Finset.nonempty_iff_ne_empty.mp (Finset.card_pos.mp hpos))
      rw [Finset.union_eq_right.mpr hnested] at hoverlap
      omega

/-- Reset instead of written: nobody is confirmed yet. -/
theorem At.reaches_addSynced_reset (h : At A 0 w q ∅ n S s) (hS : S ∩ A ≠ ∅) (h₁ : 1 ≤ n)
    (hn : n ≤ (S ∩ A).card) : Gen.Reaches (addSynced s) s (At A 0 w 0 ∅ n S) := by
  obtain ⟨-, hkeys, hnum⟩ := h.addSynced_keys
  rw [Finset.empty_union] at hkeys hnum
  apply Gen.reaches_when
  · intro _
    apply h.reaches_reset
    · rw [hnum]
      omega
    · rw [hnum, hkeys]
      omega
  · intro hnone
    rw [h.addSynced_iff, not_not, Finset.subset_empty] at hnone
    exact absurd hnone hS

theorem At.dropOthers_keys (h : At A c w q V n S s) (hsub : V ⊆ S) :
    (s.sync \ s.voters).keys = S \ V ∧ (s.sync \ (s.sync \ s.voters)).keys = V ∧
      min s.numsync (s.sync.len - (s.sync \ s.voters).len) = min n V.card := by
  have hothers : (s.sync \ s.voters).keys = S \ V := by
    rw [CaseInsensitiveSet.keys_sdiff, h.sync, h.voters]
  have hcard := Finset.card_sdiff_add_card_eq_card hsub
  refine ⟨hothers, ?_, ?_⟩
  · rw [CaseInsensitiveSet.keys_sdiff, hothers, h.sync, Finset.sdiff_sdiff_eq_self hsub]
  · rw [CaseInsensitiveSet.len_eq, CaseInsensitiveSet.len_eq, hothers, h.sync, h.numsync]
    omega

theorem At.reaches_dropOthers (h : At A c w q V n S s) (hsub : V ⊆ S) (h₀ : 0 ≤ n)
    (hn : n ≤ S.card) (hb : V ≠ ∅ → (V.card : ℤ) ≤ q + n ∧ 0 ≤ q) :
    Gen.Reaches (dropOthers s) s (At A c w q V (min n V.card) V) := by
  obtain ⟨hothers, hkept, hnum⟩ := h.dropOthers_keys hsub
  apply Gen.reaches_when
  · intro _
    apply h.reaches_sync hnum hkept
    · omega
    · omega
    · exact Finset.subset_union_left.trans Finset.subset_union_left
    · refine ⟨?_, Or.inl (Finset.Subset.refl _)⟩
      intro hv
      obtain ⟨hoverlap, hq⟩ := hb hv
      rw [Finset.union_self]
      omega
  · intro hnone
    rw [CaseInsensitiveSet.truthy_iff, hothers, not_not, Finset.sdiff_eq_empty_iff_subset] at hnone
    obtain rfl := Finset.Subset.antisymm hsub hnone
    rw [min_eq_left hn]
    exact h

theorem At.raises_dropOthers (h : At A c w q V n S s) (hsub : V ⊆ S) (hne : V ≠ S) (hn : n < 0) :
    Gen.Raises (dropOthers s) s := by
  obtain ⟨hothers, hkept, hnum⟩ := h.dropOthers_keys hsub
  refine Gen.Raises.when ?_ ?_
  · rw [CaseInsensitiveSet.truthy_iff, hothers, Ne, Finset.sdiff_eq_empty_iff_subset]
    exact fun hsup => hne (Finset.Subset.antisymm hsub hsup)
  · apply h.raises_sync hnum hkept
    · exact Finset.subset_union_left.trans Finset.subset_union_left
    · exact Or.inl (by omega)

/-- Case 2 with active voters only. -/
theorem At.reaches_extendVoters (h : At A c w q V n S s) (hb : Balanced q V n S) (hsub : V ⊆ S)
    (hV : V ⊆ A) (hS : S ∩ A ≠ ∅) (hq : 0 ≤ q ∨ V = ∅) (hc : c ≠ 0 ∨ V ≠ ∅) (h₁ : 1 ≤ n)
    (hn : n ≤ S.card) :
    Gen.Reaches extendVoters s
      (Steady A c w (syncedQuorum A c q V (min n (S ∩ A).card) (S ∩ A)) (min n (S ∩ A).card)
        (S ∩ A)) := by
  have hpos := Finset.card_pos.mpr (Finset.nonempty_iff_ne_empty.mpr hS)
  have hnested : V ⊆ S ∩ A := Finset.subset_inter hsub hV
  have hidem : S ∩ A ∩ A = S ∩ A := by rw [Finset.inter_assoc, Finset.inter_self]
  have hvoters : V ∪ S ∩ A ∩ A = S ∩ A := by rw [hidem, Finset.union_eq_right.mpr hnested]
  have hadjust := adjustment_nonneg true (min n (S ∩ A).card) c
  have hquorum : ((S ∩ A).card : ℤ) ≤
      syncedQuorum A c q V (min n (S ∩ A).card) (S ∩ A) + min n (S ∩ A).card ∧
      0 ≤ syncedQuorum A c q V (min n (S ∩ A).card) (S ∩ A) := by
    rw [syncedQuorum, hvoters, hidem]
    split
    · next hsup =>
        obtain rfl := Finset.Subset.antisymm hnested hsup
        have hoverlap := hb.overlap hS
        rw [Finset.union_eq_right.mpr hsub] at hoverlap
        have hle : (S ∩ A).card ≤ S.card := Finset.card_le_card hsub
        have hq := hq.resolve_right hS
        omega
    · omega
  rw [extendVoters_eq]
  apply Gen.Reaches.bindSelf
  refine (h.reaches_dropInactive hb hsub hV hS hq (by omega) hn).bind fun s₁ hat₁ => ?_
  apply Gen.Reaches.bindSelf
  refine (hat₁.reaches_addSynced hnested hc ?_ ?_ ?_).bind fun s₂ hat₂ => ?_
  · omega
  · rw [hvoters]
    omega
  · rw [hvoters]
    omega
  apply Gen.Reaches.bindSelf
  rw [hvoters] at hat₂
  refine (hat₂.reaches_dropOthers (Finset.Subset.refl _) ?_ ?_ fun _ => hquorum).mono
    fun s₃ hat₃ => ?_
  · omega
  · omega
  · rw [min_eq_left (min_le_right _ _)] at hat₃
    exact ⟨hat₃, hquorum.1, hquorum.2, by omega, by omega⟩

/-- Case 2 without an active voter: the active nodes join the voters before the
others are dropped, so both sets have to overlap in between. -/
theorem At.reaches_extendVoters_of_disjoint (h : At A c w q V n S s) (hsub : V ⊆ S) (hv : V ≠ ∅)
    (hV : V ∩ A = ∅) (hS : S ∩ A ≠ ∅) (h₁ : 1 ≤ n) (hn : n ≤ (V ∪ S ∩ A).card)
    (hs : (S.card : ℤ) ≤ (V ∪ S ∩ A).card + adjustment true n c) :
    Gen.Reaches extendVoters s
      (Steady A c w ((V ∪ S ∩ A).card - n + adjustment true n c) n (V ∪ S ∩ A)) := by
  have hnested : V ∪ S ∩ A ⊆ S := Finset.union_subset hsub Finset.inter_subset_left
  have hle := Finset.card_le_card hnested
  have hadjust := adjustment_nonneg true n c
  have hquorum : syncedQuorum A c q V n S = (V ∪ S ∩ A).card - n + adjustment true n c := by
    rw [syncedQuorum, if_neg]
    intro hall
    apply hS
    rw [← Finset.subset_empty, ← hV]
    exact Finset.subset_inter hall Finset.inter_subset_right
  rw [extendVoters_eq]
  apply Gen.Reaches.bindSelf
  refine (h.reaches_dropInactive_of_voters (Or.inr ⟨hv, hV⟩)).bind fun s₁ hat₁ => ?_
  apply Gen.Reaches.bindSelf
  refine (hat₁.reaches_addSynced hsub (Or.inr hv) h₁ hn hs).bind fun s₂ hat₂ => ?_
  apply Gen.Reaches.bindSelf
  rw [hquorum] at hat₂
  refine (hat₂.reaches_dropOthers hnested (by omega) (by omega) fun _ => ?_).mono
    fun s₃ hat₃ => ?_
  · exact ⟨by omega, by omega⟩
  · rw [min_eq_left hn] at hat₃
    exact ⟨hat₃, by omega, by omega, h₁, hn⟩

/-- Case 2 without an active synchronous node. -/
theorem At.reaches_extendVoters_of_inactive (h : At A c w q V n S s) (hsub : V ⊆ S)
    (hS : S ∩ A = ∅) (h₀ : 0 ≤ n) (hn : n ≤ S.card)
    (hb : V ≠ ∅ → (V.card : ℤ) ≤ q + n ∧ 0 ≤ q) :
    Gen.Reaches extendVoters s (At A c w q V (min n V.card) V) := by
  rw [extendVoters_eq]
  apply Gen.Reaches.bindSelf
  refine (h.reaches_dropInactive_of_voters (Or.inl hS)).bind fun s₁ hat₁ => ?_
  apply Gen.Reaches.bindSelf
  refine (hat₁.reaches_addSynced_of_subset (hS ▸ Finset.empty_subset V)).bind fun s₂ hat₂ => ?_
  apply Gen.Reaches.bindSelf
  exact hat₂.reaches_dropOthers hsub h₀ hn hb

/-- Case 2 without voters while nobody is confirmed: both sets become empty. -/
theorem At.reaches_extendVoters_reset (h : At A 0 w q ∅ n S s) (hS : S ∩ A ≠ ∅) (h₁ : 1 ≤ n)
    (hn : n ≤ S.card) : Gen.Reaches extendVoters s (At A 0 w 0 ∅ 0 ∅) := by
  have hpos := Finset.card_pos.mpr (Finset.nonempty_iff_ne_empty.mpr hS)
  have hidem : S ∩ A ∩ A = S ∩ A := by rw [Finset.inter_assoc, Finset.inter_self]
  have hb : Balanced q ∅ n S := ⟨fun hne => absurd rfl hne, Or.inl (Finset.empty_subset S)⟩
  rw [extendVoters_eq]
  apply Gen.Reaches.bindSelf
  refine (h.reaches_dropInactive hb (Finset.empty_subset S) (Finset.empty_subset A) hS
    (Or.inr rfl) (by omega) hn).bind fun s₁ hat₁ => ?_
  apply Gen.Reaches.bindSelf
  refine (hat₁.reaches_addSynced_reset ?_ ?_ ?_).bind fun s₂ hat₂ => ?_
  · rw [hidem]
    exact hS
  · omega
  · rw [hidem]
    omega
  apply Gen.Reaches.bindSelf
  refine (hat₂.reaches_dropOthers (Finset.empty_subset _) ?_ ?_ ?_).mono fun s₃ hat₃ => ?_
  · omega
  · omega
  · exact fun hne => absurd rfl hne
  · rw [Finset.card_empty, min_eq_right (by omega)] at hat₃
    exact hat₃

/-- Case 2 raises without voters when there is nothing to wait for. -/
theorem At.raises_extendVoters (h : At A c w q ∅ n S s) (hS : S ≠ ∅) (hn : n ≤ 0)
    (hbad : n < 0 ∨ S ∩ A ≠ ∅) : Gen.Raises extendVoters s := by
  have hb : Balanced q ∅ n S := ⟨fun hne => absurd rfl hne, Or.inl (Finset.empty_subset S)⟩
  have hidem : S ∩ A ∩ A = S ∩ A := by rw [Finset.inter_assoc, Finset.inter_self]
  rw [extendVoters_eq]
  apply Gen.Raises.bindSelf
  by_cases hSA : S ∩ A = ∅
  · -- the last statement asks for a negative number of nodes
    refine (h.reaches_dropInactive_of_voters (Or.inl hSA)).bind_raises fun s₁ hat₁ => ?_
    apply Gen.Raises.bindSelf
    refine (hat₁.reaches_addSynced_of_subset (Finset.subset_empty.mpr hSA)).bind_raises
      fun s₂ hat₂ => ?_
    apply Gen.Raises.bindSelf
    exact hat₂.raises_dropOthers (Finset.empty_subset S) hS.symm (hbad.resolve_right fun h => h hSA)
  · by_cases hneg : n < 0 ∧ ¬ S ⊆ A
    · obtain ⟨hkept, hnum⟩ := h.dropInactive_keys
      apply Gen.Raises.bind
      refine Gen.Raises.when (h.dropInactive_iff.mpr ⟨hneg.2, hSA, Or.inl rfl⟩) ?_
      apply h.raises_sync hnum hkept
      · exact Finset.inter_subset_left.trans
          (Finset.subset_union_right.trans Finset.subset_union_left)
      · exact Or.inl (by omega)
    · -- a quorum of all active nodes is out of range
      have hdrop : Gen.Reaches (dropInactive s) s fun s' => ∃ n' ≤ 0, At A c w q ∅ n' (S ∩ A) s' := by
        by_cases hall : S ⊆ A
        · apply Gen.reaches_when
          · intro hdrop
            exact absurd hall (h.dropInactive_iff.mp hdrop).1
          · intro _
            rw [Finset.inter_eq_left.mpr hall]
            exact ⟨n, hn, h⟩
        · have hzero : 0 ≤ n := not_lt.mp fun hlt => hneg ⟨hlt, hall⟩
          refine (h.reaches_dropInactive hb (Finset.empty_subset S) (Finset.empty_subset A) hSA
            (Or.inr rfl) hzero (by omega)).mono fun s₁ hat₁ => ?_
          exact ⟨_, by omega, hat₁⟩
      refine hdrop.bind_raises fun s₁ ⟨n', hn', hat₁⟩ => ?_
      apply Gen.Raises.bindSelf
      apply Gen.Raises.bind
      apply hat₁.raises_addSynced (Finset.empty_subset _)
      · rw [hidem, Finset.subset_empty]
        exact hSA
      · exact Or.inl hn'

/-- Case 2 raises when the active nodes cannot join the voters. -/
theorem At.raises_extendVoters_of_disjoint (h : At A c w q V n S s) (hsub : V ⊆ S) (hv : V ≠ ∅)
    (hV : V ∩ A = ∅) (hS : S ∩ A ≠ ∅)
    (hbad : ↑(V ∪ S ∩ A).card < n ∨ (V ∪ S ∩ A).card + adjustment true n c < S.card) :
    Gen.Raises extendVoters s := by
  rw [extendVoters_eq]
  apply Gen.Raises.bindSelf
  refine (h.reaches_dropInactive_of_voters (Or.inr ⟨hv, hV⟩)).bind_raises fun s₁ hat₁ => ?_
  apply Gen.Raises.bindSelf
  apply Gen.Raises.bind
  apply hat₁.raises_addSynced hsub
  · intro hall
    apply hS
    rw [← Finset.subset_empty, ← hV]
    exact Finset.subset_inter hall Finset.inter_subset_right
  · exact Or.inr (hbad.imp id fun hlt => ⟨hv, hlt⟩)

/-- Case 2 with both active and inactive voters: without the inactive nodes the
sets are no longer nested, or `sync` becomes smaller than `voters`. -/
theorem At.extendVoters_of_mixed (h : At A c w q V n S s) (hsub : V ⊆ S) (hV : ¬ V ⊆ A)
    (hVA : V ∩ A ≠ ∅) (h₁ : 1 ≤ n) :
    Gen.Raises extendVoters s ∨
      Gen.Reaches extendVoters s fun s' => ∃ n', At A c w q V n' (S ∩ A) s' := by
  obtain ⟨hkept, hnum⟩ := h.dropInactive_keys
  have hsubVA : V ∩ A ⊆ S ∩ A ∩ V := by
    intro x hx
    simp only [Finset.mem_inter] at hx ⊢
    exact ⟨⟨hsub hx.1, hx.2⟩, hx.1⟩
  have hdrop := h.dropInactive_iff.mpr ⟨fun hall => hV (hsub.trans hall), by
    intro hSA
    rw [hSA, Finset.empty_inter, Finset.subset_empty] at hsubVA
    exact hVA hsubVA, Or.inr fun hcommon => hVA (Finset.subset_empty.mp (hcommon ▸ hsubVA))⟩
  have hmem : S ∩ A ⊆ V ∪ S ∪ A :=
    Finset.inter_subset_left.trans (Finset.subset_union_right.trans Finset.subset_union_left)
  rw [extendVoters_eq]
  by_cases hb : Balanced q V (min n (S ∩ A).card) (S ∩ A)
  · have hSV : S ∩ A ⊆ V := by
      rcases hb.nested with hVS | hSV
      · exact absurd (hVS.trans Finset.inter_subset_right) hV
      · exact hSV
    right
    apply Gen.Reaches.bindSelf
    refine Gen.Reaches.bind (P := At A c w q V (min n (S ∩ A).card) (S ∩ A)) ?_ fun s₁ hat₁ => ?_
    · apply Gen.reaches_when
      · intro _
        exact h.reaches_sync hnum hkept (by omega) (by omega) hmem hb
      · exact fun hnot => absurd hdrop hnot
    apply Gen.Reaches.bindSelf
    refine (hat₁.reaches_addSynced_of_subset ?_).bind fun s₂ hat₂ => ?_
    · exact Finset.inter_subset_left.trans hSV
    apply Gen.Reaches.bindSelf
    apply Gen.reaches_when
    · intro hothers
      rw [CaseInsensitiveSet.truthy_iff, CaseInsensitiveSet.keys_sdiff, hat₂.sync, hat₂.voters,
        Ne, Finset.sdiff_eq_empty_iff_subset] at hothers
      exact absurd hSV hothers
    · exact fun _ => ⟨_, hat₂⟩
  · left
    apply Gen.Raises.bindSelf
    apply Gen.Raises.bind
    exact Gen.Raises.when hdrop (h.raises_sync hnum hkept hmem (Or.inr (Or.inr hb)))

/-- The nodes that are left as voters and synchronous nodes. -/
def matchedNodes (A V S : Finset ν) : Finset ν := (V ∪ S) ∩ A ∪ V ∩ S

theorem matchedNodes_of_superset (hsub : S ⊆ V) : matchedNodes A V S = S ∪ V ∩ A := by
  rw [matchedNodes, Finset.union_eq_left.mpr hsub, Finset.inter_eq_right.mpr hsub,
    Finset.union_comm]

theorem matchedNodes_of_subset (hsub : V ⊆ S) : matchedNodes A V S = V ∪ S ∩ A := by
  rw [matchedNodes, Finset.union_eq_right.mpr hsub, Finset.inter_eq_left.mpr hsub,
    Finset.union_comm]

/-- The quorum with which voters and synchronous nodes are the same. -/
def matchedQuorum (A : Finset ν) (c q : ℤ) (V : Finset ν) (n : ℤ) (S : Finset ν) : ℤ :=
  let t : ℤ := (matchedNodes A V S).card
  if matchedNodes A V S = V then q
  else t - min n t + adjustment (decide (S ⊂ V → S ⊆ A)) (min n t) c

/-- Voters and synchronous nodes cannot be made the same. -/
def MatchStuck (A : Finset ν) (c : ℤ) (V : Finset ν) (n : ℤ) (S : Finset ν) : Prop :=
  (V = ∅ ∧ S ≠ ∅ ∧ n ≤ 0 ∧ (n < 0 ∨ S ∩ A ≠ ∅)) ∨
    (V ⊂ S ∧ V ∩ A ≠ ∅ ∧ ¬ V ⊆ A) ∨
    (V ≠ ∅ ∧ V ⊂ S ∧ V ∩ A = ∅ ∧ S ∩ A ≠ ∅ ∧
      (↑(matchedNodes A V S).card < n ∨ (matchedNodes A V S).card + max (n - c) 0 < S.card))

/-- What the resolver may assume of the state that it starts from. -/
structure Start (A : Finset ν) (c w q : ℤ) (V : Finset ν) (n : ℤ) (S : Finset ν)
    (s : QuorumStateResolver ν) : Prop extends At A c w q V n S s where
  balanced : Balanced q V n S
  quorum_lt : q = 0 ∨ q < V.card
  numsync_le : n ≤ S.card
  confirmed_nonneg : 0 ≤ c
  confirmed_le : c ≤ (S ∩ A).card
  one_le_wanted : 1 ≤ w

namespace Start

theorem one_le (h : Start A c w q V n S s) (hv : V ≠ ∅) : 1 ≤ n :=
  h.balanced.one_le hv h.quorum_lt

theorem quorum_nonneg (h : Start A c w q V n S s) (hv : V ≠ ∅) : 0 ≤ q := by
  have hoverlap := h.balanced.overlap hv
  have hle : S.card ≤ (V ∪ S).card := Finset.card_le_card Finset.subset_union_right
  have hn := h.numsync_le
  omega

theorem reaches_evict (h : Start A c w q V n S s) (hsub : S ⊂ V) :
    Gen.Reaches evictVoters s
      (Steady A c w (matchedQuorum A c q V n S) (min n (matchedNodes A V S).card)
        (matchedNodes A V S)) := by
  have hv : V ≠ ∅ := fun hempty => Finset.not_ssubset_empty S (hempty ▸ hsub)
  have hnodes := matchedNodes_of_superset (A := A) hsub.subset
  have hle : S.card ≤ (S ∪ V ∩ A).card := Finset.card_le_card Finset.subset_union_left
  have hmin : min n ((S ∪ V ∩ A).card : ℤ) = n := by
    have hn := h.numsync_le
    omega
  have hsame : S ∪ V ∩ A = V ↔ V ⊆ S ∪ A := by
    constructor
    · intro heq x hx
      rw [← heq] at hx
      simp only [Finset.mem_union, Finset.mem_inter] at hx ⊢
      tauto
    · intro hall
      apply Finset.Subset.antisymm (Finset.union_subset hsub.subset Finset.inter_subset_left)
      intro x hx
      have hx' := hall hx
      simp only [Finset.mem_union, Finset.mem_inter] at hx' ⊢
      tauto
  have hquorum : matchedQuorum A c q V n S = evictedQuorum A c q V n S := by
    simp only [matchedQuorum, evictedQuorum, hnodes, hsame, hmin, hsub, forall_const]
  rw [hquorum, hnodes, hmin]
  exact h.reaches_evictVoters h.balanced hsub.subset hv h.quorum_lt h.numsync_le

/-- Voters that are all active stay, and the active synchronous nodes join them. -/
theorem reaches_extend_of_active (h : Start A c w q V n S s) (hsub : V ⊂ S)
    (hstuck : ¬ MatchStuck A c V n S) (hc : c ≠ 0 ∨ V ≠ ∅) (hV : V ⊆ A) :
    Gen.Reaches extendVoters s
      (Steady A c w (matchedQuorum A c q V n S) (min n (matchedNodes A V S).card)
        (matchedNodes A V S)) := by
  have hnot : ¬ S ⊂ V := fun hlt => hlt.2 hsub.subset
  have hSA : S ∩ A ≠ ∅ := by
    intro hSA
    rcases hc with hc | hv
    · have hle := h.confirmed_le
      rw [hSA, Finset.card_empty] at hle
      exact hc (le_antisymm hle h.confirmed_nonneg)
    · exact hv (Finset.subset_empty.mp (hSA ▸ Finset.subset_inter hsub.subset hV))
  have h₁ : 1 ≤ n := by
    by_cases hv : V = ∅
    · by_contra hlt
      have hS : S ≠ ∅ := fun hS => hSA (by rw [hS, Finset.empty_inter])
      exact hstuck (Or.inl ⟨hv, hS, by omega, Or.inr hSA⟩)
    · exact h.one_le hv
  have hnested : V ⊆ S ∩ A := Finset.subset_inter hsub.subset hV
  have hnodes : matchedNodes A V S = S ∩ A := by
    rw [matchedNodes_of_subset hsub.subset, Finset.union_eq_right.mpr hnested]
  have hidem : S ∩ A ∩ A = S ∩ A := by rw [Finset.inter_assoc, Finset.inter_self]
  have hsame : S ∩ A = V ↔ S ∩ A ⊆ V :=
    ⟨fun heq => heq.subset, fun hle => Finset.Subset.antisymm hle hnested⟩
  have hquorum : matchedQuorum A c q V n S =
      syncedQuorum A c q V (min n (S ∩ A).card) (S ∩ A) := by
    simp only [matchedQuorum, syncedQuorum, hnodes, hidem, hsame, hnot, false_imp_iff,
      decide_true, Finset.union_eq_right.mpr hnested]
  rw [hquorum, hnodes]
  refine h.reaches_extendVoters h.balanced hsub.subset hV hSA ?_ hc h₁ h.numsync_le
  by_cases hv : V = ∅
  · exact Or.inr hv
  · exact Or.inl (h.quorum_nonneg hv)

/-- Without active nodes the voters stay, and the other synchronous nodes are dropped. -/
theorem reaches_extend_of_inactive (h : Start A c w q V n S s) (hsub : V ⊂ S) (hv : V ≠ ∅)
    (hSA : S ∩ A = ∅) :
    Gen.Reaches extendVoters s
      (Steady A c w (matchedQuorum A c q V n S) (min n (matchedNodes A V S).card)
        (matchedNodes A V S)) := by
  have hnodes : matchedNodes A V S = V := by
    rw [matchedNodes_of_subset hsub.subset, hSA, Finset.union_empty]
  have hn := h.numsync_le
  have h₁ := h.one_le hv
  have hq := h.quorum_nonneg hv
  have hoverlap := h.balanced.overlap hv
  rw [Finset.union_eq_right.mpr hsub.subset] at hoverlap
  have hlt := Finset.card_lt_card hsub
  have hpos := Finset.card_pos.mpr (Finset.nonempty_iff_ne_empty.mpr hv)
  rw [matchedQuorum, if_pos hnodes, hnodes]
  refine (h.reaches_extendVoters_of_inactive hsub.subset hSA (by omega) hn fun _ => ?_).mono
    fun s' hat => ⟨hat, by omega, hq, by omega, by omega⟩
  exact ⟨by omega, hq⟩

/-- Voters that are not active stay too, next to the active synchronous nodes. -/
theorem reaches_extend_of_disjoint (h : Start A c w q V n S s) (hsub : V ⊂ S)
    (hstuck : ¬ MatchStuck A c V n S) (hv : V ≠ ∅) (hVA : V ∩ A = ∅) (hSA : S ∩ A ≠ ∅) :
    Gen.Reaches extendVoters s
      (Steady A c w (matchedQuorum A c q V n S) (min n (matchedNodes A V S).card)
        (matchedNodes A V S)) := by
  have hnodes := matchedNodes_of_subset (A := A) hsub.subset
  have hnot : ¬ S ⊂ V := fun hlt => hlt.2 hsub.subset
  have hne : matchedNodes A V S ≠ V := by
    rw [hnodes]
    intro heq
    apply hSA
    rw [← Finset.subset_empty, ← hVA]
    exact Finset.subset_inter (Finset.union_eq_left.mp heq) Finset.inter_subset_right
  have hfits : ¬ (↑(matchedNodes A V S).card < n ∨
      (matchedNodes A V S).card + max (n - c) 0 < S.card) := fun hbad =>
    hstuck (Or.inr (Or.inr ⟨hv, hsub, hVA, hSA, hbad⟩))
  rw [not_or, not_lt, not_lt] at hfits
  have hquorum : matchedQuorum A c q V n S =
      (matchedNodes A V S).card - n + adjustment true n c := by
    simp only [matchedQuorum, if_neg hne, min_eq_left hfits.1, hnot, false_imp_iff, decide_true]
  rw [hquorum, min_eq_left hfits.1]
  rw [hnodes] at hfits ⊢
  exact h.reaches_extendVoters_of_disjoint hsub.subset hv hVA hSA (h.one_le hv) hfits.1 hfits.2

theorem reaches_extend (h : Start A c w q V n S s) (hsub : V ⊂ S)
    (hstuck : ¬ MatchStuck A c V n S) (hc : c ≠ 0 ∨ V ≠ ∅) :
    Gen.Reaches extendVoters s
      (Steady A c w (matchedQuorum A c q V n S) (min n (matchedNodes A V S).card)
        (matchedNodes A V S)) := by
  by_cases hV : V ⊆ A
  · exact h.reaches_extend_of_active hsub hstuck hc hV
  · have hv : V ≠ ∅ := fun hempty => hV (hempty ▸ Finset.empty_subset A)
    have hVA : V ∩ A = ∅ := by
      by_contra hVA
      exact hstuck (Or.inr (Or.inl ⟨hsub, hVA, hV⟩))
    by_cases hSA : S ∩ A = ∅
    · exact h.reaches_extend_of_inactive hsub hv hSA
    · exact h.reaches_extend_of_disjoint hsub hstuck hv hVA hSA

theorem sync_lt_iff (h : Start A c w q V n S s) : s.sync < s.voters ↔ S ⊂ V := by
  rw [CaseInsensitiveSet.lt_iff, h.sync, h.voters]

theorem voters_lt_iff (h : Start A c w q V n S s) : s.voters < s.sync ↔ V ⊂ S := by
  rw [CaseInsensitiveSet.lt_iff, h.sync, h.voters]

/-- Neither set is a proper subset of the other, so both are the same. -/
theorem eq_of_not_ssubset (h : Start A c w q V n S s) (hlt : ¬ S ⊂ V) (hgt : ¬ V ⊂ S) : V = S := by
  by_contra hne
  rcases h.balanced.nested with hsub | hsub
  · exact hgt (hsub.ssubset_of_ne hne)
  · exact hlt (hsub.ssubset_of_ne fun heq => hne heq.symm)

theorem reaches_match (h : Start A c w q V n S s) (hstuck : ¬ MatchStuck A c V n S)
    (hc : c ≠ 0 ∨ V ≠ ∅) :
    Gen.Reaches matchVotersAndSync s
      (Steady A c w (matchedQuorum A c q V n S) (min n (matchedNodes A V S).card)
        (matchedNodes A V S)) := by
  apply Gen.Reaches.bindSelf
  by_cases hlt : S ⊂ V
  · rw [if_pos (h.sync_lt_iff.mpr hlt)]
    exact h.reaches_evict hlt
  · rw [if_neg (h.sync_lt_iff.not.mpr hlt)]
    apply Gen.reaches_when
    · intro hgt
      exact h.reaches_extend (h.voters_lt_iff.mp hgt) hstuck hc
    · intro hgt
      obtain rfl := h.eq_of_not_ssubset hlt (h.voters_lt_iff.not.mp hgt)
      have hnodes : matchedNodes A V V = V := by
        rw [matchedNodes_of_subset (Finset.Subset.refl V)]
        exact Finset.union_eq_left.mpr Finset.inter_subset_left
      have hv : V ≠ ∅ := by
        rcases hc with hc | hv
        · rintro rfl
          have hle := h.confirmed_le
          rw [Finset.empty_inter, Finset.card_empty] at hle
          exact hc (le_antisymm hle h.confirmed_nonneg)
        · exact hv
      have hoverlap := h.balanced.overlap hv
      rw [Finset.union_self] at hoverlap
      rw [matchedQuorum, if_pos hnodes, hnodes, min_eq_left h.numsync_le]
      exact ⟨h.toAt, hoverlap, h.quorum_nonneg hv, h.one_le hv, h.numsync_le⟩

/-- Without voters and confirmed nodes nothing is left. -/
theorem reaches_match_reset (h : Start A 0 w q ∅ n S s) (hstuck : ¬ MatchStuck A 0 ∅ n S) :
    Gen.Reaches matchVotersAndSync s fun s' => ∃ q' n', n' ≤ 0 ∧ q' ≤ 0 ∧ At A 0 w q' ∅ n' ∅ s' := by
  have hq : q ≤ 0 := by
    have hlt := h.quorum_lt
    rw [Finset.card_empty] at hlt
    omega
  apply Gen.Reaches.bindSelf
  rw [if_neg (h.sync_lt_iff.not.mpr (Finset.not_ssubset_empty S))]
  apply Gen.reaches_when
  · intro hgt
    have hS : S ≠ ∅ := fun hempty => Finset.not_ssubset_empty _ (hempty ▸ h.voters_lt_iff.mp hgt)
    by_cases hSA : S ∩ A = ∅
    · have h₀ : 0 ≤ n := by
        by_contra hneg
        exact hstuck (Or.inl ⟨rfl, hS, by omega, Or.inl (not_le.mp hneg)⟩)
      refine (h.reaches_extendVoters_of_inactive (Finset.empty_subset S) hSA h₀ h.numsync_le
        fun hne => absurd rfl hne).mono fun s' hat => ⟨_, _, ?_, hq, hat⟩
      exact min_le_right _ _
    · have h₁ : 1 ≤ n := by
        by_contra hlt
        exact hstuck (Or.inl ⟨rfl, hS, by omega, Or.inr hSA⟩)
      exact (h.reaches_extendVoters_reset hSA h₁ h.numsync_le).mono
        fun s' hat => ⟨0, 0, le_rfl, le_rfl, hat⟩
  · intro hgt
    obtain rfl := h.eq_of_not_ssubset (Finset.not_ssubset_empty S) (h.voters_lt_iff.not.mp hgt)
    exact ⟨q, n, h.numsync_le, hq, h.toAt⟩

theorem raises_match (h : Start A c w q V n S s) (hstuck : MatchStuck A c V n S) :
    Gen.Raises handleNonSteadyCases s := by
  have hgt : V ⊂ S := by
    rcases hstuck with ⟨rfl, hS, -⟩ | ⟨hgt, -⟩ | ⟨-, hgt, -⟩
    · exact Finset.empty_ssubset.mpr (Finset.nonempty_iff_ne_empty.mpr hS)
    · exact hgt
    · exact hgt
  have hrun : (matchVotersAndSync : Method ν) s = extendVoters s := by
    rw [matchVotersAndSync, Gen.self_bind, if_neg (h.sync_lt_iff.not.mpr fun hlt => hlt.2 hgt.subset),
      Gen.when, if_pos (h.voters_lt_iff.mpr hgt)]
  rw [handleNonSteadyCases]
  rcases hstuck with ⟨rfl, hS, hn, hbad⟩ | ⟨-, hVA, hV⟩ | ⟨hv, -, hVA, hSA, hbad⟩
  · exact ((h.raises_extendVoters hS hn hbad).congr hrun).bind
  · have hv : V ≠ ∅ := fun hempty => hV (hempty ▸ Finset.empty_subset A)
    rcases h.extendVoters_of_mixed hgt.subset hV hVA (h.one_le hv) with hraises | hreaches
    · exact (hraises.congr hrun).bind
    · apply (hreaches.congr hrun).bind_raises
      intro s₁ hs₁
      obtain ⟨n', hat₁⟩ := hs₁
      apply Gen.Raises.bind
      have hne : ¬ s₁.voters.Same s₁.sync := by
        rw [CaseInsensitiveSet.same_iff, hat₁.voters, hat₁.sync]
        exact fun heq => hV (heq ▸ Finset.inter_subset_right)
      exact Gen.raises_check (if_neg hne)
  · rw [matchedNodes_of_subset hgt.subset] at hbad
    exact ((h.raises_extendVoters_of_disjoint hgt.subset hv hVA hSA hbad).congr hrun).bind

end Start

end QuorumStateResolver

end Metatroni
