import Metatroni.Quorum.Resolver

/-!
# What DCS and PostgreSQL see of the resolver

A run of the resolver is visible outside only through its transitions: a
`quorum` transition rewrites the `/sync` key, a `sync` transition rewrites
`synchronous_standby_names`. This file replays transitions on that external
pair and shows that it never leaves the invariants, whichever prefix of the
transitions was applied.

The resolver checks its own attributes after every unmerged update. The
argument is therefore that attributes and external pair agree at each yield;
the only place where they part is an update inside the `try` statement that
fails its check after assigning, and there the handler rewrites `/sync` as a
whole.
-/

namespace Metatroni

open Generators

variable {ν : Type} [NodeName ν]

/-- The `/sync` key and `synchronous_standby_names`. -/
structure External (ν : Type) [NodeName ν] where
  leader : ν
  quorum : ℤ
  voters : CaseInsensitiveSet ν
  numsync : ℤ
  sync : CaseInsensitiveSet ν

namespace External

/-- Write one transition to its place. -/
def apply (e : External ν) (t : Transition ν) : External ν :=
  match t.transitionType with
  | .quorum => { e with leader := t.leader, quorum := t.num, voters := t.names }
  | .sync => { e with numsync := t.num, sync := t.names }
  | .restart => e

/-- Write transitions one after another. -/
def applyAll (e : External ν) (ts : List (Transition ν)) : External ν := ts.foldl apply e

@[simp] theorem applyAll_nil (e : External ν) : e.applyAll [] = e := rfl

@[simp] theorem applyAll_cons (e : External ν) (t : Transition ν) (ts : List (Transition ν)) :
    e.applyAll (t :: ts) = (e.apply t).applyAll ts := rfl

theorem applyAll_append (e : External ν) (ts us : List (Transition ν)) :
    e.applyAll (ts ++ us) = (e.applyAll ts).applyAll us := List.foldl_append

/-- A later transition of the same type hides the earlier one. -/
theorem apply_apply_of_type_eq (e : External ν) {t u : Transition ν}
    (h : t.transitionType = u.transitionType) : (e.apply t).apply u = e.apply u := by
  unfold apply
  rw [h]
  cases u.transitionType <;> rfl

theorem apply_restart (e : External ν) {t : Transition ν} (h : t.transitionType = .restart) :
    e.apply t = e := by
  rw [apply, h]

/-- Voters together with the leader of the `/sync` key. -/
def voterNodes (e : External ν) : Finset ν := insert (lower e.leader) e.voters.keys

/-- Synchronous nodes together with the node that runs the resolver. -/
def syncNodes (e : External ν) (leaderWanted : ν) : Finset ν :=
  insert (lower leaderWanted) e.sync.keys

/-- Both conditions of `check_invariants`. -/
structure Consistent (e : External ν) (leaderWanted : ν) : Prop where
  overlap : e.voters.keys ≠ ∅ →
    ((e.voterNodes ∪ e.syncNodes leaderWanted).card : ℤ) ≤ e.quorum + e.numsync + 1
  nested : e.voterNodes ⊆ e.syncNodes leaderWanted ∨ e.syncNodes leaderWanted ⊆ e.voterNodes

/-- The same names up to their case, and at least as many synchronous nodes. -/
structure Weaker (e e' : External ν) : Prop where
  leader : e'.leader = e.leader
  quorum : e'.quorum = e.quorum
  voters : e'.voters.keys = e.voters.keys
  numsync : e.numsync ≤ e'.numsync
  sync : e'.sync.keys = e.sync.keys

namespace Weaker

variable {e e' : External ν}

theorem voterNodes (h : Weaker e e') : e'.voterNodes = e.voterNodes := by
  simp only [External.voterNodes, h.leader, h.voters]

theorem consistent {leaderWanted : ν} (h : Weaker e e') (hc : e.Consistent leaderWanted) :
    e'.Consistent leaderWanted := by
  have hsn : e'.syncNodes leaderWanted = e.syncNodes leaderWanted := by
    simp only [syncNodes, h.sync]
  constructor
  · intro hne
    have hoverlap := hc.overlap (fun he => hne (h.voters.trans he))
    have hnum := h.numsync
    rw [h.voterNodes, hsn, h.quorum]
    omega
  · rw [h.voterNodes, hsn]
    exact hc.nested

theorem apply (h : Weaker e e') (t : Transition ν) : Weaker (e.apply t) (e'.apply t) := by
  rw [External.apply, External.apply]
  cases t.transitionType with
  | quorum => exact ⟨rfl, rfl, rfl, h.numsync, h.sync⟩
  | sync => exact ⟨h.leader, h.quorum, h.voters, le_rfl, rfl⟩
  | restart => exact h

theorem applyAll (h : Weaker e e') (ts : List (Transition ν)) :
    Weaker (e.applyAll ts) (e'.applyAll ts) := by
  induction ts generalizing e e' with
  | nil => exact h
  | cons t ts ih => exact ih (h.apply t)

end Weaker

end External

namespace QuorumStateResolver

/-- The external pair that the attributes describe. -/
def external (self : QuorumStateResolver ν) : External ν where
  leader := self.leader
  quorum := self.quorum
  voters := self.voters
  numsync := self.numsync
  sync := self.sync

/-- The resolver as it would be after reading the external pair. -/
def withExternal (self : QuorumStateResolver ν) (e : External ν) : QuorumStateResolver ν :=
  { self with
    leader := e.leader, quorum := e.quorum, voters := e.voters, numsync := e.numsync,
    sync := e.sync }

theorem keys_union_singleton (s : CaseInsensitiveSet ν) (v : ν) :
    (s ∪ CaseInsensitiveSet.ofList [v]).keys = insert (lower v) s.keys := by
  rw [CaseInsensitiveSet.keys_union, CaseInsensitiveSet.keys_ofList, List.map_singleton,
    List.toFinset_cons, List.toFinset_nil, Finset.union_insert, Finset.union_empty]

theorem checkInvariants_eq_ok_iff (self : QuorumStateResolver ν) :
    self.checkInvariants = .ok () ↔ self.external.Consistent self.leaderWanted := by
  simp only [checkInvariants, CaseInsensitiveSet.truthy_iff, CaseInsensitiveSet.le_iff,
    CaseInsensitiveSet.len_eq]
  rw [CaseInsensitiveSet.keys_union]
  simp only [keys_union_singleton]
  split
  · next h =>
      simp only [reduceCtorEq, false_iff]
      exact fun hc => h.2 (hc.overlap h.1)
  · next h =>
      have ho : self.voters.keys ≠ ∅ →
          ((self.external.voterNodes ∪ self.external.syncNodes self.leaderWanted).card : ℤ) ≤
            self.quorum + self.numsync + 1 :=
        fun hv => not_not.mp fun hlt => h ⟨hv, hlt⟩
      split
      · next hn =>
          simp only [reduceCtorEq, false_iff]
          exact fun hc => hn hc.nested
      · next hn =>
          simp only [true_iff]
          exact ⟨ho, not_not.mp hn⟩

/-! ## Attributes and external pair agree at every yield -/

/-- The yields lead the external pair to where the attributes are, and every
state on the way is consistent. -/
structure Tracks (s : QuorumStateResolver ν) (ys : List (Transition ν))
    (s' : QuorumStateResolver ν) : Prop where
  external_eq : s'.external = s.external.applyAll ys
  leaderWanted_eq : s'.leaderWanted = s.leaderWanted
  consistent : ∀ pre, pre <+: ys → pre ≠ [] →
    (s.external.applyAll pre).Consistent s.leaderWanted

theorem tracks_composable : Gen.Composable (Tracks (ν := ν)) where
  refl s := ⟨rfl, rfl, fun pre hp hne => absurd (List.prefix_nil.mp hp) hne⟩
  trans := by
    intro s ys s' zs s'' h₁ h₂
    refine ⟨?_, h₂.leaderWanted_eq.trans h₁.leaderWanted_eq, ?_⟩
    · rw [h₂.external_eq, h₁.external_eq, External.applyAll_append]
    · intro pre hp hne
      rcases List.prefix_or_prefix_of_prefix hp (List.prefix_append ys zs) with hy | ⟨t, rfl⟩
      · exact h₁.consistent pre hy hne
      · have ht := (List.prefix_append_right_inj ys).mp hp
        rcases eq_or_ne t [] with rfl | htne
        · rw [List.append_nil] at hne ⊢
          exact h₁.consistent ys (List.prefix_refl ys) hne
        · have := h₂.consistent t ht htne
          rwa [h₁.external_eq, ← External.applyAll_append, h₁.leaderWanted_eq] at this

/-! ## The two updates -/

/-- The attributes after `quorum_update` has assigned them. -/
def assignQuorum (s : QuorumStateResolver ν) (quorum : ℤ) (voters : CaseInsensitiveSet ν)
    (leader : Option ν) (adjustQuorum : Bool) : QuorumStateResolver ν :=
  let s₁ := { s with leader := leader.getD s.leader }
  { s₁ with
    quorum := (s₁.adjustedQuorum quorum voters leader adjustQuorum).1
    voters := (s₁.adjustedQuorum quorum voters leader adjustQuorum).2 }

/-- The transition that `quorum_update` yields. -/
def quorumTransition (s : QuorumStateResolver ν) : Transition ν :=
  ⟨.quorum, s.leader, s.quorum, s.voters⟩

/-- The transition that `sync_update` yields. -/
def syncTransition (s : QuorumStateResolver ν) : Transition ν :=
  ⟨.sync, s.leader, s.numsync, s.sync⟩

theorem writeQuorum_run (quorum : ℤ) (voters : CaseInsensitiveSet ν) (s : QuorumStateResolver ν) :
    writeQuorum quorum voters s =
      match ({ s with quorum := quorum, voters := voters } : QuorumStateResolver ν).checkInvariants
      with
      | .ok _ => ⟨[⟨.quorum, s.leader, quorum, voters⟩],
          { s with quorum := quorum, voters := voters }, .ok ()⟩
      | .error e => ⟨[], { s with quorum := quorum, voters := voters }, .error e⟩ := by
  rw [writeQuorum, Gen.update_bind]
  split
  · next u h => rw [Gen.bind_ok (by rw [Gen.check_run, h]), Gen.self_bind]; rfl
  · next e h => rw [Gen.bind_error (by rw [Gen.check_run, h])]

theorem syncUpdate_run (numsync : ℤ) (sync : CaseInsensitiveSet ν) (s : QuorumStateResolver ν)
    (h₀ : 0 ≤ numsync) (h₁ : numsync ≤ sync.len) :
    syncUpdate numsync sync s =
      match ({ s with numsync := numsync, sync := sync } : QuorumStateResolver ν).checkInvariants
      with
      | .ok _ => ⟨[⟨.sync, s.leader, numsync, sync⟩],
          { s with numsync := numsync, sync := sync }, .ok ()⟩
      | .error e => ⟨[], { s with numsync := numsync, sync := sync }, .error e⟩ := by
  rw [syncUpdate, if_neg (not_lt.mpr h₀), if_neg (not_lt.mpr h₁), Gen.update_bind]
  split
  · next u h => rw [Gen.bind_ok (by rw [Gen.check_run, h]), Gen.self_bind]; rfl
  · next e h => rw [Gen.bind_error (by rw [Gen.check_run, h])]

/-- The three ways in which `quorum_update` goes on after its range checks. -/
theorem quorumUpdate_run (quorum : ℤ) (voters : CaseInsensitiveSet ν) (leader : Option ν)
    (adjustQuorum : Bool) (s : QuorumStateResolver ν) (h₀ : 0 ≤ quorum)
    (h₁ : ¬ (0 < quorum ∧ voters.len ≤ quorum)) :
    let s' := s.assignQuorum quorum voters leader adjustQuorum
    let same := s'.leader = s.leader ∧ s'.quorum = s.quorum ∧ s'.voters.Same s.voters
    (same ∧ s.voters.Truthy ∧
      quorumUpdate quorum voters leader adjustQuorum s = ⟨[], s, .ok ()⟩) ∨
    (same ∧ ¬ s.voters.Truthy ∧
      quorumUpdate quorum voters leader adjustQuorum s =
        match s'.checkInvariants with
        | .ok _ => ⟨[⟨.restart, s.leader, s.quorum, s.voters⟩, s'.quorumTransition], s', .ok ()⟩
        | .error e => ⟨[⟨.restart, s.leader, s.quorum, s.voters⟩], s', .error e⟩) ∨
    (¬ same ∧
      quorumUpdate quorum voters leader adjustQuorum s =
        match s'.checkInvariants with
        | .ok _ => ⟨[s'.quorumTransition], s', .ok ()⟩
        | .error e => ⟨[], s', .error e⟩) := by
  intro s' same
  have hrun : quorumUpdate quorum voters leader adjustQuorum s =
      if same then
        if s.voters.Truthy then (pure () : Method ν) { s with leader := leader.getD s.leader }
        else (do
          Gen.yield ⟨.restart, leader.getD s.leader, s.quorum, s.voters⟩
          writeQuorum s'.quorum s'.voters : Method ν) { s with leader := leader.getD s.leader }
      else writeQuorum s'.quorum s'.voters { s with leader := leader.getD s.leader } := by
    rw [quorumUpdate, if_neg (not_lt.mpr h₀), if_neg h₁, Gen.self_bind, Gen.update_bind,
      Gen.self_bind]
    by_cases hs : same
    · by_cases hv : s.voters.Truthy
      · rw [if_pos hs, if_pos hv]
        exact (congrFun (if_pos hs) _).trans (congrFun (if_pos hv) _)
      · rw [if_pos hs, if_neg hv]
        exact (congrFun (if_pos hs) _).trans (congrFun (if_neg hv) _)
    · rw [if_neg hs]
      exact congrFun (if_neg hs) _
  by_cases hs : same
  · have hl : leader.getD s.leader = s.leader := hs.1
    by_cases hv : s.voters.Truthy
    · refine Or.inl ⟨hs, hv, ?_⟩
      rw [hrun, if_pos hs, if_pos hv, hl]
      rfl
    · refine Or.inr (Or.inl ⟨hs, hv, ?_⟩)
      rw [hrun, if_pos hs, if_neg hv, Gen.bind_ok (Gen.yield_run _ _), writeQuorum_run, hl]
      have hs' : ({ s with leader := s.leader, quorum := s'.quorum, voters := s'.voters } :
          QuorumStateResolver ν) = s' := by
        simp only [s', assignQuorum, hl]
      rw [hs']
      rcases hc : s'.checkInvariants with e | u
      · rfl
      · simp only [quorumTransition, show s'.leader = s.leader from hl, List.cons_append,
          List.nil_append]
  · refine Or.inr (Or.inr ⟨hs, ?_⟩)
    rw [hrun, if_neg hs, writeQuorum_run]
    rfl

theorem prefix_singleton {α : Type} {pre : List α} {a : α} (h : pre <+: [a]) (hne : pre ≠ []) :
    pre = [a] := by
  rcases List.prefix_cons_iff.mp h with rfl | ⟨t, rfl, ht⟩
  · exact absurd rfl hne
  · rw [List.prefix_nil.mp ht]

/-- Yielding one transition tracks when it describes the assigned attributes. -/
theorem tracks_singleton {s s' : QuorumStateResolver ν} {t : Transition ν}
    (he : s'.external = s.external.apply t) (hw : s'.leaderWanted = s.leaderWanted)
    (hc : s'.checkInvariants = .ok ()) : Tracks s [t] s' := by
  refine ⟨he, hw, fun pre hp hne => ?_⟩
  rw [prefix_singleton hp hne, External.applyAll_cons, External.applyAll_nil, ← he, ← hw]
  exact (checkInvariants_eq_ok_iff s').mp hc

theorem match_check_eq_ok {c : Except (ResolverError ν) Unit} {ts zs ys : List (Transition ν)}
    {s s' : QuorumStateResolver ν} {u : Unit}
    (h : (match c with
      | .ok _ => (⟨ts, s, .ok ()⟩ : Outcome _ _ (ResolverError ν) Unit)
      | .error e => ⟨zs, s, .error e⟩) = ⟨ys, s', .ok u⟩) :
    c = .ok () ∧ ys = ts ∧ s' = s := by
  cases c with
  | ok v =>
      simp only [Outcome.mk.injEq] at h
      exact ⟨rfl, h.1.symm, h.2.1.symm⟩
  | error e => simp at h

theorem quorumUpdate_ranges {quorum : ℤ} {voters : CaseInsensitiveSet ν} {leader : Option ν}
    {adjustQuorum : Bool} {s s' : QuorumStateResolver ν} {ys : List (Transition ν)} {u : Unit}
    (h : quorumUpdate quorum voters leader adjustQuorum s = ⟨ys, s', .ok u⟩) :
    0 ≤ quorum ∧ ¬ (0 < quorum ∧ voters.len ≤ quorum) := by
  rw [quorumUpdate] at h
  split at h
  · simp at h
  · split at h
    · simp at h
    · next h₀ h₁ => exact ⟨not_lt.mp h₀, h₁⟩

theorem quorumUpdate_tracks (quorum : ℤ) (voters : CaseInsensitiveSet ν) (leader : Option ν)
    (adjustQuorum : Bool) :
    Gen.Ensures (quorumUpdate quorum voters leader adjustQuorum) (Tracks (ν := ν)) := by
  intro s ys s' u h
  obtain ⟨h₀, h₁⟩ := quorumUpdate_ranges h
  rcases quorumUpdate_run quorum voters leader adjustQuorum s h₀ h₁ with
    ⟨-, -, hr⟩ | ⟨hsame, -, hr⟩ | ⟨-, hr⟩
  · rw [hr, Outcome.mk.injEq] at h
    obtain ⟨rfl, rfl, -⟩ := h
    exact tracks_composable.refl s
  · rw [hr] at h
    obtain ⟨hc, rfl, rfl⟩ := match_check_eq_ok h
    have hcons : s.external.Consistent s.leaderWanted := by
      have hc' := (checkInvariants_eq_ok_iff _).mp hc
      have hvoters := (CaseInsensitiveSet.same_iff _ _).mp hsame.2.2
      have hweaker : External.Weaker
          (s.assignQuorum quorum voters leader adjustQuorum).external s.external :=
        ⟨hsame.1.symm, hsame.2.1.symm, hvoters.symm, le_rfl, rfl⟩
      exact hweaker.consistent hc'
    have hrestart : Tracks s [⟨.restart, s.leader, s.quorum, s.voters⟩] s :=
      tracks_singleton rfl rfl ((checkInvariants_eq_ok_iff s).mpr hcons)
    exact tracks_composable.trans hrestart (tracks_singleton rfl rfl hc)
  · rw [hr] at h
    obtain ⟨hc, rfl, rfl⟩ := match_check_eq_ok h
    exact tracks_singleton rfl rfl hc

theorem syncUpdate_ranges {numsync : ℤ} {sync : CaseInsensitiveSet ν}
    {s s' : QuorumStateResolver ν} {ys : List (Transition ν)} {u : Unit}
    (h : syncUpdate numsync sync s = ⟨ys, s', .ok u⟩) : 0 ≤ numsync ∧ numsync ≤ sync.len := by
  rw [syncUpdate] at h
  split at h
  · simp at h
  · split at h
    · simp at h
    · next h₀ h₁ => exact ⟨not_lt.mp h₀, not_lt.mp h₁⟩

theorem syncUpdate_tracks (numsync : ℤ) (sync : CaseInsensitiveSet ν) :
    Gen.Ensures (syncUpdate numsync sync) (Tracks (ν := ν)) := by
  intro s ys s' u h
  obtain ⟨h₀, h₁⟩ := syncUpdate_ranges h
  rw [syncUpdate_run numsync sync s h₀ h₁] at h
  obtain ⟨hc, rfl, rfl⟩ := match_check_eq_ok h
  exact tracks_singleton rfl rfl hc

/-! ## The phases -/

/-- A relation that both updates establish. -/
structure Establishes
    (R : QuorumStateResolver ν → List (Transition ν) → QuorumStateResolver ν → Prop) : Prop extends
    Gen.Composable R where
  quorumUpdate : ∀ quorum voters adjustQuorum,
    Gen.Ensures (quorumUpdate quorum voters none adjustQuorum) R
  syncUpdate : ∀ numsync sync, Gen.Ensures (syncUpdate numsync sync) R
  adjustConfirmed : ∀ s, R s [] s.adjustConfirmed

namespace Establishes

variable {R : QuorumStateResolver ν → List (Transition ν) → QuorumStateResolver ν → Prop}

theorem bindSelf {β : Type} (hR : Establishes R)
    {f : QuorumStateResolver ν → Gen (QuorumStateResolver ν) (Transition ν) (ResolverError ν) β}
    (hf : ∀ s, Gen.Ensures (f s) R) : Gen.Ensures (Gen.self >>= f) R :=
  .bind hR.toComposable (.self hR.toComposable) hf

theorem seq {x : Method ν} {β : Type} (hR : Establishes R)
    {f : Unit → Gen (QuorumStateResolver ν) (Transition ν) (ResolverError ν) β}
    (hx : Gen.Ensures x R) (hf : ∀ u, Gen.Ensures (f u) R) : Gen.Ensures (x >>= f) R :=
  .bind hR.toComposable hx hf

theorem when {c : Prop} [Decidable c] {x : Method ν} (hR : Establishes R)
    (hx : Gen.Ensures x R) : Gen.Ensures (Gen.when c x) R :=
  .when hR.toComposable hx

theorem assertSelf (hR : Establishes R) (p : QuorumStateResolver ν → Prop) [DecidablePred p] :
    Gen.Ensures (assertSelf p) R :=
  .check hR.toComposable _

theorem evictVoters (hR : Establishes R) : Gen.Ensures (evictVoters : Method ν) R :=
  hR.bindSelf fun _ => hR.seq (hR.when (hR.quorumUpdate _ _ _)) fun _ =>
    hR.bindSelf fun _ => hR.when (hR.syncUpdate _ _)

theorem extendVoters (hR : Establishes R) : Gen.Ensures (extendVoters : Method ν) R :=
  hR.bindSelf fun _ => hR.seq (hR.when (hR.syncUpdate _ _)) fun _ =>
    hR.bindSelf fun _ => hR.seq (hR.when (hR.quorumUpdate _ _ _)) fun _ =>
      hR.bindSelf fun _ => hR.when (hR.syncUpdate _ _)

theorem trimMargin (hR : Establishes R) : Gen.Ensures (trimMargin : Method ν) R :=
  hR.bindSelf fun _ =>
    .ite (.ite (hR.syncUpdate _ _) (hR.quorumUpdate _ _ _)) (hR.when (hR.quorumUpdate _ _ _))

theorem handleNonSteadyCases (hR : Establishes R) :
    Gen.Ensures (handleNonSteadyCases : Method ν) R := by
  refine hR.seq (hR.bindSelf fun _ => ?_) fun _ =>
    hR.seq (hR.assertSelf _) fun _ => hR.trimMargin
  exact .ite hR.evictVoters (hR.when hR.extendVoters)

theorem removeRemaining (hR : Establishes R) (toRemove : CaseInsensitiveSet ν) :
    Gen.Ensures (removeRemaining toRemove) R :=
  hR.seq (hR.assertSelf _) fun _ => hR.bindSelf fun _ =>
    hR.seq (hR.quorumUpdate _ _ _) fun _ => hR.syncUpdate _ _

theorem removeByQuorum (hR : Establishes R) (toRemove : CaseInsensitiveSet ν) :
    Gen.Ensures (removeByQuorum toRemove) R :=
  hR.bindSelf fun _ => hR.seq (hR.syncUpdate _ _) fun _ =>
    hR.bindSelf fun _ => hR.seq (hR.quorumUpdate _ _ _) fun _ =>
      hR.when (hR.removeRemaining _)

theorem removeGoneNodes (hR : Establishes R) : Gen.Ensures (removeGoneNodes : Method ν) R :=
  hR.bindSelf fun _ =>
    .ite (hR.seq (hR.quorumUpdate _ _ _) fun _ => hR.syncUpdate _ _)
      (hR.when (.ite (hR.removeByQuorum _) (hR.removeRemaining _)))

theorem addByQuorum (hR : Establishes R) (syncWanted : ℤ) (toAdd : CaseInsensitiveSet ν) :
    Gen.Ensures (addByQuorum syncWanted toAdd) R :=
  hR.bindSelf fun _ => hR.seq (hR.quorumUpdate _ _ _) fun _ =>
    hR.bindSelf fun _ => hR.syncUpdate _ _

theorem addNewNodes (hR : Establishes R) : Gen.Ensures (addNewNodes : Method ν) R := by
  refine hR.bindSelf fun _ => hR.when (.ite ?_ (hR.addByQuorum _ _))
  exact hR.bindSelf fun _ => hR.seq (hR.syncUpdate _ _) fun _ =>
    hR.bindSelf fun _ => hR.seq (hR.quorumUpdate _ _ _) fun _ =>
      hR.bindSelf fun _ => hR.when (hR.addByQuorum _ _)

theorem handleReplicationFactorChange (hR : Establishes R) :
    Gen.Ensures (handleReplicationFactorChange : Method ν) R := by
  refine hR.bindSelf fun _ => .ite ?_ (hR.when ?_)
  · exact hR.bindSelf fun _ => hR.seq (hR.syncUpdate _ _) fun _ =>
      hR.bindSelf fun _ => hR.quorumUpdate _ _ _
  · exact hR.bindSelf fun _ => hR.seq (hR.when (hR.quorumUpdate _ _ _)) fun _ =>
      hR.bindSelf fun _ => hR.syncUpdate _ _

theorem settle (hR : Establishes R) : Gen.Ensures (settle : Method ν) R :=
  hR.seq (hR.assertSelf _) fun _ => hR.seq (.update hR.adjustConfirmed) fun _ =>
    hR.seq hR.handleNonSteadyCases fun _ => hR.seq hR.removeGoneNodes fun _ =>
      hR.seq hR.addNewNodes fun _ => hR.handleReplicationFactorChange

end Establishes

theorem adjustConfirmed_tracks (s : QuorumStateResolver ν) : Tracks s [] s.adjustConfirmed := by
  rw [adjustConfirmed]
  split
  · exact ⟨rfl, rfl, (tracks_composable.refl s).consistent⟩
  · exact tracks_composable.refl s

theorem establishes_tracks : Establishes (Tracks (ν := ν)) where
  toComposable := tracks_composable
  quorumUpdate quorum voters adjustQuorum := quorumUpdate_tracks quorum voters none adjustQuorum
  syncUpdate := syncUpdate_tracks
  adjustConfirmed := adjustConfirmed_tracks

/-! ## The `try` statement -/

theorem failoverVoters_keys (s : QuorumStateResolver ν) :
    s.failoverVoters.keys = insert (lower s.leader) (s.voters.keys \ {lower s.leaderWanted}) := by
  rw [failoverVoters, keys_union_singleton, CaseInsensitiveSet.keys_sdiff,
    CaseInsensitiveSet.keys_ofList]
  simp

/-- With the promoted node added, the hand-over set is the old voters and leader. -/
theorem insert_failoverVoters_keys (s : QuorumStateResolver ν) :
    insert (lower s.leaderWanted) s.failoverVoters.keys =
      insert (lower s.leaderWanted) s.external.voterNodes := by
  rw [failoverVoters_keys, External.voterNodes, external]
  ext k
  simp only [Finset.mem_insert, Finset.mem_sdiff, Finset.mem_singleton]
  tauto

/-- The attributes after the hand-over was written to `/sync`. -/
theorem assign_failover_consistent {s : QuorumStateResolver ν} {voters : CaseInsensitiveSet ν}
    (hv : insert (lower s.leaderWanted) voters.keys =
      insert (lower s.leaderWanted) s.external.voterNodes)
    (hcard : ((s.external.voterNodes ∪ s.external.syncNodes s.leaderWanted).card : ℤ) ≤
      s.quorum + s.numsync + 1)
    (hnest : s.external.voterNodes ⊆ s.external.syncNodes s.leaderWanted ∨
      s.external.syncNodes s.leaderWanted ⊆ s.external.voterNodes) :
    (s.assignQuorum s.quorum voters (some s.leaderWanted) true).external.Consistent
      s.leaderWanted := by
  have hw : lower s.leaderWanted ∈ s.external.syncNodes s.leaderWanted :=
    Finset.mem_insert_self _ _
  have hvn : (s.assignQuorum s.quorum voters (some s.leaderWanted) true).external.voterNodes =
      insert (lower s.leaderWanted) s.external.voterNodes := hv
  constructor
  · intro _
    have hsn : (s.assignQuorum s.quorum voters (some s.leaderWanted) true).external.syncNodes
        s.leaderWanted = s.external.syncNodes s.leaderWanted := rfl
    rw [hvn, hsn, Finset.insert_union, Finset.insert_eq_of_mem (Finset.mem_union_right _ hw)]
    exact hcard
  · rw [hvn]
    rcases hnest with h | h
    · exact Or.inl (Finset.insert_subset hw h)
    · exact Or.inr (h.trans (Finset.subset_insert _ _))

/-- The attributes after the hand-over was written to `synchronous_standby_names`. -/
def assignHandOver (s : QuorumStateResolver ν) : QuorumStateResolver ν :=
  { s with numsync := s.failoverVoters.len - s.quorum, sync := s.failoverVoters }

theorem assignHandOver_nodes (s : QuorumStateResolver ν) :
    s.assignHandOver.external.voterNodes ⊆ s.assignHandOver.external.syncNodes s.leaderWanted ∧
      ((s.assignHandOver.external.voterNodes ∪
        s.assignHandOver.external.syncNodes s.leaderWanted).card : ℤ) ≤
        s.quorum + (s.failoverVoters.len - s.quorum) + 1 := by
  have hsn : s.assignHandOver.external.syncNodes s.leaderWanted =
      insert (lower s.leaderWanted) s.external.voterNodes := insert_failoverVoters_keys s
  have hsub : s.assignHandOver.external.voterNodes ⊆
      s.assignHandOver.external.syncNodes s.leaderWanted := by
    rw [hsn]
    exact Finset.subset_insert _ _
  refine ⟨hsub, ?_⟩
  rw [Finset.union_eq_right.mpr hsub, CaseInsensitiveSet.len_eq]
  have := Finset.card_insert_le (lower s.leaderWanted) s.failoverVoters.keys
  change ((insert (lower s.leaderWanted) s.failoverVoters.keys).card : ℤ) ≤ _
  omega

theorem assignHandOver_consistent (s : QuorumStateResolver ν) :
    s.assignHandOver.external.Consistent s.leaderWanted :=
  ⟨fun _ => (assignHandOver_nodes s).2, Or.inl (assignHandOver_nodes s).1⟩

theorem failover_tracks : Gen.Ensures
    (failover : Gen (QuorumStateResolver ν) (Transition ν) (ResolverError ν) Bool)
    (Tracks (ν := ν)) :=
  have hR := establishes_tracks
  hR.bindSelf fun _ => hR.seq (hR.when (hR.syncUpdate _ _)) fun _ =>
    hR.bindSelf fun _ => hR.seq (quorumUpdate_tracks _ _ _ _) fun _ =>
      hR.bindSelf fun _ => .pure tracks_composable _

/-- What `failover` does after `synchronous_standby_names` has been dealt with. -/
theorem failover_run {s s₁ : QuorumStateResolver ν} {ys : List (Transition ν)}
    (h : Gen.when (¬ s.sync.Truthy) (syncUpdate (s.failoverVoters.len - s.quorum) s.failoverVoters)
      s = ⟨ys, s₁, .ok ()⟩) {zs : List (Transition ν)} {s' : QuorumStateResolver ν}
    {e : ResolverError ν} (hf : failover s = ⟨zs, s', .error e⟩) :
    ∃ ws, quorumUpdate s₁.quorum s.failoverVoters (some s₁.leaderWanted) true s₁ =
      ⟨ws, s', .error e⟩ ∧ zs = ys ++ ws := by
  rw [failover, Gen.self_bind, Gen.bind_ok h, Gen.self_bind] at hf
  rcases hq : quorumUpdate s₁.quorum s.failoverVoters (some s₁.leaderWanted) true s₁ with
    ⟨ws, s₂, e' | u⟩
  · rw [Gen.bind_error hq] at hf
    simp only [Outcome.mk.injEq, Except.error.injEq] at hf
    obtain ⟨rfl, rfl, rfl⟩ := hf
    exact ⟨ws, rfl, rfl⟩
  · rw [Gen.bind_ok hq, Gen.self_bind] at hf
    simp at hf

/-- A change of leader raises before it assigns anything, or because its check failed. -/
theorem quorumUpdate_leader_error {quorum : ℤ} {voters : CaseInsensitiveSet ν} {leader : ν}
    {s s' : QuorumStateResolver ν} {ys : List (Transition ν)} {e : ResolverError ν}
    (hne : leader ≠ s.leader)
    (h : quorumUpdate quorum voters (some leader) true s = ⟨ys, s', .error e⟩) :
    ys = [] ∧ (s' = s ∨ s' = s.assignQuorum quorum voters (some leader) true ∧
      s'.checkInvariants ≠ .ok ()) := by
  by_cases h₀ : 0 ≤ quorum
  · by_cases h₁ : 0 < quorum ∧ voters.len ≤ quorum
    · rw [quorumUpdate, if_neg (not_lt.mpr h₀), if_pos h₁, Gen.raise_run, Outcome.mk.injEq] at h
      exact ⟨h.1.symm, Or.inl h.2.1.symm⟩
    · rcases quorumUpdate_run quorum voters (some leader) true s h₀ h₁ with
        ⟨hs, -⟩ | ⟨hs, -⟩ | ⟨-, hr⟩
      · exact absurd hs.1 hne
      · exact absurd hs.1 hne
      · rw [hr] at h
        cases hc : (s.assignQuorum quorum voters (some leader) true).checkInvariants with
        | ok u => simp [hc] at h
        | error e' =>
            simp only [hc, Outcome.mk.injEq] at h
            refine ⟨h.1.symm, Or.inr ⟨h.2.1.symm, ?_⟩⟩
            rw [← h.2.1, hc]
            simp
  · rw [quorumUpdate, if_pos (not_le.mp h₀), Gen.raise_run, Outcome.mk.injEq] at h
    exact ⟨h.1.symm, Or.inl h.2.1.symm⟩

/-- The hand-over to `synchronous_standby_names` passes its check once its
number is in range. -/
theorem handOver_run_of_range (s : QuorumStateResolver ν)
    (h₀ : 0 ≤ s.failoverVoters.len - s.quorum)
    (h₁ : s.failoverVoters.len - s.quorum ≤ s.failoverVoters.len) :
    syncUpdate (s.failoverVoters.len - s.quorum) s.failoverVoters s =
      ⟨[s.assignHandOver.syncTransition], s.assignHandOver, .ok ()⟩ := by
  rw [syncUpdate_run _ _ s h₀ h₁]
  have hc := (checkInvariants_eq_ok_iff s.assignHandOver).mpr (assignHandOver_consistent s)
  simp only [assignHandOver] at hc
  rw [hc]
  rfl

/-- The hand-over to `synchronous_standby_names` only ever fails before it assigns. -/
theorem handOver_run (s : QuorumStateResolver ν) :
    syncUpdate (s.failoverVoters.len - s.quorum) s.failoverVoters s =
        ⟨[s.assignHandOver.syncTransition], s.assignHandOver, .ok ()⟩ ∨
      ∃ e, syncUpdate (s.failoverVoters.len - s.quorum) s.failoverVoters s = ⟨[], s, .error e⟩ := by
  by_cases h₀ : 0 ≤ s.failoverVoters.len - s.quorum
  · by_cases h₁ : s.failoverVoters.len - s.quorum ≤ s.failoverVoters.len
    · exact Or.inl (handOver_run_of_range s h₀ h₁)
    · right
      rw [syncUpdate, if_neg (not_lt.mpr h₀), if_pos (not_le.mp h₁)]
      exact ⟨_, Gen.raise_run _ s⟩
  · right
    rw [syncUpdate, if_pos (not_le.mp h₀)]
    exact ⟨_, Gen.raise_run _ s⟩

/-- When the failover branch raises, attributes and external pair still agree,
unless the old `/sync` had no voters and the hand-over did not overlap. -/
theorem failover_error {s s' : QuorumStateResolver ν} {ys : List (Transition ν)}
    {e : ResolverError ν} (hne : s.leaderWanted ≠ s.leader)
    (hc : s.external.Consistent s.leaderWanted) (h : failover s = ⟨ys, s', .error e⟩) :
    Tracks s ys s' ∨
      (ys = [] ∧ s' = s.assignQuorum s.quorum s.failoverVoters (some s.leaderWanted) true ∧
        s.voters.keys = ∅ ∧ s.quorum + s.numsync + 1 <
          ((s.external.voterNodes ∪ s.external.syncNodes s.leaderWanted).card : ℤ)) := by
  by_cases hs : s.sync.Truthy
  · have hw : Gen.when (¬ s.sync.Truthy)
        (syncUpdate (s.failoverVoters.len - s.quorum) s.failoverVoters) s = ⟨[], s, .ok ()⟩ := by
      rw [Gen.when, if_neg (not_not.mpr hs), Gen.pure_run]
    obtain ⟨ws, hq, rfl⟩ := failover_run hw h
    obtain ⟨rfl, rfl | ⟨rfl, hbad⟩⟩ := quorumUpdate_leader_error hne hq
    · exact Or.inl (tracks_composable.refl _)
    · refine Or.inr ⟨rfl, rfl, ?_⟩
      have hlt : s.quorum + s.numsync + 1 <
          ((s.external.voterNodes ∪ s.external.syncNodes s.leaderWanted).card : ℤ) := by
        by_contra hle
        refine hbad ((checkInvariants_eq_ok_iff _).mpr ?_)
        exact assign_failover_consistent (insert_failoverVoters_keys s) (not_lt.mp hle) hc.nested
      refine ⟨?_, hlt⟩
      by_contra hv
      exact absurd (hc.overlap hv) (not_le.mpr hlt)
  · rcases handOver_run s with hr | ⟨e', hr⟩
    · have hw : Gen.when (¬ s.sync.Truthy)
          (syncUpdate (s.failoverVoters.len - s.quorum) s.failoverVoters) s =
            ⟨[s.assignHandOver.syncTransition], s.assignHandOver, .ok ()⟩ := by
        rw [Gen.when, if_pos hs, hr]
      obtain ⟨ws, hq, rfl⟩ := failover_run hw h
      have ht := syncUpdate_tracks _ _ _ _ _ _ hr
      obtain ⟨rfl, rfl | ⟨rfl, hbad⟩⟩ := quorumUpdate_leader_error (s := s.assignHandOver) hne hq
      · rw [List.append_nil]
        exact Or.inl ht
      · refine absurd ((checkInvariants_eq_ok_iff _).mpr ?_) hbad
        exact assign_failover_consistent (s := s.assignHandOver) (insert_failoverVoters_keys s)
          (assignHandOver_nodes s).2 (Or.inl (assignHandOver_nodes s).1)
    · have hw : Gen.when (¬ s.sync.Truthy)
          (syncUpdate (s.failoverVoters.len - s.quorum) s.failoverVoters) s =
            ⟨[], s, .error e'⟩ := by
        rw [Gen.when, if_pos hs, hr]
      rw [failover, Gen.self_bind, Gen.bind_error hw, Outcome.mk.injEq] at h
      obtain ⟨rfl, rfl, -⟩ := h
      exact Or.inl (tracks_composable.refl _)

/-- Without old voters the hand-over set is the old leader alone. -/
theorem failoverVoters_keys_of_empty {s : QuorumStateResolver ν} (hv : s.voters.keys = ∅) :
    s.failoverVoters.keys = {lower s.leader} := by
  rw [failoverVoters_keys, hv, Finset.empty_sdiff, insert_empty_eq]

/-- The handler rewrites `/sync` after a hand-over that did not overlap. -/
theorem rebuild_tracks_of_empty {s s' : QuorumStateResolver ν} {zs : List (Transition ν)} {u : Unit}
    (hv : s.voters.keys = ∅)
    (hlt : s.quorum + s.numsync + 1 <
      ((s.external.voterNodes ∪ s.external.syncNodes s.leaderWanted).card : ℤ))
    (hq : quorumUpdate (s.sync.len - s.numsync) s.sync none true
      (s.assignQuorum s.quorum s.failoverVoters (some s.leaderWanted) true) = ⟨zs, s', .ok u⟩) :
    Tracks s zs s' := by
  let s₁ := s.assignQuorum s.quorum s.failoverVoters (some s.leaderWanted) true
  have hv₁ : s₁.voters.keys = {lower s.leader} := failoverVoters_keys_of_empty hv
  have htruthy : s₁.voters.Truthy := by
    rw [CaseInsensitiveSet.truthy_iff, hv₁]
    exact Finset.singleton_ne_empty _
  obtain ⟨h₀, h₁⟩ := quorumUpdate_ranges hq
  rcases quorumUpdate_run _ _ none true s₁ h₀ h₁ with ⟨hs, -⟩ | ⟨-, hf, -⟩ | ⟨-, hr⟩
  · -- an unchanged quorum would leave at most two nodes, which then do overlap
    exfalso
    have hkeys := (CaseInsensitiveSet.same_iff _ _).mp hs.2.2
    have hquorum := hs.2.1
    have hadj : s₁.adjustedQuorum (s.sync.len - s.numsync) s.sync none true =
        (s.sync.len - s.numsync + max (s.numsync - s.numsyncConfirmed) 0, s.sync) := by
      rw [adjustedQuorum, if_neg (fun hn => hn.2 htruthy), if_pos rfl]
      rfl
    change (s₁.adjustedQuorum (s.sync.len - s.numsync) s.sync none true).1 = s.quorum at hquorum
    change (s₁.adjustedQuorum (s.sync.len - s.numsync) s.sync none true).2.keys = s₁.voters.keys
      at hkeys
    rw [hadj] at hquorum hkeys
    simp only at hquorum hkeys
    rw [hv₁] at hkeys
    have hlen : s.sync.len = 1 := by rw [CaseInsensitiveSet.len_eq, hkeys, Finset.card_singleton]; rfl
    have hnodes : s.external.voterNodes ∪ s.external.syncNodes s.leaderWanted =
        insert (lower s.leaderWanted) {lower s.leader} := by
      simp only [External.voterNodes, External.syncNodes, external, hv, hkeys, insert_empty_eq]
      exact Finset.union_eq_right.mpr (Finset.subset_insert _ _)
    have hcard := Finset.card_insert_le (lower s.leaderWanted) {lower s.leader}
    rw [hnodes] at hlt
    rw [Finset.card_singleton] at hcard
    omega
  · exact absurd htruthy hf
  · rw [show s₁ = s.assignQuorum s.quorum s.failoverVoters (some s.leaderWanted) true from rfl] at hr
    rw [hr] at hq
    obtain ⟨hok, rfl, rfl⟩ := match_check_eq_ok hq
    exact tracks_singleton rfl rfl hok

/-- The handler rewrites `/sync` as a whole, so it repairs the agreement. -/
theorem rebuildQuorum_tracks {s s₁ s' : QuorumStateResolver ν} {ys zs : List (Transition ν)}
    {e : ResolverError ν} {b : Bool} (hne : s.leaderWanted ≠ s.leader)
    (hc : s.external.Consistent s.leaderWanted) (hf : failover s = ⟨ys, s₁, .error e⟩)
    (hr : rebuildQuorum e s₁ = ⟨zs, s', .ok b⟩) : Tracks s (ys ++ zs) s' := by
  cases e with
  | assertionError => simp [rebuildQuorum] at hr
  | quorumError e =>
      rw [rebuildQuorum, Gen.self_bind] at hr
      obtain ⟨zs₁, s₂, u, zs₂, hq, hp, rfl⟩ := Gen.bind_eq_ok hr
      simp only [Gen.pure_run, Outcome.mk.injEq] at hp
      obtain ⟨rfl, rfl, -⟩ := hp
      rw [List.append_nil]
      rcases failover_error hne hc hf with ht | ⟨rfl, rfl, hv, hlt⟩
      · exact tracks_composable.trans ht (quorumUpdate_tracks _ _ _ _ _ _ _ _ hq)
      · exact rebuild_tracks_of_empty hv hlt hq

/-- A normal return of `_generate_transitions` from a consistent state tracks. -/
theorem generateTransitions_tracks {s s' : QuorumStateResolver ν} {ys : List (Transition ν)}
    {u : Unit} (hc : s.checkInvariants = .ok ())
    (h : generateTransitions s = ⟨ys, s', .ok u⟩) : Tracks s ys s' := by
  obtain ⟨ys₁, s₁, b, ys₂, ht, hs, rfl⟩ := Gen.bind_eq_ok h
  refine tracks_composable.trans ?_ (establishes_tracks.when establishes_tracks.settle _ _ _ _ hs)
  have hcons := (checkInvariants_eq_ok_iff s).mp hc
  rcases Gen.handle_eq_ok ht with ht | ⟨zs₁, s₂, e, zs₂, hb, hr, rfl⟩
  · rw [tryBody, Gen.self_bind] at ht
    split at ht
    · exact failover_tracks _ _ _ _ ht
    · rw [Gen.bind_ok (by rw [Gen.check_run, hc])] at ht
      simp only [Gen.pure_run, List.append_nil, Outcome.mk.injEq] at ht
      obtain ⟨rfl, rfl, -⟩ := ht
      exact tracks_composable.refl s
  · rw [tryBody, Gen.self_bind] at hb
    split at hb
    · next hne => exact rebuildQuorum_tracks hne hcons hb hr
    · rw [Gen.bind_ok (by rw [Gen.check_run, hc])] at hb
      simp at hb

/-! ## Merging -/

/-- The transitions before the first `restart`. -/
def upToRestart (ts : List (Transition ν)) : List (Transition ν) :=
  ts.takeWhile (fun t => t.transitionType ≠ .restart)

theorem upToRestart_prefix_self (ts : List (Transition ν)) : upToRestart ts <+: ts :=
  List.takeWhile_prefix _

theorem upToRestart_cons_restart {t : Transition ν} (ts : List (Transition ν))
    (h : t.transitionType = .restart) : upToRestart (t :: ts) = [] := by
  simp [upToRestart, h]

theorem upToRestart_cons {t : Transition ν} (ts : List (Transition ν))
    (h : t.transitionType ≠ .restart) : upToRestart (t :: ts) = t :: upToRestart ts := by
  simp [upToRestart, h]

/-- Every prefix of the merged list leaves the external pair where some prefix
of the unmerged list does. -/
theorem mergeTransitions_take (ts : List (Transition ν)) (e : External ν) (k : ℕ) :
    ∃ pre, pre <+: upToRestart ts ∧
      e.applyAll ((mergeTransitions ts).take k) = e.applyAll pre := by
  induction ts using mergeTransitions.induct generalizing e k with
  | case1 => exact ⟨[], List.nil_prefix, by simp [mergeTransitions]⟩
  | case2 cur =>
      cases k with
      | zero => exact ⟨[], List.nil_prefix, by simp⟩
      | succ k =>
          by_cases hr : cur.transitionType = .restart
          · exact ⟨[], List.nil_prefix, by simp [mergeTransitions, External.apply_restart e hr]⟩
          · refine ⟨[cur], ?_, by simp [mergeTransitions]⟩
            rw [upToRestart_cons [] hr]
            exact List.prefix_refl _
  | case3 cur next rest hsame ih =>
      rw [mergeTransitions, if_pos hsame]
      obtain ⟨pre, hp, he⟩ := ih e k
      by_cases hr : next.transitionType = .restart
      · rw [upToRestart_cons_restart rest hr, List.prefix_nil] at hp
        exact ⟨[], List.nil_prefix, by rw [he, hp]⟩
      · rw [upToRestart_cons rest hr] at hp
        rcases List.prefix_cons_iff.mp hp with rfl | ⟨t, rfl, ht⟩
        · exact ⟨[], List.nil_prefix, he⟩
        · -- the skipped transition is overwritten by the one that follows it
          refine ⟨cur :: next :: t, ?_, ?_⟩
          · rw [upToRestart_cons _ (hsame ▸ hr), upToRestart_cons rest hr]
            exact List.cons_prefix_cons.mpr ⟨rfl, hp⟩
          · rw [he, External.applyAll_cons, External.applyAll_cons, External.applyAll_cons,
              External.apply_apply_of_type_eq e hsame]
  | case4 cur next rest hne hr =>
      rw [mergeTransitions, if_neg hne, if_pos hr]
      refine ⟨[], List.nil_prefix, ?_⟩
      cases k with
      | zero => simp
      | succ k => simp [External.apply_restart e hr]
  | case5 cur next rest hne hr ih =>
      rw [mergeTransitions, if_neg hne, if_neg hr]
      cases k with
      | zero => exact ⟨[], List.nil_prefix, by simp⟩
      | succ k =>
          obtain ⟨pre, hp, he⟩ := ih (e.apply cur) k
          refine ⟨cur :: pre, ?_, ?_⟩
          · rw [upToRestart_cons _ hr]
            exact List.cons_prefix_cons.mpr ⟨rfl, hp⟩
          · rw [List.take_succ_cons, External.applyAll_cons, he, External.applyAll_cons]

/-- Merging does not change where a whole run leads. -/
theorem applyAll_mergeTransitions (ts : List (Transition ν)) (e : External ν) :
    e.applyAll (mergeTransitions ts) = e.applyAll (upToRestart ts) := by
  induction ts using mergeTransitions.induct generalizing e with
  | case1 => rfl
  | case2 cur =>
      by_cases hr : cur.transitionType = .restart
      · rw [upToRestart_cons_restart [] hr]
        exact External.apply_restart e hr
      · rw [upToRestart_cons [] hr]
        rfl
  | case3 cur next rest hsame ih =>
      rw [mergeTransitions, if_pos hsame, ih]
      by_cases hr : next.transitionType = .restart
      · rw [upToRestart_cons_restart _ hr, upToRestart_cons_restart _ (hsame.trans hr)]
      · have hcur : cur.transitionType ≠ .restart := hsame ▸ hr
        rw [upToRestart_cons (next :: rest) hcur, upToRestart_cons rest hr, External.applyAll_cons,
          External.applyAll_cons, External.applyAll_cons, External.apply_apply_of_type_eq e hsame]
  | case4 cur next rest hne hr =>
      rw [mergeTransitions, if_neg hne, if_pos hr, upToRestart_cons_restart _ hr]
      exact External.apply_restart e hr
  | case5 cur next rest hne hr ih =>
      rw [mergeTransitions, if_neg hne, if_neg hr, upToRestart_cons _ hr, External.applyAll_cons,
        ih, External.applyAll_cons]

/-- Handing out transitions means that every one of them was generated. -/
theorem iter_eq_ok {s : QuorumStateResolver ν} {ts : List (Transition ν)} (h : s.iter = .ok ts) :
    ∃ ys s' u, generateTransitions s = ⟨ys, s', .ok u⟩ ∧ ts = mergeTransitions ys := by
  rw [iter] at h
  rcases hg : generateTransitions s with ⟨ys, s', e | u⟩
  · simp [hg] at h
  · simp only [hg, Except.ok.injEq] at h
    exact ⟨ys, s', u, rfl, h.symm⟩

/-- Whatever prefix of the transitions was applied, the external pair is consistent. -/
theorem iter_take_consistent {s : QuorumStateResolver ν} {ts : List (Transition ν)}
    (hc : s.checkInvariants = .ok ()) (h : s.iter = .ok ts) (k : ℕ) :
    (s.external.applyAll (ts.take k)).Consistent s.leaderWanted := by
  obtain ⟨ys, s', u, hg, rfl⟩ := iter_eq_ok h
  obtain ⟨pre, hp, he⟩ := mergeTransitions_take ys s.external k
  rw [he]
  rcases eq_or_ne pre [] with rfl | hne
  · exact (checkInvariants_eq_ok_iff s).mp hc
  · exact (generateTransitions_tracks hc hg).consistent pre (hp.trans (upToRestart_prefix_self ys)) hne

/-! ## Without a failover -/

/-- The range checks of the updates, as far as they bind what is written. -/
def InRange (t : Transition ν) : Prop :=
  match t.transitionType with
  | .quorum => 0 ≤ t.num
  | .sync => t.num ≤ t.names.len
  | .restart => True

/-- The leader is kept, and what is written is in range. -/
structure KeepsLeader (s : QuorumStateResolver ν) (ys : List (Transition ν))
    (s' : QuorumStateResolver ν) : Prop where
  leader_eq : s'.leader = s.leader
  yields : ∀ t ∈ ys, t.leader = s.leader ∧ InRange t

theorem keepsLeader_composable : Gen.Composable (KeepsLeader (ν := ν)) where
  refl s := ⟨rfl, by simp⟩
  trans := by
    intro s ys s' zs s'' h₁ h₂
    refine ⟨h₂.leader_eq.trans h₁.leader_eq, ?_⟩
    intro t ht
    rcases List.mem_append.mp ht with ht | ht
    · exact h₁.yields t ht
    · rw [← h₁.leader_eq]
      exact h₂.yields t ht

/-- The range check and the adjustment keep the quorum from becoming negative. -/
theorem assignQuorum_nonneg (s : QuorumStateResolver ν) {quorum : ℤ} (h₀ : 0 ≤ quorum)
    (voters : CaseInsensitiveSet ν) (adjustQuorum : Bool) :
    0 ≤ (s.assignQuorum quorum voters none adjustQuorum).quorum := by
  simp only [assignQuorum, adjustedQuorum]
  split
  · exact le_rfl
  · split
    · exact Int.add_nonneg h₀ (le_max_right _ _)
    · exact h₀

theorem quorumUpdate_keepsLeader (quorum : ℤ) (voters : CaseInsensitiveSet ν)
    (adjustQuorum : Bool) :
    Gen.Ensures (quorumUpdate quorum voters none adjustQuorum) (KeepsLeader (ν := ν)) := by
  intro s ys s' u h
  obtain ⟨h₀, h₁⟩ := quorumUpdate_ranges h
  have hquorum : KeepsLeader s [(s.assignQuorum quorum voters none adjustQuorum).quorumTransition]
      (s.assignQuorum quorum voters none adjustQuorum) := by
    refine ⟨rfl, ?_⟩
    intro t ht
    obtain rfl := List.mem_singleton.mp ht
    exact ⟨rfl, assignQuorum_nonneg s h₀ voters adjustQuorum⟩
  have hrestart : KeepsLeader s [⟨.restart, s.leader, s.quorum, s.voters⟩] s := by
    refine ⟨rfl, ?_⟩
    intro t ht
    obtain rfl := List.mem_singleton.mp ht
    exact ⟨rfl, trivial⟩
  rcases quorumUpdate_run quorum voters none adjustQuorum s h₀ h₁ with
    ⟨-, -, hr⟩ | ⟨-, -, hr⟩ | ⟨-, hr⟩
  · rw [hr, Outcome.mk.injEq] at h
    obtain ⟨rfl, rfl, -⟩ := h
    exact keepsLeader_composable.refl s
  · rw [hr] at h
    obtain ⟨-, rfl, rfl⟩ := match_check_eq_ok h
    exact keepsLeader_composable.trans hrestart hquorum
  · rw [hr] at h
    obtain ⟨-, rfl, rfl⟩ := match_check_eq_ok h
    exact hquorum

theorem syncUpdate_keepsLeader (numsync : ℤ) (sync : CaseInsensitiveSet ν) :
    Gen.Ensures (syncUpdate numsync sync) (KeepsLeader (ν := ν)) := by
  intro s ys s' u h
  obtain ⟨h₀, h₁⟩ := syncUpdate_ranges h
  rw [syncUpdate_run numsync sync s h₀ h₁] at h
  obtain ⟨-, rfl, rfl⟩ := match_check_eq_ok h
  refine ⟨rfl, ?_⟩
  intro t ht
  obtain rfl := List.mem_singleton.mp ht
  exact ⟨rfl, h₁⟩

theorem establishes_keepsLeader : Establishes (KeepsLeader (ν := ν)) where
  toComposable := keepsLeader_composable
  quorumUpdate := quorumUpdate_keepsLeader
  syncUpdate := syncUpdate_keepsLeader
  adjustConfirmed s := by
    rw [adjustConfirmed]
    split
    · exact ⟨rfl, by simp⟩
    · exact keepsLeader_composable.refl s

/-- Without a change of leader the `try` statement only checks the invariants. -/
theorem generateTransitions_of_leader {s : QuorumStateResolver ν} (hl : s.leaderWanted = s.leader)
    (hc : s.checkInvariants = .ok ()) : generateTransitions s = settle s := by
  have htry : Gen.handle tryBody rebuildQuorum s = ⟨[], s, .ok false⟩ := by
    have hbody : tryBody s = ⟨[], s, .ok false⟩ := by
      rw [tryBody, Gen.self_bind, if_neg (not_not.mpr hl),
        Gen.bind_ok (by rw [Gen.check_run, hc])]
      rfl
    rw [Gen.handle, hbody]
  rw [generateTransitions, Gen.bind_ok htry, Gen.when, if_pos Bool.false_ne_true]
  rfl

theorem settle_of_leader {s : QuorumStateResolver ν} (hl : s.leaderWanted = s.leader) :
    settle s =
      (do
        handleNonSteadyCases
        removeGoneNodes
        addNewNodes
        handleReplicationFactorChange : Method ν) s.adjustConfirmed := by
  have hassert : (QuorumStateResolver.assertSelf fun self => self.leader = self.leaderWanted :
      Method ν) s = ⟨[], s, .ok ()⟩ := by
    rw [QuorumStateResolver.assertSelf, Gen.check_run, if_pos hl.symm]
  rw [settle, Gen.bind_ok hassert, Gen.update_bind]
  rfl

theorem mergeTransitions_sublist (ts : List (Transition ν)) :
    (mergeTransitions ts).Sublist ts := by
  induction ts using mergeTransitions.induct with
  | case1 => exact List.Sublist.refl _
  | case2 cur => exact List.Sublist.refl _
  | case3 cur next rest hsame ih =>
      rw [mergeTransitions, if_pos hsame]
      exact ih.cons cur
  | case4 cur next rest hne hr =>
      rw [mergeTransitions, if_neg hne, if_pos hr]
      exact (List.nil_sublist _).cons_cons cur
  | case5 cur next rest hne hr ih =>
      rw [mergeTransitions, if_neg hne, if_neg hr]
      exact ih.cons_cons cur

/-- Without a change of leader every transition names the same leader. -/
theorem iter_keepsLeader {s : QuorumStateResolver ν} {ts : List (Transition ν)}
    (hl : s.leaderWanted = s.leader) (hc : s.checkInvariants = .ok ()) (h : s.iter = .ok ts) :
    ∀ t ∈ ts, t.leader = s.leader ∧ InRange t := by
  obtain ⟨ys, s', u, hg, rfl⟩ := iter_eq_ok h
  rw [generateTransitions_of_leader hl hc] at hg
  intro t ht
  have hyields := (establishes_keepsLeader.settle _ _ _ _ hg).yields
  exact hyields t ((mergeTransitions_sublist ys).subset ht)

/-- Every externally visible prefix of a run satisfies both invariants, and the
merged run ends where the unmerged one stands at its first `restart`. -/
theorem every_visible_prefix_is_safe (self : QuorumStateResolver ν) (ts : List (Transition ν))
    (hc : self.checkInvariants = .ok ()) (h : self.iter = .ok ts) :
    (∀ k, (self.withExternal (self.external.applyAll (ts.take k))).checkInvariants = .ok ()) ∧
      self.external.applyAll ts =
        self.external.applyAll (upToRestart (generateTransitions self).yielded) := by
  constructor
  · intro k
    rw [checkInvariants_eq_ok_iff]
    exact iter_take_consistent hc h k
  · obtain ⟨ys, s', u, hg, rfl⟩ := iter_eq_ok h
    rw [hg]
    exact applyAll_mergeTransitions ys self.external

/-- After a failover from `a` to `b`, while `a` is gone and `d` is new. -/
theorem failover_prefixes_are_safe :
    let self := init "a" 1 (.ofList ["b", "c"]) 1 (.ofList ["c", "a"]) 0 (.ofList ["c", "d"]) 2 "b"
    let ts : List (Transition String) :=
      [⟨.quorum, "b", 1, .ofList ["c", "a"]⟩, ⟨.sync, "b", 1, .ofList ["c"]⟩,
        ⟨.quorum, "b", 0, .ofList ["c"]⟩, ⟨.sync, "b", 2, .ofList ["c", "d"]⟩,
        ⟨.quorum, "b", 1, .ofList ["c", "d"]⟩]
    self.checkInvariants = .ok () ∧ self.iter = .ok ts ∧
      ∀ k, (self.withExternal (self.external.applyAll (ts.take k))).checkInvariants = .ok () := by
  intro self ts
  have hc : self.checkInvariants = .ok () := by decide +kernel
  have h : self.iter = .ok ts := by decide +kernel
  exact ⟨hc, h, (every_visible_prefix_is_safe self ts hc h).1⟩

end QuorumStateResolver

end Metatroni
