import Metatroni.MySQL.GroupReplication

/-!
# Agreement on the winner of the recovery

Every node of a group that lost its majority computes the winner on its own, from
its local GTID set and the published sets of the others. Where every node has
published its local set and no comparison fails, the winner depends on the sets
alone: not on the order of the members, and not on the node that computes it.
-/

namespace Metatroni.MySQL

variable {ν τ : Type} [LinearOrder ν] {gtids : GtidText → Set τ} {server : GtidServer}

/-- A candidate that has all transactions of all candidates, and the smallest name of those. -/
def Wins (gtids : GtidText → Set τ) (candidates : List (ν × GtidText)) (winner : ν) : Prop :=
  ∃ w ∈ candidates, w.1 = winner ∧ (∀ c ∈ candidates, gtids c.2 ⊆ gtids w.2) ∧
    ∀ c ∈ candidates, gtids c.2 = gtids w.2 → winner ≤ c.1

/-! ## Comparisons that do not fail -/

theorem foldl_min_le (name : ν) (names : List ν) :
    ∀ n ∈ name :: names, names.foldl min name ≤ n := by
  induction names generalizing name with
  | nil => simp
  | cons first rest ih =>
      have hrest := List.forall_mem_cons.mp (ih (min name first))
      intro n hn
      rcases List.mem_cons.mp hn with rfl | hn
      · exact hrest.1.trans (min_le_left _ _)
      · rcases List.mem_cons.mp hn with rfl | hn
        · exact hrest.1.trans (min_le_right _ _)
        · exact hrest.2 n hn

section Calls

/-- An answered comparison of texts that are not empty. -/
theorem gtidRelation_of_not_fails (hfails : ∀ call, server.fails call = false) {a b : GtidText}
    (ha : a.truthy = true) (hb : b.truthy = true) (call : ℕ) :
    ((server.gtidRelation a b).run call).1 =
      match server.gtidSubset a b, server.gtidSubset b a with
      | true, true => .equal
      | true, false => .bAhead
      | false, true => .aAhead
      | false, false => .incomparable := by
  rw [GtidServer.gtidRelation, if_neg (by simp [ha, hb])]
  change ((if server.fails call = true then _ else _ : StateM ℕ GtidRelation).run
    (call + 1)).1 = _
  rw [if_neg (by simp [hfails call])]
  rfl

variable (hsub : server.IsInclusion gtids) (hfails : ∀ call, server.fails call = false)

include hsub hfails

theorem gtidRelation_bAhead_iff {a b : GtidText} (ha : a.truthy = true) (hb : b.truthy = true)
    (call : ℕ) :
    ((server.gtidRelation a b).run call).1 = .bAhead ↔ gtids a ⊂ gtids b := by
  rw [gtidRelation_of_not_fails hfails ha hb, ssubset_iff_subset_not_subset, ← hsub a b,
    ← hsub b a]
  cases server.gtidSubset a b <;> cases server.gtidSubset b a <;> decide

theorem gtidRelation_equal_iff {a b : GtidText} (ha : a.truthy = true) (hb : b.truthy = true)
    (call : ℕ) :
    ((server.gtidRelation a b).run call).1 = .equal ↔ gtids a = gtids b := by
  rw [gtidRelation_of_not_fails hfails ha hb, Set.Subset.antisymm_iff, ← hsub a b, ← hsub b a]
  cases server.gtidSubset a b <;> cases server.gtidSubset b a <;> decide

omit [LinearOrder ν] in
theorem allEqual_iff {base : GtidText} (hbase : base.truthy = true) {rest : List (ν × GtidText)}
    (hrest : ∀ c ∈ rest, c.2.truthy = true) (call : ℕ) :
    ((server.allEqual base rest).run call).1 = true ↔ ∀ c ∈ rest, gtids c.2 = gtids base := by
  induction rest generalizing call with
  | nil => exact iff_of_true rfl fun _ h => absurd h List.not_mem_nil
  | cons c rest ih =>
      obtain ⟨hc, hrest⟩ := List.forall_mem_cons.mp hrest
      rw [GtidServer.allEqual, run_bind_calls, List.forall_mem_cons, ← ih hrest]
      have hequal := gtidRelation_equal_iff hsub hfails hbase hc call
      by_cases heq : ((server.gtidRelation base c.2).run call).1 = .equal
      · rw [if_pos heq, and_iff_right (hequal.mp heq).symm]
      · rw [if_neg heq]
        exact iff_of_false Bool.false_ne_true fun h => heq (hequal.mpr h.1.symm)

theorem dominated_iff {name : ν} {gtid : GtidText} (hgtid : gtid.truthy = true)
    {others : List (ν × GtidText)} (hothers : ∀ c ∈ others, c.2.truthy = true) (call : ℕ) :
    ((server.dominated name gtid others).run call).1 = true ↔
      ∃ c ∈ others, name ≠ c.1 ∧ gtids gtid ⊂ gtids c.2 := by
  induction others generalizing call with
  | nil => exact iff_of_false nofun fun ⟨_, h, _⟩ => absurd h List.not_mem_nil
  | cons c others ih =>
      obtain ⟨hc, hothers⟩ := List.forall_mem_cons.mp hothers
      rw [GtidServer.dominated]
      simp only [List.mem_cons, exists_eq_or_imp]
      by_cases hname : name = c.1
      · rw [if_pos hname, ih hothers, or_iff_right fun h => h.1 hname]
      · rw [if_neg hname, run_bind_calls, and_iff_right hname,
          ← gtidRelation_bAhead_iff hsub hfails hgtid hc call]
        by_cases hahead : ((server.gtidRelation gtid c.2).run call).1 = .bAhead
        · rw [if_pos hahead]
          exact iff_of_true rfl (.inl hahead)
        · rw [if_neg hahead, or_iff_right hahead]
          exact ih hothers _

/-- The undominated candidates are those that no other one is strictly ahead of. -/
theorem mem_undominated_iff {candidates : List (ν × GtidText)}
    (hcandidates : ∀ c ∈ candidates, c.2.truthy = true) {rest : List (ν × GtidText)}
    (hrest : ∀ c ∈ rest, c.2.truthy = true) (call : ℕ) (c : ν × GtidText) :
    c ∈ ((server.undominated candidates rest).run call).1 ↔
      c ∈ rest ∧ ¬∃ c' ∈ candidates, c.1 ≠ c'.1 ∧ gtids c.2 ⊂ gtids c'.2 := by
  induction rest generalizing call with
  | nil => exact iff_of_false List.not_mem_nil fun h => List.not_mem_nil h.1
  | cons d rest ih =>
      obtain ⟨hd, hrest⟩ := List.forall_mem_cons.mp hrest
      have hdominated := @dominated_iff _ _ _ _ _ hsub hfails d.1 d.2 hd _ hcandidates call
      rw [GtidServer.undominated, run_bind_calls, run_bind_calls]
      have hih := ih hrest ((server.dominated d.1 d.2 candidates).run call).2
      by_cases hdom : ((server.dominated d.1 d.2 candidates).run call).1 = true
      · rw [hdom]
        refine hih.trans ⟨fun h => ⟨List.mem_cons_of_mem _ h.1, h.2⟩, fun h => ⟨?_, h.2⟩⟩
        rcases List.mem_cons.mp h.1 with rfl | hc
        · exact absurd (hdominated.mp hdom) h.2
        · exact hc
      · rw [Bool.eq_false_iff.mpr hdom]
        refine List.mem_cons.trans ?_
        rw [hih, List.mem_cons, or_and_right]
        refine or_congr_left ⟨?_, And.left⟩
        rintro rfl
        exact ⟨rfl, fun h => hdom (hdominated.mpr h)⟩

/-- The choice among the maximal candidates: they have to be equal, and the smallest name wins. -/
theorem chooseMaximal_eq_some_iff {maximal : List (ν × GtidText)}
    (hmaximal : ∀ m ∈ maximal, m.2.truthy = true) (call : ℕ) (winner : ν) :
    ((server.chooseMaximal maximal).run call).1 = some winner ↔
      ∃ w ∈ maximal, w.1 = winner ∧ (∀ m ∈ maximal, gtids m.2 = gtids w.2) ∧
        ∀ m ∈ maximal, winner ≤ m.1 := by
  match maximal with
  | [] =>
      refine iff_of_false (Option.some_ne_none winner).symm ?_
      rintro ⟨_, h, _⟩
      exact List.not_mem_nil h
  | [m] =>
      constructor
      · intro h
        obtain rfl : m.1 = winner := Option.some.inj h
        exact ⟨m, by simp, rfl, by simp, by simp⟩
      · rintro ⟨w, hw, rfl, -⟩
        rw [List.mem_singleton.mp hw]
        rfl
  | base :: next :: rest =>
      obtain ⟨hbase, hrest⟩ := List.forall_mem_cons.mp hmaximal
      have hall := allEqual_iff hsub hfails hbase hrest call
      have hle := foldl_min_le base.1 ((next :: rest).map Prod.fst)
      rw [← List.map_cons] at hle
      rw [GtidServer.chooseMaximal, run_bind_calls]
      by_cases heq : ((server.allEqual base.2 (next :: rest)).run call).1 = true
      · rw [heq, if_pos rfl]
        have hsame : ∀ m ∈ base :: next :: rest, gtids m.2 = gtids base.2 :=
          List.forall_mem_cons.mpr ⟨rfl, hall.mp heq⟩
        have hmem := foldl_min_mem base.1 ((next :: rest).map Prod.fst)
        rw [← List.map_cons] at hmem
        obtain ⟨w, hw, hname⟩ := List.mem_map.mp hmem
        constructor
        · intro h
          obtain rfl := Option.some.inj h
          exact ⟨w, hw, hname, fun m hm => (hsame m hm).trans (hsame w hw).symm,
            fun m hm => hle _ (List.mem_map_of_mem hm)⟩
        · rintro ⟨w', hw', rfl, -, hmin⟩
          have := (hname ▸ hmin w hw).antisymm (hle _ (List.mem_map_of_mem hw'))
          exact congrArg some this.symm
      · rw [if_neg heq]
        refine iff_of_false (Option.some_ne_none winner).symm ?_
        rintro ⟨w, hw, -, hsame, -⟩
        refine heq (hall.mpr fun c hc => ?_)
        exact (hsame c (List.mem_cons_of_mem _ hc)).trans (hsame base List.mem_cons_self).symm

/-- The election finds the candidate that wins, and only that one. -/
theorem electWinner_eq_some_iff {candidates : List (ν × GtidText)}
    (hcandidates : ∀ c ∈ candidates, c.2.truthy = true)
    (hinj : ∀ c ∈ candidates, ∀ c' ∈ candidates, c.1 = c'.1 → c = c') (call : ℕ) (winner : ν) :
    ((server.electWinner candidates).run call).1 = some winner ↔
      Wins gtids candidates winner := by
  match candidates with
  | [] => exact iff_of_false nofun fun ⟨_, h, _⟩ => List.not_mem_nil h
  | [c] =>
      constructor
      · intro h
        obtain rfl : c.1 = winner := Option.some.inj h
        exact ⟨c, by simp, rfl, by simp, by simp⟩
      · rintro ⟨w, hw, rfl, -⟩
        rw [List.mem_singleton.mp hw]
        rfl
  | c₁ :: c₂ :: rest =>
      rw [GtidServer.electWinner, run_bind_calls]
      have hmem : ∀ c, c ∈ ((server.mgrMaximalCandidates (c₁ :: c₂ :: rest)).run call).1 ↔ _ :=
        mem_undominated_iff hsub hfails hcandidates hcandidates call
      have habove : ∀ c ∈ c₁ :: c₂ :: rest, _ := fun c hc =>
        exists_maximal_above hsub (c₁ :: c₂ :: rest) call hc
      generalize c₁ :: c₂ :: rest = candidates at *
      rw [chooseMaximal_eq_some_iff hsub hfails fun m hm => hcandidates m ((hmem m).mp hm).1]
      constructor
      · rintro ⟨w, hw, rfl, hsame, hmin⟩
        have htop : ∀ c ∈ candidates, gtids c.2 ⊆ gtids w.2 := by
          intro c hc
          obtain ⟨m, hm, hle⟩ := habove c hc
          exact hle.trans (hsame m hm).subset
        refine ⟨w, ((hmem w).mp hw).1, rfl, htop, fun c hc heq => hmin c ((hmem c).mpr ⟨hc, ?_⟩)⟩
        rintro ⟨c', hc', -, hlt⟩
        exact hlt.2 ((htop c' hc').trans heq.symm.subset)
      · rintro ⟨w, hw, rfl, htop, hmin⟩
        have hsame : ∀ m ∈ ((server.mgrMaximalCandidates candidates).run call).1,
            gtids m.2 = gtids w.2 := by
          intro m hm
          obtain ⟨hmc, hundominated⟩ := (hmem m).mp hm
          by_contra hne
          refine hundominated ⟨w, hw, fun hname => hne ?_, (htop m hmc).ssubset_of_ne hne⟩
          rw [hinj m hmc w hw hname]
        refine ⟨w, (hmem w).mpr ⟨hw, ?_⟩, rfl, hsame,
          fun m hm => hmin m ((hmem m).mp hm).1 (hsame m hm)⟩
        rintro ⟨c', hc', -, hlt⟩
        exact hlt.2 (htop c' hc')

end Calls

/-! ## The winner does not depend on the node -/

/-- Who wins depends on the names and the sets of the candidates alone. -/
theorem Wins.of_sameSets {candidates candidates' : List (ν × GtidText)} {winner : ν}
    (hto : ∀ c ∈ candidates, ∃ c' ∈ candidates', c'.1 = c.1 ∧ gtids c'.2 = gtids c.2)
    (hfrom : ∀ c' ∈ candidates', ∃ c ∈ candidates, c.1 = c'.1 ∧ gtids c.2 = gtids c'.2)
    (h : Wins gtids candidates winner) : Wins gtids candidates' winner := by
  obtain ⟨w, hw, rfl, htop, hmin⟩ := h
  obtain ⟨w', hw', hname, hset⟩ := hto w hw
  refine ⟨w', hw', hname, fun c' hc' => ?_, fun c' hc' heq => ?_⟩
  · obtain ⟨c, hc, -, hcset⟩ := hfrom c' hc'
    rw [← hcset, hset]
    exact htop c hc
  · obtain ⟨c, hc, hcname, hcset⟩ := hfrom c' hc'
    rw [← hcname]
    exact hmin c hc (hcset.trans (heq.trans hset))

/-- The node is in its member list, and has published its local set. -/
def MgrNode.IsPublished (gtids : GtidText → Set τ) (node : MgrNode ν) : Prop :=
  ∃ m ∈ node.members, m.name = node.name ∧ m.gtid.truthy = node.localGtid.truthy ∧
    gtids m.gtid = gtids node.localGtid

variable {node : MgrNode ν}

theorem truthy_of_mem_mgrGtidCandidates {self : ν} {localGtid : GtidText}
    {members : List (MgrMember ν)} :
    ∀ c ∈ mgrGtidCandidates self localGtid members, c.2.truthy = true := by
  intro c hc
  rcases mem_mgrGtidCandidates.mp hc with ⟨ht, rfl⟩ | ⟨m, -, -, ht, rfl⟩
  · exact ht
  · exact ht

/-- The candidates of a published node are the published sets. -/
theorem sameSets_mgrGtidCandidates (hpublished : node.IsPublished gtids)
    (hnames : (node.members.map (·.name)).Nodup) :
    (∀ c ∈ mgrGtidCandidates node.name node.localGtid node.members,
      ∃ m ∈ node.members, m.gtid.truthy = true ∧ m.name = c.1 ∧ gtids m.gtid = gtids c.2) ∧
    ∀ m ∈ node.members, m.gtid.truthy = true →
      ∃ c ∈ mgrGtidCandidates node.name node.localGtid node.members,
        c.1 = m.name ∧ gtids c.2 = gtids m.gtid := by
  obtain ⟨own, hown, hname, htruthy, hset⟩ := hpublished
  constructor
  · intro c hc
    rcases mem_mgrGtidCandidates.mp hc with ⟨ht, rfl⟩ | ⟨m, hm, -, ht, rfl⟩
    · exact ⟨own, hown, htruthy.trans ht, hname, hset⟩
    · exact ⟨m, hm, ht, rfl, rfl⟩
  · intro m hm ht
    by_cases hself : m.name = node.name
    · obtain rfl : m = own := List.inj_on_of_nodup_map hnames hm hown (hself.trans hname.symm)
      exact ⟨_, mem_mgrGtidCandidates.mpr (Or.inl ⟨htruthy.symm.trans ht, rfl⟩), hname.symm,
        hset.symm⟩
    · exact ⟨_, mem_mgrGtidCandidates.mpr (Or.inr ⟨m, hm, hself, ht, rfl⟩), rfl, rfl⟩

theorem Wins.of_perm {node' : MgrNode ν} (hpublished : node.IsPublished gtids)
    (hpublished' : node'.IsPublished gtids) (hnames : (node.members.map (·.name)).Nodup)
    (hperm : node.members.Perm node'.members) {winner : ν}
    (h : Wins gtids (mgrGtidCandidates node.name node.localGtid node.members) winner) :
    Wins gtids (mgrGtidCandidates node'.name node'.localGtid node'.members) winner := by
  obtain ⟨hto, hfrom⟩ := sameSets_mgrGtidCandidates hpublished hnames
  obtain ⟨hto', hfrom'⟩ := sameSets_mgrGtidCandidates hpublished'
    ((hperm.map (·.name)).nodup_iff.mp hnames)
  refine h.of_sameSets (fun c hc => ?_) (fun c' hc' => ?_)
  · obtain ⟨m, hm, ht, hname, hset⟩ := hto c hc
    obtain ⟨c', hc', hname', hset'⟩ := hfrom' m (hperm.mem_iff.mp hm) ht
    exact ⟨c', hc', hname'.trans hname, hset'.trans hset⟩
  · obtain ⟨m, hm, ht, hname, hset⟩ := hto' c' hc'
    obtain ⟨c, hc, hname', hset'⟩ := hfrom m (hperm.mem_iff.mpr hm) ht
    exact ⟨c, hc, hname'.trans hname, hset'.trans hset⟩

/-- The winner that a node computes is the winner among its candidates. -/
theorem selectMgrBootstrapWinner_eq_some_iff (hsub : node.server.IsInclusion gtids)
    (hfails : ∀ call, node.server.fails call = false)
    (hnames : (node.members.map (·.name)).Nodup) (call : ℕ) (winner : ν) :
    ((selectMgrBootstrapWinner node.server node.name node.localGtid node.members).run call).1 =
        some winner ↔
      Wins gtids (mgrGtidCandidates node.name node.localGtid node.members) winner :=
  electWinner_eq_some_iff hsub hfails truthy_of_mem_mgrGtidCandidates
    (fun _ hc _ hc' => mgrGtidCandidates_inj hnames hc hc') call winner

/-- Agreement: two nodes that see the same members in any order, have published
their local sets and make no failing comparison compute the same winner, or both none. -/
theorem selectMgrBootstrapWinner_agrees (gtids : GtidText → Set τ) (a b : MgrNode ν)
    (callA callB : ℕ) (hsubA : a.server.IsInclusion gtids) (hsubB : b.server.IsInclusion gtids)
    (hfailsA : ∀ call, a.server.fails call = false) (hfailsB : ∀ call, b.server.fails call = false)
    (hnames : (a.members.map (·.name)).Nodup) (hperm : a.members.Perm b.members)
    (hpublishedA : a.IsPublished gtids) (hpublishedB : b.IsPublished gtids) :
    ((selectMgrBootstrapWinner a.server a.name a.localGtid a.members).run callA).1 =
      ((selectMgrBootstrapWinner b.server b.name b.localGtid b.members).run callB).1 := by
  have hnamesB : (b.members.map (·.name)).Nodup := (hperm.map (·.name)).nodup_iff.mp hnames
  refine Option.ext fun winner => ?_
  rw [selectMgrBootstrapWinner_eq_some_iff hsubA hfailsA hnames,
    selectMgrBootstrapWinner_eq_some_iff hsubB hfailsB hnamesB]
  exact ⟨Wins.of_perm hpublishedA hpublishedB hnames hperm,
    Wins.of_perm hpublishedB hpublishedA hnamesB hperm.symm⟩

/-- Three nodes where `a` and `c` have everything: `c` and `b` list the members
in different orders, and both find `a`. -/
theorem selectMgrBootstrapWinner_agrees_threeNodes :
    let server : GtidServer := ⟨fun a b => a.words.all (· ∈ b.words), fun _ => false⟩
    let memberA : MgrMember String := ⟨"a", some ⟨["u:1", "u:2"]⟩, none, none, false, true⟩
    let memberB : MgrMember String := ⟨"b", some ⟨["u:1"]⟩, none, none, false, true⟩
    let memberC : MgrMember String := ⟨"c", some ⟨["u:2", "u:1"]⟩, none, none, false, true⟩
    let b : MgrNode String :=
      { server := server
        name := "b"
        localGtid := ⟨["u:1"]⟩
        members := [memberA, memberB, memberC]
        hasLock := false
        bootstrapSucceeds := true
        rejoinSucceeds := fun _ => false }
    let c : MgrNode String :=
      { server := server
        name := "c"
        localGtid := ⟨["u:1", "u:2"]⟩
        members := [memberC, memberB, memberA]
        hasLock := false
        bootstrapSucceeds := true
        rejoinSucceeds := fun _ => false }
    ((selectMgrBootstrapWinner b.server b.name b.localGtid b.members).run 0).1 = some "a" ∧
      ((selectMgrBootstrapWinner c.server c.name c.localGtid c.members).run 0).1 = some "a" := by
  intro server memberA memberB memberC b c
  have hsub : server.IsInclusion fun gtid => {t | t ∈ gtid.words} := by
    intro a b
    simp [server, Set.subset_def]
  have hb : ((selectMgrBootstrapWinner b.server b.name b.localGtid b.members).run 0).1 =
      some "a" := by decide +kernel
  have hpublishedB : b.IsPublished fun gtid => {t | t ∈ gtid.words} :=
    ⟨memberB, by simp [b], rfl, rfl, rfl⟩
  have hpublishedC : c.IsPublished fun gtid => {t | t ∈ gtid.words} := by
    refine ⟨memberC, by simp [c], rfl, rfl, ?_⟩
    ext t
    simp [memberC, c, MgrMember.gtid, or_comm]
  have hperm : b.members.Perm c.members :=
    (List.reverse_perm c.members).symm.trans (List.Perm.refl _) |>.symm
  exact ⟨hb, (selectMgrBootstrapWinner_agrees _ b c 0 0 hsub hsub (fun _ => rfl) (fun _ => rfl)
    (by decide) hperm hpublishedB hpublishedC).symm.trans hb⟩

end Metatroni.MySQL
