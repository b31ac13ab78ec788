import Metatroni.Ha.LeaderRace
import Mathlib.Order.CompletePartialOrder
import Mathlib.Order.Preorder.Finite
import Mathlib.Data.Set.Finite.List

/-!
# Recovery of a MySQL group after the loss of its majority

Every member publishes its `gtid_executed`. The nodes elect the one whose GTID
set contains all the others, and only that node may bootstrap a new group. The
sets are compared by the server, one call for each comparison; a call may fail
on its own, and then counts as `incomparable`.

## Implementation notes

The comparison calls are numbered in the order in which they are made, and a
predicate on these numbers says which of them fail. A loop that compares the
same pair twice can therefore see two different answers.

A GTID set is a text in the source. The code collapses the whitespace wherever
it reads one, so a text is kept as the list of its words.
-/

namespace Metatroni.MySQL

/-- A GTID set as text, by its words. -/
structure GtidText where
  words : List String
  deriving DecidableEq, Repr

/-- The truth value of a collapsed text. -/
def GtidText.truthy (gtid : GtidText) : Bool := gtid.words ≠ []

/-- What the recovery reads of a member in the DCS; a text is `none` where the
field is missing or empty. -/
structure MgrMember (ν : Type) where
  name : ν
  gtidExecuted : Option GtidText
  binlogGtidSet : Option GtidText
  binlogGtidExecuted : Option GtidText
  /-- The role in the member data is `mgr_primary`. -/
  isMgrPrimary : Bool
  hasConnUrl : Bool

/-- The comparisons that a server makes: the answers of `GTID_SUBSET`, and
which of the numbered calls fail. -/
structure GtidServer where
  gtidSubset : GtidText → GtidText → Bool
  fails : ℕ → Bool

variable {ν : Type}

/-- `_member_gtid`. -/
def MgrMember.gtid (m : MgrMember ν) : GtidText :=
  (m.gtidExecuted <|> m.binlogGtidSet <|> m.binlogGtidExecuted).getD ⟨[]⟩

namespace GtidServer

/-- `gtid_relation`. -/
def gtidRelation (server : GtidServer) (a b : GtidText) : StateM ℕ GtidRelation := do
  if !a.truthy || !b.truthy then
    pure .incomparable
  else
    let call ← get
    set (call + 1)
    if server.fails call then
      pure .incomparable
    else
      pure <| match server.gtidSubset a b, server.gtidSubset b a with
        | true, true => .equal
        | true, false => .bAhead
        | false, true => .aAhead
        | false, false => .incomparable

variable [LinearOrder ν]

/-- The inner loop of `_mgr_maximal_candidates`. -/
def dominated (server : GtidServer) (nameA : ν) (gtidA : GtidText) :
    List (ν × GtidText) → StateM ℕ Bool
  | [] => pure false
  | (nameB, gtidB) :: rest => do
      if nameA = nameB then
        server.dominated nameA gtidA rest
      else if (← server.gtidRelation gtidA gtidB) = .bAhead then
        pure true
      else
        server.dominated nameA gtidA rest

/-- The outer loop of `_mgr_maximal_candidates`. -/
def undominated (server : GtidServer) (candidates : List (ν × GtidText)) :
    List (ν × GtidText) → StateM ℕ (List (ν × GtidText))
  | [] => pure []
  | (name, gtid) :: rest => do
      let isDominated ← server.dominated name gtid candidates
      let maximal ← server.undominated candidates rest
      pure (if isDominated then maximal else (name, gtid) :: maximal)

/-- `_mgr_maximal_candidates`. -/
def mgrMaximalCandidates (server : GtidServer) (candidates : List (ν × GtidText)) :
    StateM ℕ (List (ν × GtidText)) :=
  server.undominated candidates candidates

/-- The loop that requires all maximal sets to be equal to the first one. -/
def allEqual (server : GtidServer) (base : GtidText) : List (ν × GtidText) → StateM ℕ Bool
  | [] => pure true
  | (_, gtid) :: rest => do
      if (← server.gtidRelation base gtid) = .equal then server.allEqual base rest
      else pure false

/-- The choice of `select_mgr_bootstrap_winner` among the maximal candidates:
several of them have to be equal, and then the smallest name wins. -/
def chooseMaximal (server : GtidServer) : List (ν × GtidText) → StateM ℕ (Option ν)
  | [] => pure none
  | [(name, _)] => pure (some name)
  | (baseName, baseGtid) :: next :: rest => do
      if ← server.allEqual baseGtid (next :: rest) then
        pure (some (((next :: rest).map Prod.fst).foldl min baseName))
      else pure none

/-- The choice of `select_mgr_bootstrap_winner` among its candidates. -/
def electWinner (server : GtidServer) (candidates : List (ν × GtidText)) :
    StateM ℕ (Option ν) := do
  match candidates with
  | [] => pure none
  | [(name, _)] => pure (some name)
  | _ :: _ :: _ => server.chooseMaximal (← server.mgrMaximalCandidates candidates)

end GtidServer

section Election

variable [LinearOrder ν]

/-- `_mgr_gtid_candidates` on the node `self`. A member always has a name, the last
part of its key in the DCS, so `not name` is never true. -/
def mgrGtidCandidates (self : ν) (localGtid : GtidText) (members : List (MgrMember ν)) :
    List (ν × GtidText) :=
  (if localGtid.truthy then [(self, localGtid)] else []) ++
    (members.filter fun m => m.name ≠ self && m.gtid.truthy).map fun m => (m.name, m.gtid)

/-- `select_mgr_bootstrap_winner`. -/
def selectMgrBootstrapWinner (server : GtidServer) (self : ν) (localGtid : GtidText)
    (members : List (MgrMember ν)) : StateM ℕ (Option ν) :=
  server.electWinner (mgrGtidCandidates self localGtid members)

/-- `describe_mgr_gtid_fork`. -/
def describeMgrGtidFork (server : GtidServer) (self : ν) (localGtid : GtidText)
    (members : List (MgrMember ν)) : StateM ℕ (List (ν × GtidText)) := do
  let candidates := mgrGtidCandidates self localGtid members
  if candidates.length < 2 then
    pure []
  else
    let maximal ← server.mgrMaximalCandidates candidates
    match maximal with
    | [] => pure []
    | [_] => pure []
    | (_, baseGtid) :: rest =>
        if ← server.allEqual baseGtid rest then pure [] else pure maximal

end Election

/-! ## The handler -/

/-- The calls of `_handle_mgr_majority_loss` that change something. -/
inductive MgrAction (ν : Type)
  | bootstrapMgrGroup
  | rejoinMgrGroup (primary : ν)
  | setRoleMgrPrimary
  | setRoleMgrSecondary
  | setReadWrite
  | setReadOnly
  | clearMgrGtidFork
  | recordMgrGtidFork (fork : List (ν × GtidText))
  deriving DecidableEq

/-- The messages of `_handle_mgr_majority_loss`. -/
inductive MgrMessage (ν : Type)
  /-- `'bootstrapped MGR group after majority loss'` -/
  | bootstrapped
  /-- `'rejoining MGR group after majority loss'` -/
  | rejoining
  /-- `'mgr_gtid_fork'` -/
  | gtidFork
  /-- `'mgr_yield_lock'` -/
  | yieldLock
  /-- `'waiting for MGR bootstrap winner (...)'` -/
  | waitingForWinner (winner : ν)
  /-- `'elected MGR bootstrap winner; waiting for leader lock'` -/
  | waitingForLock
  deriving DecidableEq

/-- A node that lost the majority of its group. -/
structure MgrNode (ν : Type) where
  server : GtidServer
  name : ν
  /-- `get_executed_gtid()`. -/
  localGtid : GtidText
  members : List (MgrMember ν)
  hasLock : Bool
  bootstrapSucceeds : Bool
  rejoinSucceeds : MgrMember ν → Bool

namespace MgrNode

variable [LinearOrder ν]

/-- `peer_gtids`. -/
def peerGtids (node : MgrNode ν) : List GtidText :=
  ((node.members.filter fun m => m.name ≠ node.name).map (·.gtid)).filter (·.truthy)

/-- `_find_mgr_primary_member`. -/
def findMgrPrimaryMember (node : MgrNode ν) : Option (MgrMember ν) :=
  node.members.find? fun m => m.name ≠ node.name && m.isMgrPrimary && m.hasConnUrl

/-- `_try_rejoin_mgr`: what it does, and its message if it succeeds. -/
def tryRejoinMgr (node : MgrNode ν) : List (MgrAction ν) × Option (MgrMessage ν) :=
  match node.findMgrPrimaryMember with
  | none => ([], none)
  | some primary =>
      if node.rejoinSucceeds primary then
        ([.rejoinMgrGroup primary.name, .setRoleMgrSecondary, .setReadOnly], some .rejoining)
      else ([.rejoinMgrGroup primary.name], none)

/-- The bootstrap at the end of `_handle_mgr_majority_loss`. -/
def bootstrap (node : MgrNode ν) : List (MgrAction ν) × Option (MgrMessage ν) :=
  if node.bootstrapSucceeds then
    ([.bootstrapMgrGroup, .setRoleMgrPrimary, .setReadWrite], some .bootstrapped)
  else ([.bootstrapMgrGroup], none)

/-- `_handle_mgr_majority_loss` without a local GTID set. -/
def handleEmptyGtid (node : MgrNode ν) : List (MgrAction ν) × Option (MgrMessage ν) :=
  -- the lock holder may form the first group
  if node.hasLock && node.peerGtids = [] then
    match node.bootstrap with
    | (actions, some message) => (actions ++ [.clearMgrGtidFork], some message)
    | (actions, none) => (actions, none)
  else node.tryRejoinMgr

/-- `_handle_mgr_majority_loss` on the elected winner. -/
def handleWinner (node : MgrNode ν) : List (MgrAction ν) × Option (MgrMessage ν) :=
  if !node.hasLock then
    match node.tryRejoinMgr with
    | (actions, some message) => (actions, some message)
    | (actions, none) => (actions, some .waitingForLock)
  else
    -- another member may already advertise a live primary
    match node.tryRejoinMgr with
    | (actions, some _) => (actions, some .yieldLock)
    | (actions, none) => (actions ++ node.bootstrap.1, node.bootstrap.2)

/-- `_handle_mgr_majority_loss` on a node that is not the elected winner. -/
def handleLoser (node : MgrNode ν) (winner : ν) : List (MgrAction ν) × Option (MgrMessage ν) :=
  if node.hasLock then ([], some .yieldLock)
  else
    match node.tryRejoinMgr with
    | (actions, some message) => (actions, some message)
    | (actions, none) => (actions, some (.waitingForWinner winner))

/-- `_handle_mgr_majority_loss`; the comparison calls are numbered from `call`. -/
def handleMgrMajorityLoss (node : MgrNode ν) (call : ℕ) :
    List (MgrAction ν) × Option (MgrMessage ν) :=
  if !node.localGtid.truthy then node.handleEmptyGtid
  else
    let (winner, call) :=
      (selectMgrBootstrapWinner node.server node.name node.localGtid node.members).run call
    match winner with
    | none =>
        let fork :=
          ((describeMgrGtidFork node.server node.name node.localGtid node.members).run call).1
        if fork = [] then ([], none)
        else ([.recordMgrGtidFork fork, .setReadOnly], some .gtidFork)
    | some winner =>
        let (actions, message) :=
          if winner ≠ node.name then node.handleLoser winner else node.handleWinner
        (.clearMgrGtidFork :: actions, message)

end MgrNode

/-! ## Comparisons speak about sets -/

/-- Running a sequence of calls: the second part starts where the first stopped. -/
theorem run_bind_calls {α β : Type} (x : StateM ℕ α) (f : α → StateM ℕ β) (call : ℕ) :
    (x >>= f).run call = (f (x.run call).1).run (x.run call).2 := rfl

section Domination

variable {τ : Type} {gtids : GtidText → Set τ} {server : GtidServer}

/-- `GTID_SUBSET` is set inclusion. -/
def GtidServer.IsInclusion (server : GtidServer) (gtids : GtidText → Set τ) : Prop :=
  ∀ a b, server.gtidSubset a b = true ↔ gtids a ⊆ gtids b

/-- Only an answered call reports an order or an equality. -/
theorem gtidRelation_cases (server : GtidServer) (a b : GtidText) (call : ℕ) :
    ((server.gtidRelation a b).run call).1 = .incomparable ∨
      ((server.gtidRelation a b).run call).1 =
        match server.gtidSubset a b, server.gtidSubset b a with
        | true, true => .equal
        | true, false => .bAhead
        | false, true => .aAhead
        | false, false => .incomparable := by
  rw [GtidServer.gtidRelation]
  by_cases h : (!a.truthy || !b.truthy) = true
  · rw [if_pos h]
    exact Or.inl rfl
  · rw [if_neg h]
    by_cases hf : server.fails call = true
    · left
      change ((if server.fails call = true then _ else _ : StateM ℕ GtidRelation).run
        (call + 1)).1 = _
      rw [if_pos hf]
      rfl
    · right
      change ((if server.fails call = true then _ else _ : StateM ℕ GtidRelation).run
        (call + 1)).1 = _
      rw [if_neg hf]
      rfl

theorem gtidRelation_bAhead (hsub : server.IsInclusion gtids) {a b : GtidText} {call : ℕ}
    (h : ((server.gtidRelation a b).run call).1 = .bAhead) : gtids a ⊂ gtids b := by
  rcases gtidRelation_cases server a b call with hc | hc
  · rw [hc] at h
    simp at h
  · rw [hc] at h
    split at h
    · simp at h
    · next hab hba =>
        have hnot : ¬ gtids b ⊆ gtids a := by
          rw [← hsub b a, hba]
          simp
        exact ⟨(hsub a b).mp hab, hnot⟩
    · simp at h
    · simp at h

theorem gtidRelation_equal (hsub : server.IsInclusion gtids) {a b : GtidText} {call : ℕ}
    (h : ((server.gtidRelation a b).run call).1 = .equal) : gtids a = gtids b := by
  rcases gtidRelation_cases server a b call with hc | hc
  · rw [hc] at h
    simp at h
  · rw [hc] at h
    split at h
    · next hab hba => exact ((hsub a b).mp hab).antisymm ((hsub b a).mp hba)
    · simp at h
    · simp at h
    · simp at h

theorem allEqual_spec (hsub : server.IsInclusion gtids) {base : GtidText}
    (rest : List (ν × GtidText)) {call : ℕ}
    (h : ((server.allEqual base rest).run call).1 = true) :
    ∀ c ∈ rest, gtids c.2 = gtids base := by
  induction rest generalizing call with
  | nil => simp
  | cons c rest ih =>
      rw [GtidServer.allEqual, run_bind_calls] at h
      by_cases hr : ((server.gtidRelation base c.2).run call).1 = .equal
      · rw [if_pos hr] at h
        intro c' hc'
        rcases List.mem_cons.mp hc' with rfl | hc'
        · exact (gtidRelation_equal hsub hr).symm
        · exact ih h c' hc'
      · rw [if_neg hr] at h
        simp at h

variable [LinearOrder ν]

/-- A candidate is called dominated only if another one has a strictly larger set. -/
theorem dominated_spec (hsub : server.IsInclusion gtids) {name : ν} {gtid : GtidText}
    (others : List (ν × GtidText)) {call : ℕ}
    (h : ((server.dominated name gtid others).run call).1 = true) :
    ∃ c ∈ others, gtids gtid ⊂ gtids c.2 := by
  induction others generalizing call with
  | nil => simp [GtidServer.dominated] at h
  | cons c rest ih =>
      rw [GtidServer.dominated] at h
      by_cases hname : name = c.1
      · rw [if_pos hname] at h
        obtain ⟨c', hc', hlt⟩ := ih h
        exact ⟨c', List.mem_cons_of_mem _ hc', hlt⟩
      · rw [if_neg hname, run_bind_calls] at h
        by_cases hr : ((server.gtidRelation gtid c.2).run call).1 = .bAhead
        · exact ⟨c, List.mem_cons_self, gtidRelation_bAhead hsub hr⟩
        · rw [if_neg hr] at h
          obtain ⟨c', hc', hlt⟩ := ih h
          exact ⟨c', List.mem_cons_of_mem _ hc', hlt⟩

/-- The undominated candidates are candidates, and every other one has a
candidate with a strictly larger set. -/
theorem undominated_spec (hsub : server.IsInclusion gtids) (candidates rest : List (ν × GtidText))
    (call : ℕ) :
    (∀ c ∈ ((server.undominated candidates rest).run call).1, c ∈ rest) ∧
      ∀ c ∈ rest, c ∈ ((server.undominated candidates rest).run call).1 ∨
        ∃ c' ∈ candidates, gtids c.2 ⊂ gtids c'.2 := by
  induction rest generalizing call with
  | nil => exact ⟨fun _ hc => hc, fun _ hc => absurd hc List.not_mem_nil⟩
  | cons c rest ih =>
      rw [GtidServer.undominated, run_bind_calls, run_bind_calls]
      have hrest := ih ((server.dominated c.1 c.2 candidates).run call).2
      cases hd : ((server.dominated c.1 c.2 candidates).run call).1 with
      | true =>
          refine ⟨fun c' hc' => List.mem_cons_of_mem _ (hrest.1 c' hc'), ?_⟩
          intro c' hc'
          rcases List.mem_cons.mp hc' with rfl | hc'
          · exact Or.inr (dominated_spec hsub candidates hd)
          · exact hrest.2 c' hc'
      | false =>
          constructor
          · intro c' hc'
            rcases List.mem_cons.mp hc' with rfl | hc'
            · exact List.mem_cons_self
            · exact List.mem_cons_of_mem _ (hrest.1 c' hc')
          · intro c' hc'
            rcases List.mem_cons.mp hc' with rfl | hc'
            · exact Or.inl List.mem_cons_self
            · exact (hrest.2 c' hc').imp_left (List.mem_cons_of_mem _)

/-- Following strictly larger sets leads to an undominated candidate. -/
theorem exists_maximal_above (hsub : server.IsInclusion gtids) (candidates : List (ν × GtidText))
    (call : ℕ) {c : ν × GtidText} (hc : c ∈ candidates) :
    ∃ m ∈ ((server.mgrMaximalCandidates candidates).run call).1, gtids c.2 ⊆ gtids m.2 := by
  let above : Set (ν × GtidText) := {c' | c' ∈ candidates ∧ gtids c.2 ⊆ gtids c'.2}
  have hfin : above.Finite := (List.finite_toSet candidates).subset fun _ h => h.1
  obtain ⟨m, hm, hmax⟩ := hfin.exists_maximalFor (fun c' => gtids c'.2) _ ⟨c, hc, subset_rfl⟩
  refine ⟨m, ?_, hm.2⟩
  rcases (undominated_spec hsub candidates candidates call).2 m hm.1 with h | ⟨c', hc', hlt⟩
  · exact h
  · exact absurd (hmax ⟨hc', hm.2.trans hlt.1⟩ hlt.1) hlt.2

theorem foldl_min_mem (name : ν) (names : List ν) : names.foldl min name ∈ name :: names := by
  induction names generalizing name with
  | nil => simp
  | cons n rest ih =>
      rw [List.foldl_cons]
      rcases List.mem_cons.mp (ih (min name n)) with h | h
      · rcases min_choice name n with hm | hm
        · rw [h, hm]
          exact List.mem_cons_self
        · rw [h, hm]
          exact List.mem_cons_of_mem _ List.mem_cons_self
      · exact List.mem_cons_of_mem _ (List.mem_cons_of_mem _ h)

/-- The chosen candidate is a maximal one, and all maximal ones have its set. -/
theorem chooseMaximal_spec (hsub : server.IsInclusion gtids) {maximal : List (ν × GtidText)}
    {winner : ν} {call : ℕ} (h : ((server.chooseMaximal maximal).run call).1 = some winner) :
    ∃ w ∈ maximal, w.1 = winner ∧ ∀ m ∈ maximal, gtids m.2 = gtids w.2 := by
  match maximal with
  | [] => exact absurd h (by simp [GtidServer.chooseMaximal])
  | [m] => exact ⟨m, by simp, Option.some.inj h, by simp⟩
  | base :: next :: rest =>
      rw [GtidServer.chooseMaximal, run_bind_calls] at h
      cases hall : ((server.allEqual base.2 (next :: rest)).run call).1 with
      | false =>
          rw [hall] at h
          exact absurd h (Option.some_ne_none winner).symm
      | true =>
          rw [hall, if_pos rfl] at h
          have heq : ∀ m ∈ base :: next :: rest, gtids m.2 = gtids base.2 := by
            intro m hm
            rcases List.mem_cons.mp hm with rfl | hm
            · rfl
            · exact allEqual_spec hsub _ hall m hm
          have hmem := foldl_min_mem base.1 ((next :: rest).map Prod.fst)
          rw [← List.map_cons, show ((next :: rest).map Prod.fst).foldl min base.1 = winner from
            Option.some.inj h] at hmem
          obtain ⟨w, hw, rfl⟩ := List.mem_map.mp hmem
          exact ⟨w, hw, rfl, fun m hm => (heq m hm).trans (heq w hw).symm⟩

/-- An elected candidate has every transaction of every candidate. -/
theorem electWinner_spec (hsub : server.IsInclusion gtids) {candidates : List (ν × GtidText)}
    {winner : ν} {call : ℕ} (h : ((server.electWinner candidates).run call).1 = some winner) :
    ∃ w ∈ candidates, w.1 = winner ∧ ∀ c ∈ candidates, gtids c.2 ⊆ gtids w.2 := by
  match candidates with
  | [] => exact absurd h (by simp [GtidServer.electWinner])
  | [c] => exact ⟨c, by simp, Option.some.inj h, by simp⟩
  | c₁ :: c₂ :: rest =>
      rw [GtidServer.electWinner, run_bind_calls] at h
      obtain ⟨w, hw, hname, heq⟩ := chooseMaximal_spec hsub h
      refine ⟨w, (undominated_spec hsub _ _ call).1 w hw, hname, fun c hc => ?_⟩
      obtain ⟨m, hm, hle⟩ := exists_maximal_above hsub _ call hc
      exact hle.trans (heq m hm).subset

/-! ## Who may bootstrap -/

variable {node : MgrNode ν}

theorem mem_mgrGtidCandidates {self : ν} {localGtid : GtidText} {members : List (MgrMember ν)}
    {c : ν × GtidText} :
    c ∈ mgrGtidCandidates self localGtid members ↔
      (localGtid.truthy = true ∧ c = (self, localGtid)) ∨
        ∃ m ∈ members, m.name ≠ self ∧ m.gtid.truthy = true ∧ c = (m.name, m.gtid) := by
  simp only [mgrGtidCandidates, List.mem_append, List.mem_map, List.mem_filter, Bool.and_eq_true,
    decide_eq_true_eq]
  constructor
  · rintro (h | ⟨m, ⟨hm, hne, ht⟩, rfl⟩)
    · split at h
      · next ht => exact Or.inl ⟨ht, List.mem_singleton.mp h⟩
      · simp at h
    · exact Or.inr ⟨m, hm, hne, ht, rfl⟩
  · rintro (⟨ht, rfl⟩ | ⟨m, hm, hne, ht, rfl⟩)
    · rw [if_pos ht]
      exact Or.inl (List.mem_singleton_self _)
    · exact Or.inr ⟨m, ⟨hm, hne, ht⟩, rfl⟩

/-- With distinct member names a candidate's name determines its set. -/
theorem mgrGtidCandidates_inj {self : ν} {localGtid : GtidText} {members : List (MgrMember ν)}
    (hnames : (members.map (·.name)).Nodup) {c c' : ν × GtidText}
    (hc : c ∈ mgrGtidCandidates self localGtid members)
    (hc' : c' ∈ mgrGtidCandidates self localGtid members) (h : c.1 = c'.1) : c = c' := by
  rw [mem_mgrGtidCandidates] at hc hc'
  rcases hc with ⟨-, rfl⟩ | ⟨m, hm, hne, -, rfl⟩
  · rcases hc' with ⟨-, rfl⟩ | ⟨m', -, hne', -, rfl⟩
    · rfl
    · exact absurd h.symm hne'
  · rcases hc' with ⟨-, rfl⟩ | ⟨m', hm', -, -, rfl⟩
    · exact absurd h hne
    · rw [List.inj_on_of_nodup_map hnames hm hm' h]

theorem bootstrap_notMem_tryRejoinMgr : MgrAction.bootstrapMgrGroup ∉ node.tryRejoinMgr.1 := by
  rw [MgrNode.tryRejoinMgr]
  split
  · simp
  · split <;> simp

/-- Without a local GTID set only the lock holder bootstraps, and no peer has published one. -/
theorem bootstrap_mem_handleEmptyGtid
    (h : MgrAction.bootstrapMgrGroup ∈ node.handleEmptyGtid.1) :
    node.hasLock = true ∧ node.peerGtids = [] := by
  rw [MgrNode.handleEmptyGtid] at h
  split at h
  · next hc => simpa using hc
  · exact absurd h bootstrap_notMem_tryRejoinMgr

theorem bootstrap_mem_handleWinner (h : MgrAction.bootstrapMgrGroup ∈ node.handleWinner.1) :
    node.hasLock = true := by
  by_contra hlock
  rw [Bool.not_eq_true] at hlock
  have hrejoin : MgrAction.bootstrapMgrGroup ∈ node.tryRejoinMgr.1 := by
    rcases hr : node.tryRejoinMgr with ⟨actions, message⟩
    cases message <;> simpa [MgrNode.handleWinner, hlock, hr] using h
  exact bootstrap_notMem_tryRejoinMgr hrejoin

theorem bootstrap_notMem_handleLoser (winner : ν) :
    MgrAction.bootstrapMgrGroup ∉ (node.handleLoser winner).1 := by
  intro h
  have hrejoin : MgrAction.bootstrapMgrGroup ∈ node.tryRejoinMgr.1 := by
    rcases hr : node.tryRejoinMgr with ⟨actions, message⟩
    cases hl : node.hasLock <;> cases message <;> simp [MgrNode.handleLoser, hl, hr] at h <;> exact h
  exact bootstrap_notMem_tryRejoinMgr hrejoin

/-- The handler bootstraps as the elected winner or without any published set. -/
theorem bootstrap_mem_handleMgrMajorityLoss {call : ℕ}
    (h : MgrAction.bootstrapMgrGroup ∈ (node.handleMgrMajorityLoss call).1) :
    node.hasLock = true ∧ (node.peerGtids = [] ∨ node.localGtid.truthy = true ∧
      ((selectMgrBootstrapWinner node.server node.name node.localGtid node.members).run call).1 =
        some node.name) := by
  rw [MgrNode.handleMgrMajorityLoss] at h
  split at h
  · obtain ⟨hlock, hpeers⟩ := bootstrap_mem_handleEmptyGtid h
    exact ⟨hlock, Or.inl hpeers⟩
  · next hlocal =>
      have ht : node.localGtid.truthy = true := by simpa using hlocal
      rcases hrun : (selectMgrBootstrapWinner node.server node.name node.localGtid
        node.members).run call with ⟨winner, call'⟩
      simp only [hrun] at h
      cases winner with
      | none =>
          simp only at h
          split at h <;> simp at h
      | some winner =>
          by_cases hw : winner = node.name
          · have hmem : MgrAction.bootstrapMgrGroup ∈ node.handleWinner.1 := by
              simpa [hw] using h
            rw [hw]
            exact ⟨bootstrap_mem_handleWinner hmem, Or.inr ⟨ht, rfl⟩⟩
          · have hmem : MgrAction.bootstrapMgrGroup ∈ (node.handleLoser winner).1 := by
              simpa [hw] using h
            exact absurd hmem (bootstrap_notMem_handleLoser winner)

end Domination

/-- Recovery never drops published transactions: an elected winner has every
transaction of every candidate, and only a lock holder with all published
transactions bootstraps a new group. -/
theorem mgr_recovery_keeps_published_transactions {τ : Type} [LinearOrder ν]
    (gtids : GtidText → Set τ) (node : MgrNode ν) (call : ℕ)
    (hsub : node.server.IsInclusion gtids) (hnames : (node.members.map (·.name)).Nodup) :
    let candidates := mgrGtidCandidates node.name node.localGtid node.members
    (∀ winner, ((selectMgrBootstrapWinner node.server node.name node.localGtid
        node.members).run call).1 = some winner →
      winner ∈ candidates.map Prod.fst ∧
        ∀ w ∈ candidates, w.1 = winner → ∀ c ∈ candidates, gtids c.2 ⊆ gtids w.2) ∧
      (MgrAction.bootstrapMgrGroup ∈ (node.handleMgrMajorityLoss call).1 →
        node.hasLock = true ∧
          ∀ m ∈ node.members, m.name ≠ node.name → m.gtid.truthy = true →
            gtids m.gtid ⊆ gtids node.localGtid) := by
  intro candidates
  constructor
  · intro winner h
    obtain ⟨w, hw, rfl, hall⟩ := electWinner_spec hsub h
    refine ⟨List.mem_map_of_mem hw, fun w' hw' hname => ?_⟩
    rw [mgrGtidCandidates_inj hnames hw' hw hname]
    exact hall
  · intro h
    obtain ⟨hlock, hcase⟩ := bootstrap_mem_handleMgrMajorityLoss h
    refine ⟨hlock, fun m hm hne ht => ?_⟩
    rcases hcase with hnone | ⟨hlocal, hwin⟩
    · have hmem : m.gtid ∈ node.peerGtids := by
        simp only [MgrNode.peerGtids, List.mem_filter, List.mem_map, decide_eq_true_eq]
        exact ⟨⟨m, ⟨hm, hne⟩, rfl⟩, ht⟩
      rw [hnone] at hmem
      exact absurd hmem List.not_mem_nil
    · obtain ⟨w, hw, hname, hall⟩ := electWinner_spec hsub hwin
      have hself : (node.name, node.localGtid) ∈ candidates :=
        mem_mgrGtidCandidates.mpr (Or.inl ⟨hlocal, rfl⟩)
      rw [mgrGtidCandidates_inj hnames hw hself hname] at hall
      exact hall _ (mem_mgrGtidCandidates.mpr (Or.inr ⟨m, hm, hne, ht, rfl⟩))

/-- Two nodes of one group, where each word of a text is one transaction and
the first comparison call fails. The lock holder `a` has everything. -/
theorem mgr_recovery_of_two_nodes :
    let server : GtidServer := ⟨fun a b => a.words.all (· ∈ b.words), fun call => call = 0⟩
    let node : MgrNode String :=
      { server := server
        name := "a"
        localGtid := ⟨["u:1", "u:2"]⟩
        members := [⟨"b", some ⟨["u:1"]⟩, none, none, false, true⟩]
        hasLock := true
        bootstrapSucceeds := true
        rejoinSucceeds := fun _ => false }
    MgrAction.bootstrapMgrGroup ∈ (node.handleMgrMajorityLoss 0).1 ∧ node.hasLock = true ∧
      ∀ m ∈ node.members, m.name ≠ node.name → m.gtid.truthy = true →
        {t | t ∈ m.gtid.words} ⊆ {t | t ∈ node.localGtid.words} := by
  intro server node
  have hsub : node.server.IsInclusion fun gtid => {t | t ∈ gtid.words} := by
    intro a b
    simp [node, server, Set.subset_def]
  have h : MgrAction.bootstrapMgrGroup ∈ (node.handleMgrMajorityLoss 0).1 := by decide +kernel
  exact ⟨h, (mgr_recovery_keeps_published_transactions _ node 0 hsub (by decide)).2 h⟩

end Metatroni.MySQL
