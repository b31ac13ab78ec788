import Metatroni.Lib.Runs
import Metatroni.PostgreSQL.Multisync

/-!
# `Ha._process_multisync_replication`

The cycle of a leader that keeps two stores in step by hand: the `/sync` key,
which a later leader race trusts, and `synchronous_standby_names`, which decides
what a commit waits for. Nodes leave `/sync` first and the setting afterwards,
and enter the setting first.

A cycle is cut at its effects: every write of `/sync`, every write of the
setting and every evaluation of `current_state` is a step of its own. Between
two of them the leader may crash, the setting may take effect, and other nodes
may write `/sync` under their own names.

## Implementation notes

A write of `/sync` may be refused, because the version has moved or the DCS
fails, and it may be applied although its answer is lost; both end the cycle.
The written setting is in effect whenever `current_state` is evaluated.
-/

namespace Metatroni

namespace Multisync

open Runs

variable {ν : Type} [NodeName ν]

/-- The `/sync` key as it is read, with its version if it exists. -/
structure View (ν : Type) where
  version : Option ℕ
  value : SyncState ν
  deriving DecidableEq

/-- The variables of `_process_multisync_replication`. -/
structure Cycle (ν : Type) [NodeName ν] where
  config : GlobalConfig
  /-- The `/sync` key of `self.cluster`. -/
  cluster : SyncState ν
  sync : View ν
  currentState : ReplicationState ν
  voters : CaseInsensitiveSet ν

namespace Cycle

/-- `picked`, before it may be replaced by `*`. -/
def picked (c : Cycle ν) : CaseInsensitiveSet ν := c.currentState.active

/-- `allow_promote`, as the first evaluation gives it. -/
def allowPromote (c : Cycle ν) : CaseInsensitiveSet ν := c.currentState.syncConfirmed

/-- `sync_common`. -/
def syncCommon (c : Cycle ν) : CaseInsensitiveSet ν := c.voters ∩ c.allowPromote

/-- The nodes that the key lists when the setting is written, or that it will
list without another evaluation. -/
def kept (c : Cycle ν) : Finset ν :=
  if c.allowPromote.Same c.picked then c.picked.keys else c.syncCommon.keys

end Cycle

/-- Where the cycle is: always in front of its next effect. -/
inductive Phase (ν : Type) [NodeName ν]
  | idle
  /-- `_maybe_enable_synchronous_mode` writes an empty key. -/
  | enable (c : Cycle ν)
  | evaluate (c : Cycle ν)
  /-- The key has another leader's name. -/
  | takeOver (c : Cycle ν)
  /-- The key lists the picked nodes, but some are not confirmed. -/
  | reconcile (c : Cycle ν)
  /-- The key keeps the common nodes only. -/
  | shrink (c : Cycle ν)
  /-- `set_synchronous_standby_names` writes the setting. -/
  | assign (c : Cycle ν)
  /-- It looks at the setting in effect before it returns. -/
  | settle (c : Cycle ν)
  | reevaluate (c : Cycle ν)
  /-- The confirmed nodes are written to the key. -/
  | publish (c : Cycle ν) (allowPromote : CaseInsensitiveSet ν)

namespace Cycle

/-- The end of the cycle. -/
def afterReevaluate (c : Cycle ν) (allowPromote : CaseInsensitiveSet ν) : Phase ν :=
  if allowPromote.Truthy ∧ ¬ allowPromote.Same c.syncCommon then .publish c allowPromote else .idle

/-- After `set_synchronous_standby_names`; nobody is waited for if the setting is `*`. -/
def afterAssign (c : Cycle ν) : Phase ν :=
  if c.picked.Truthy ∧ ¬ c.allowPromote.Same c.picked then .reevaluate c
  else c.afterReevaluate c.allowPromote

/-- Nothing to do if the key, the setting and the picked nodes agree. -/
def afterReconcile (c : Cycle ν) : Phase ν :=
  if c.picked.Same c.voters ∧ c.voters.Same c.currentState.sync ∧
      c.currentState.numsync = c.picked.len then .idle
  else if ¬ c.syncCommon.Same c.voters then .shrink c
  else .assign c

/-- After the leader of the key is known to be this node. -/
def afterTakeOver (c : Cycle ν) : Phase ν :=
  if c.picked.Same c.voters ∧ ¬ c.voters.Same c.allowPromote then .reconcile c
  else c.afterReconcile

/-- After the first evaluation. -/
def afterEvaluate (c : Cycle ν) (name : ν) : Phase ν :=
  if c.sync.value.leader ≠ some name then .takeOver c else c.afterTakeOver

end Cycle

/-- A call of `write_sync_state` and what follows its success. -/
structure Request (ν : Type) [NodeName ν] where
  version : Option ℕ
  voters : CaseInsensitiveSet ν
  next : View ν → Phase ν

/-- The write that the cycle is about to make. -/
def Phase.request : Phase ν → Option (Request ν)
  | .enable c => some ⟨c.sync.version, ∅, fun sync => .evaluate { c with sync := sync }⟩
  | .takeOver c =>
      some ⟨c.sync.version, ∅, fun sync => { c with sync := sync, voters := ∅ }.afterTakeOver⟩
  | .reconcile c =>
      some ⟨c.sync.version, c.allowPromote, fun sync =>
        { c with sync := sync, voters := .ofList sync.value.voters }.afterReconcile⟩
  | .shrink c => some ⟨c.sync.version, c.syncCommon, fun sync => .assign { c with sync := sync }⟩
  | .publish c allowPromote => some ⟨c.sync.version, allowPromote, fun _ => .idle⟩
  | .idle | .evaluate _ | .assign _ | .settle _ | .reevaluate _ => none

/-- If the setting is to be written in the quorum mode, which only a server
without several synchronous nodes gets here with, then the nodes that are kept
are no others than the first of the picked ones. -/
def Phase.Covers : Phase ν → Prop
  | .assign c =>
      c.config.isQuorumCommitMode →
        ∀ key ∈ c.kept, c.picked.sorted.head?.map lower = some key
  | _ => True

instance (phase : Phase ν) : Decidable phase.Covers :=
  match phase with
  | .assign c => inferInstanceAs (Decidable (_ → ∀ key ∈ c.kept, _))
  | .idle | .enable _ | .evaluate _ | .takeOver _ | .reconcile _ | .shrink _ | .settle _
  | .reevaluate _ | .publish _ _ => .isTrue trivial

/-- A leader, its server and the `/sync` key. -/
structure Leader (ν : Type) [NodeName ν] where
  name : ν
  majorVersion : ℕ
  /-- The `/sync` key with its version. -/
  key : Option (ℕ × SyncState ν)
  /-- The last version that was given out. -/
  revision : ℕ
  /-- `synchronous_standby_names` in effect. -/
  effective : Setting ν
  /-- `synchronous_standby_names` as last written. -/
  written : Setting ν
  handler : SyncHandler ν
  phase : Phase ν
  /-- `sync_confirmed` of the last evaluation of `current_state`. -/
  confirmed : CaseInsensitiveSet ν

namespace Leader

/-- Read the `/sync` key. -/
def load (w : Leader ν) : View ν :=
  match w.key with
  | none => ⟨none, ⟨none, [], 0⟩⟩
  | some (version, value) => ⟨some version, value⟩

/-- A new cycle, for which `is_quorum_commit_mode` is false and
`is_synchronous_mode` true. -/
def start (w : Leader ν) (config : GlobalConfig) : Option (Leader ν) :=
  match w.phase with
  | .idle =>
      if config.isSynchronousMode ∧
          ¬ (config.isQuorumCommitMode ∧ supportsMultipleSync w.majorVersion) then
        let c : Cycle ν := ⟨config, w.load.value, w.load, ⟨0, ∅, ∅, ∅⟩, ∅⟩
        some { w with phase := if w.load.value.isEmpty then .enable c else .evaluate c }
      else none
  | _ => none

/-- `current_state`, while the written setting is in effect. -/
def evaluate (w : Leader ν) (reading : SyncHandler.Reading ν) : Option (Leader ν) :=
  if w.effective = w.written then
    match w.phase with
    | .evaluate c =>
        let (handler, state) :=
          w.handler.currentState w.majorVersion c.config c.cluster w.effective reading
        let c := { c with currentState := state, voters := .ofList c.sync.value.voters }
        some { w with
          handler := handler
          confirmed := state.syncConfirmed
          phase := c.afterEvaluate w.name }
    | .reevaluate c =>
        let (handler, state) :=
          w.handler.currentState w.majorVersion c.config c.cluster w.effective reading
        some { w with
          handler := handler
          confirmed := state.syncConfirmed
          phase := c.afterReevaluate state.syncConfirmed }
    | _ => none
  else none

/-- The fate of a write of `/sync`. -/
inductive Answer
  | applied
  | refused
  /-- The write is applied, but reported as failed. -/
  | lost
  deriving DecidableEq, Repr

/-- The value that `write_sync_state` writes. -/
def syncValue (w : Leader ν) (voters : CaseInsensitiveSet ν) : SyncState ν :=
  ⟨some w.name, voters.sorted, 0⟩

/-- The key after a write. -/
def put (w : Leader ν) (value : SyncState ν) : Leader ν :=
  { w with key := some (w.revision + 1, value), revision := w.revision + 1 }

/-- `write_sync_state`: conditional if a version is given. -/
def write (w : Leader ν) (answer : Answer) : Option (Leader ν) :=
  match w.phase.request with
  | none => none
  | some request =>
      let written := w.put (w.syncValue request.voters)
      if answer = .refused then some { w with phase := .idle }
      else if request.version = none ∨ request.version = w.load.version then
        some { written with
          phase := if answer = .applied then request.next written.load else .idle }
      else none

/-- The setting that the cycle writes. -/
def newSetting (w : Leader ν) (c : Cycle ν) : Setting ν :=
  if c.config.isSynchronousModeStrict ∧ ¬ c.picked.Truthy then .star
  else .ofNodes w.majorVersion c.picked

/-- `set_synchronous_standby_names` up to the reload, on a server that is or is
not a running primary. The rest also ends if the timeline is `0` then, with the
same effect as on a server that is no running primary. -/
def assign (w : Leader ν) (running : Bool) : Option (Leader ν) :=
  match w.phase with
  | .assign c =>
      let setting := w.newSetting c
      some { w with
        written := setting
        phase := if setting ≠ w.written ∧ running ∧ ¬ setting.hasStar then .settle c
          else c.afterAssign }
  | _ => none

/-- The rest of `set_synchronous_standby_names`. -/
def settle (w : Leader ν) (lastOperation : ℕ) : Option (Leader ν) :=
  match w.phase with
  | .settle c =>
      some { w with
        handler := w.handler.handleSynchronousStandbyNamesChange w.effective lastOperation
        phase := c.afterAssign }
  | _ => none

/-- Somebody else writes or deletes the key, under no name of this leader. -/
def interfere (w : Leader ν) (value : Option (SyncState ν)) : Option (Leader ν) :=
  match value with
  | none => some { w with key := none }
  | some value => if value.leader = some w.name then none else some (w.put value)

/-- The steps of the leader and of its surroundings. -/
inductive Label (ν : Type)
  | start (config : GlobalConfig)
  | evaluate (reading : SyncHandler.Reading ν)
  | write (answer : Answer)
  | assign (running : Bool)
  | settle (lastOperation : ℕ)
  /-- The written setting takes effect. -/
  | reload
  /-- An exception ends the cycle. -/
  | abort
  /-- Patroni starts anew. -/
  | crash
  | interfere (value : Option (SyncState ν))

/-- One step. -/
def step (l : Label ν) (w : Leader ν) : Option (Leader ν) :=
  match l with
  | .start config => w.start config
  | .evaluate reading => w.evaluate reading
  | .write answer => w.write answer
  | .assign running => w.assign running
  | .settle lastOperation => w.settle lastOperation
  | .reload => some { w with effective := w.written }
  | .abort => some { w with phase := .idle }
  | .crash => some { w with phase := .idle, handler := .init }
  | .interfere value => w.interfere value

/-- The voters in the key under the name of this leader. -/
def ownVoters (w : Leader ν) : Finset ν :=
  match w.key with
  | none => ∅
  | some (_, value) =>
      if value.leader = some w.name then (CaseInsensitiveSet.ofList value.voters).keys else ∅

/-- A leader that has nothing in the key yet, between two cycles. -/
def Initial (w : Leader ν) : Prop := w.phase = .idle ∧ w.ownVoters = ∅

/-- The condition on a write of the setting. -/
def Covered : Label ν → Leader ν → Prop
  | .assign _, w => w.phase.Covers
  | _, _ => True

instance (l : Label ν) (w : Leader ν) : Decidable (Covered l w) :=
  match l with
  | .assign _ => inferInstanceAs (Decidable w.phase.Covers)
  | .start _ | .evaluate _ | .write _ | .settle _ | .reload | .abort | .crash | .interfere _ =>
      .isTrue trivial

/-! ## The invariant -/

/-- Both the setting in effect and the written one list these nodes. -/
def Listed (w : Leader ν) (nodes : Finset ν) : Prop :=
  ∀ key ∈ nodes, w.effective.Lists key ∧ w.written.Lists key

theorem Listed.mono {w : Leader ν} {nodes nodes' : Finset ν} (h : w.Listed nodes)
    (hsubset : nodes' ⊆ nodes) : w.Listed nodes' :=
  fun key hkey => h key (hsubset hkey)

theorem listed_empty (w : Leader ν) : w.Listed ∅ := by
  intro key hkey
  simp at hkey

/-- What holds of the variables between the first evaluation and the write of the
setting. -/
structure Evaluated (w : Leader ν) (c : Cycle ν) : Prop where
  subset : c.allowPromote.keys ⊆ c.picked.keys
  listed : w.Listed c.allowPromote.keys
  confirmed : c.allowPromote.keys ⊆ w.confirmed.keys
  single : ¬ supportsMultipleSync w.majorVersion → ¬ c.config.isQuorumCommitMode →
    c.picked.keys.card ≤ 1

/-- What holds in each phase. -/
def Sound (w : Leader ν) : Phase ν → Prop
  | .idle | .enable _ | .reevaluate _ => True
  | .evaluate c =>
      if c.sync.value.leader = some w.name then
        w.ownVoters ⊆ (CaseInsensitiveSet.ofList c.sync.value.voters).keys
      else w.ownVoters = ∅
  | .takeOver c | .reconcile c | .shrink c => w.Evaluated c
  | .assign c => w.Evaluated c ∧ w.ownVoters ⊆ c.syncCommon.keys
  | .settle c =>
      (c.picked.Truthy ∧ ¬ c.allowPromote.Same c.picked ∨ w.Listed c.allowPromote.keys) ∧
        c.allowPromote.keys ⊆ w.confirmed.keys
  | .publish _ allowPromote =>
      w.Listed allowPromote.keys ∧ allowPromote.keys ⊆ w.confirmed.keys

/-- The voters of the key are listed, and the cycle is sound. -/
structure Inv (w : Leader ν) : Prop where
  listed : w.Listed w.ownVoters
  sound : w.Sound w.phase

/-- Fewer voters and more listed nodes do not harm a phase. -/
theorem Sound.mono {w w' : Leader ν} {phase : Phase ν} (h : w.Sound phase)
    (hname : w'.name = w.name) (hversion : w'.majorVersion = w.majorVersion)
    (hconfirmed : w'.confirmed = w.confirmed)
    (hlisted : ∀ nodes, w.Listed nodes → w'.Listed nodes)
    (hvoters : w'.ownVoters ⊆ w.ownVoters) : w'.Sound phase := by
  have hevaluated : ∀ c, w.Evaluated c → w'.Evaluated c := fun c hc =>
    ⟨hc.subset, hlisted _ hc.listed, hconfirmed ▸ hc.confirmed, hversion ▸ hc.single⟩
  cases phase with
  | idle | enable | reevaluate => trivial
  | evaluate c =>
      simp only [Sound, hname] at h ⊢
      split
      · next hleader => exact hvoters.trans (by simpa [hleader] using h)
      · next hleader =>
          rw [if_neg hleader] at h
          exact Finset.subset_empty.mp (h ▸ hvoters)
  | takeOver c | reconcile c | shrink c => exact hevaluated c h
  | assign c => exact ⟨hevaluated c h.1, hvoters.trans h.2⟩
  | settle c => exact ⟨h.1.imp_right (hlisted _), hconfirmed ▸ h.2⟩
  | publish c allowPromote => exact ⟨hlisted _ h.1, hconfirmed ▸ h.2⟩

/-! ## Between two effects -/

theorem sound_afterReevaluate {w : Leader ν} (c : Cycle ν) {allowPromote : CaseInsensitiveSet ν}
    (hlisted : w.Listed allowPromote.keys) (hconfirmed : allowPromote.keys ⊆ w.confirmed.keys) :
    w.Sound (c.afterReevaluate allowPromote) := by
  rw [Cycle.afterReevaluate]
  split
  · exact ⟨hlisted, hconfirmed⟩
  · trivial

theorem sound_afterAssign {w : Leader ν} {c : Cycle ν} (h : w.Sound (.settle c)) :
    w.Sound c.afterAssign := by
  rw [Cycle.afterAssign]
  split
  · trivial
  · next hskip => exact sound_afterReevaluate c (h.1.resolve_left hskip) h.2

theorem sound_afterReconcile {w : Leader ν} {c : Cycle ν} (h : w.Evaluated c)
    (hvoters : w.ownVoters ⊆ c.voters.keys) : w.Sound c.afterReconcile := by
  rw [Cycle.afterReconcile]
  split
  · trivial
  · split
    · exact h
    · next hsame =>
        rw [not_not, CaseInsensitiveSet.same_iff] at hsame
        exact ⟨h, hsame ▸ hvoters⟩

theorem sound_afterTakeOver {w : Leader ν} {c : Cycle ν} (h : w.Evaluated c)
    (hvoters : w.ownVoters ⊆ c.voters.keys) : w.Sound c.afterTakeOver := by
  rw [Cycle.afterTakeOver]
  split
  · exact h
  · exact sound_afterReconcile h hvoters

/-! ## What each step keeps -/

/-- The voters that are read are those of the key. -/
theorem sound_evaluate_load (w : Leader ν) (c : Cycle ν) (h : c.sync = w.load) :
    w.Sound (.evaluate c) := by
  simp only [Sound, h, load, ownVoters]
  cases w.key with
  | none => simp
  | some entry =>
      dsimp only
      split
      · exact Finset.Subset.refl _
      · rfl

theorem keys_ofList_sorted (s : CaseInsensitiveSet ν) :
    (CaseInsensitiveSet.ofList s.sorted).keys = s.keys := by
  ext key
  rw [CaseInsensitiveSet.keys_ofList, List.mem_toFinset, CaseInsensitiveSet.keys,
    List.mem_toFinset]
  exact (s.sorted_perm.map lower).mem_iff

/-- After a write of this leader the voters are those it has written. -/
theorem ownVoters_put (w : Leader ν) (voters : CaseInsensitiveSet ν) :
    (w.put (w.syncValue voters)).ownVoters = voters.keys := by
  simp only [ownVoters, put, syncValue, SyncState.voters, SyncState.isEmpty, if_true,
    Option.isNone_some, Bool.false_eq_true, if_false]
  exact keys_ofList_sorted voters

theorem start_inv {w w' : Leader ν} {config : GlobalConfig} (h : w.start config = some w')
    (hinv : w.Inv) : w'.Inv := by
  rw [start] at h
  split at h
  · split at h
    · obtain rfl := Option.some.inj h
      refine ⟨hinv.listed, ?_⟩
      dsimp only
      split
      · trivial
      · exact sound_evaluate_load _ _ rfl
    · cases h
  · cases h

/-- What an evaluation tells while the written setting is in effect. -/
theorem evaluated_currentState {w : Leader ν} (heffective : w.effective = w.written) (c : Cycle ν)
    (reading : SyncHandler.Reading ν) (voters : CaseInsensitiveSet ν) (phase : Phase ν) :
    let result := w.handler.currentState w.majorVersion c.config c.cluster w.effective reading
    Evaluated { w with handler := result.1, confirmed := result.2.syncConfirmed, phase := phase }
      { c with currentState := result.2, voters := voters } := by
  intro result
  obtain ⟨hsubset, hlisted⟩ := SyncHandler.currentState_sound w.handler w.majorVersion c.config
    c.cluster w.effective reading
  refine ⟨hsubset, ?_, Finset.Subset.refl _, ?_⟩
  · intro key hkey
    exact ⟨hlisted key hkey, heffective ▸ hlisted key hkey⟩
  · exact SyncHandler.currentState_active_card w.handler w.majorVersion c.config c.cluster
      w.effective reading

theorem evaluate_inv {w w' : Leader ν} {reading : SyncHandler.Reading ν}
    (h : w.evaluate reading = some w') (hinv : w.Inv) : w'.Inv := by
  rw [evaluate] at h
  split at h
  · next heffective =>
      have hsound := hinv.sound
      split at h
      · next c hphase =>
          obtain rfl := Option.some.inj h
          have hevaluated := evaluated_currentState heffective c reading
            (.ofList c.sync.value.voters)
          refine ⟨hinv.listed, ?_⟩
          rw [hphase, Sound] at hsound
          simp only [Cycle.afterEvaluate]
          split
          · exact hevaluated _
          · next hleader =>
              rw [not_not] at hleader
              rw [if_pos hleader] at hsound
              exact sound_afterTakeOver (hevaluated _) hsound
      · next c hphase =>
          obtain rfl := Option.some.inj h
          have hevaluated := evaluated_currentState heffective c reading ∅
          exact ⟨hinv.listed,
            sound_afterReevaluate c (hevaluated _).listed (hevaluated _).confirmed⟩
      · cases h
  · cases h

/-- Whatever the cycle is about to write is listed and confirmed. -/
theorem request_sound {w : Leader ν} {request : Request ν} (h : w.Sound w.phase)
    (hrequest : w.phase.request = some request) :
    w.Listed request.voters.keys ∧ request.voters.keys ⊆ w.confirmed.keys := by
  have hcommon : ∀ c : Cycle ν, c.syncCommon.keys ⊆ c.allowPromote.keys := by
    intro c
    rw [Cycle.syncCommon, CaseInsensitiveSet.keys_inter]
    exact Finset.inter_subset_right
  cases hphase : w.phase with
  | idle | evaluate | assign | settle | reevaluate => simp [hphase, Phase.request] at hrequest
  | enable c | takeOver c =>
      rw [hphase] at hrequest
      obtain rfl := Option.some.inj hrequest
      exact ⟨w.listed_empty, Finset.empty_subset _⟩
  | reconcile c =>
      rw [hphase] at h hrequest
      obtain rfl := Option.some.inj hrequest
      exact ⟨h.listed, h.confirmed⟩
  | shrink c =>
      rw [hphase] at h hrequest
      obtain rfl := Option.some.inj hrequest
      exact ⟨h.listed.mono (hcommon c), (hcommon c).trans h.confirmed⟩
  | publish c allowPromote =>
      rw [hphase] at h hrequest
      obtain rfl := Option.some.inj hrequest
      exact h

/-- After the write the cycle goes on in a sound phase. -/
theorem request_next_sound {w : Leader ν} {request : Request ν} (h : w.Sound w.phase)
    (hrequest : w.phase.request = some request) {phase : Phase ν} :
    let written := w.put (w.syncValue request.voters)
    Sound { written with phase := phase } (request.next written.load) := by
  intro written
  have hown : Leader.ownVoters { written with phase := phase } = request.voters.keys :=
    w.ownVoters_put request.voters
  cases hphase : w.phase with
  | idle | evaluate | assign | settle | reevaluate => simp [hphase, Phase.request] at hrequest
  | enable c =>
      rw [hphase] at hrequest
      obtain rfl := Option.some.inj hrequest
      exact sound_evaluate_load _ _ rfl
  | takeOver c =>
      rw [hphase] at h hrequest
      obtain rfl := Option.some.inj hrequest
      exact sound_afterTakeOver ⟨h.subset, h.listed, h.confirmed, h.single⟩ hown.subset
  | reconcile c =>
      rw [hphase] at h hrequest
      obtain rfl := Option.some.inj hrequest
      have hvoters : c.allowPromote.keys ⊆
          (CaseInsensitiveSet.ofList written.load.value.voters).keys :=
        (keys_ofList_sorted c.allowPromote).ge
      exact sound_afterReconcile ⟨h.subset, h.listed, h.confirmed, h.single⟩
        (hown.subset.trans hvoters)
  | shrink c =>
      rw [hphase] at h hrequest
      obtain rfl := Option.some.inj hrequest
      exact ⟨⟨h.subset, h.listed, h.confirmed, h.single⟩, hown.subset⟩
  | publish c allowPromote =>
      rw [hphase] at hrequest
      obtain rfl := Option.some.inj hrequest
      trivial

theorem write_inv {w w' : Leader ν} {answer : Answer} (h : w.write answer = some w')
    (hinv : w.Inv) : w'.Inv := by
  rw [write] at h
  split at h
  · cases h
  · next request hrequest =>
      dsimp only at h
      split at h
      · obtain rfl := Option.some.inj h
        exact ⟨hinv.listed, trivial⟩
      · split at h
        · obtain rfl := Option.some.inj h
          constructor
          · have hown := w.ownVoters_put request.voters
            intro key hkey
            exact (request_sound hinv.sound hrequest).1 key (hown ▸ hkey)
          · dsimp only
            split
            · exact request_next_sound hinv.sound hrequest
            · trivial
        · cases h

/-- The nodes that are kept are among those written. -/
theorem newSetting_lists {w : Leader ν} {c : Cycle ν} (h : w.Evaluated c)
    (hcovered : c.config.isQuorumCommitMode →
      ∀ key ∈ c.kept, c.picked.sorted.head?.map lower = some key)
    {key : ν} (hkey : key ∈ c.kept) : (w.newSetting c).Lists key := by
  have hpicked : key ∈ c.picked.keys := by
    rw [Cycle.kept] at hkey
    split at hkey
    · exact hkey
    · rw [Cycle.syncCommon, CaseInsensitiveSet.keys_inter] at hkey
      exact h.subset (Finset.mem_inter.mp hkey).2
  rw [newSetting]
  split
  · exact .inl rfl
  · by_cases hmode : c.config.isQuorumCommitMode
    · obtain ⟨name, hname, rfl⟩ := Option.map_eq_some_iff.mp (hcovered hmode key hkey)
      exact Setting.ofNodes_lists_head hname
    · by_cases hserver : supportsMultipleSync w.majorVersion
      · exact Setting.ofNodes_lists_of_supports hserver hpicked
      · exact Setting.ofNodes_lists_of_card_le (h.single hserver hmode) hpicked

theorem assign_inv {w w' : Leader ν} {running : Bool} (h : w.assign running = some w')
    (hcovered : Covered (.assign running) w) (hinv : w.Inv) : w'.Inv := by
  rw [assign] at h
  split at h
  · next c hphase =>
      obtain rfl := Option.some.inj h
      have hsound := hinv.sound
      rw [hphase] at hsound
      obtain ⟨hevaluated, hvoters⟩ := hsound
      simp only [Covered, hphase, Phase.Covers] at hcovered
      have hnew : ∀ key ∈ c.kept, (w.newSetting c).Lists key := fun key hkey =>
        newSetting_lists hevaluated hcovered hkey
      have hcommon : c.syncCommon.keys ⊆ c.kept := by
        rw [Cycle.kept]
        split
        · rw [Cycle.syncCommon, CaseInsensitiveSet.keys_inter]
          exact Finset.inter_subset_right.trans hevaluated.subset
        · exact Finset.Subset.refl _
      -- without another evaluation `allow_promote` is what was picked, or nothing
      have hsettle : Sound { w with
          written := w.newSetting c
          phase := if w.newSetting c ≠ w.written ∧ running ∧ ¬ (w.newSetting c).hasStar then
            .settle c else c.afterAssign } (.settle c) := by
        refine ⟨?_, hevaluated.confirmed⟩
        by_cases hskip : c.picked.Truthy ∧ ¬ c.allowPromote.Same c.picked
        · exact .inl hskip
        · right
          intro key hkey
          refine ⟨(hevaluated.listed key hkey).1, hnew key ?_⟩
          have hpicked := hevaluated.subset hkey
          have hsame : c.allowPromote.Same c.picked := by
            by_contra hdiffers
            have hempty : c.picked.keys = ∅ := by
              by_contra hne
              exact hskip ⟨(CaseInsensitiveSet.truthy_iff _).mpr hne, hdiffers⟩
            simp [hempty] at hpicked
          rw [Cycle.kept, if_pos hsame]
          exact hpicked
      constructor
      · intro key hkey
        exact ⟨(hinv.listed key hkey).1, hnew key (hcommon (hvoters hkey))⟩
      · dsimp only
        split
        · exact hsettle
        · exact sound_afterAssign hsettle
  · cases h

theorem settle_inv {w w' : Leader ν} {lastOperation : ℕ} (h : w.settle lastOperation = some w')
    (hinv : w.Inv) : w'.Inv := by
  rw [settle] at h
  split at h
  · next c hphase =>
      obtain rfl := Option.some.inj h
      have hsound := hinv.sound
      rw [hphase] at hsound
      exact ⟨hinv.listed, sound_afterAssign ⟨hsound.1, hsound.2⟩⟩
  · cases h

/-- A key of somebody else has no voters under the name of this leader. -/
theorem interfere_inv {w w' : Leader ν} {value : Option (SyncState ν)}
    (h : w.interfere value = some w') (hinv : w.Inv) : w'.Inv := by
  have hnone : ∀ w'' : Leader ν, w''.name = w.name → w''.majorVersion = w.majorVersion →
      w''.confirmed = w.confirmed → w''.effective = w.effective → w''.written = w.written →
      w''.phase = w.phase → w''.ownVoters = ∅ → w''.Inv := by
    intro w'' hname hversion hconfirmed heffective hwritten hphase hown
    refine ⟨hown ▸ w''.listed_empty, hphase ▸ hinv.sound.mono hname hversion hconfirmed ?_ ?_⟩
    · intro nodes hnodes key hkey
      rw [heffective, hwritten]
      exact hnodes key hkey
    · rw [hown]
      exact Finset.empty_subset _
  cases value with
  | none =>
      obtain rfl := Option.some.inj h
      exact hnone _ rfl rfl rfl rfl rfl rfl rfl
  | some value =>
      rw [interfere] at h
      split at h
      · cases h
      · next hleader =>
          obtain rfl := Option.some.inj h
          exact hnone _ rfl rfl rfl rfl rfl rfl (if_neg hleader)

theorem step_inv {l : Label ν} {w w' : Leader ν} (hcovered : Covered l w)
    (h : step l w = some w') (hinv : w.Inv) : w'.Inv := by
  cases l with
  | start config => exact start_inv h hinv
  | evaluate reading => exact evaluate_inv h hinv
  | write answer => exact write_inv h hinv
  | assign running => exact assign_inv h hcovered hinv
  | settle lastOperation => exact settle_inv h hinv
  | reload =>
      obtain rfl := Option.some.inj h
      have hlisted : ∀ nodes, w.Listed nodes →
          Listed { w with effective := w.written } nodes := fun nodes hnodes key hkey =>
        ⟨(hnodes key hkey).2, (hnodes key hkey).2⟩
      exact ⟨hlisted _ hinv.listed,
        hinv.sound.mono rfl rfl rfl hlisted (Finset.Subset.refl _)⟩
  | abort =>
      obtain rfl := Option.some.inj h
      exact ⟨hinv.listed, trivial⟩
  | crash =>
      obtain rfl := Option.some.inj h
      exact ⟨hinv.listed, trivial⟩
  | interfere value => exact interfere_inv h hinv

/-- Only a write adds voters, and it adds confirmed ones. -/
theorem added_confirmed {l : Label ν} {w w' : Leader ν} (h : step l w = some w') (hinv : w.Inv)
    {key : ν} (hkey : key ∈ w'.ownVoters) (hnew : key ∉ w.ownVoters) : key ∈ w.confirmed.keys := by
  cases l with
  | write answer =>
      simp only [step, write] at h
      split at h
      · cases h
      · next request hrequest =>
          split at h
          · obtain rfl := Option.some.inj h
            exact absurd hkey hnew
          · split at h
            · obtain rfl := Option.some.inj h
              have hown := w.ownVoters_put request.voters
              exact (request_sound hinv.sound hrequest).2 (hown ▸ hkey)
            · cases h
  | interfere value =>
      simp only [step, interfere] at h
      split at h
      · obtain rfl := Option.some.inj h
        simp [ownVoters] at hkey
      · split at h
        · cases h
        · next hleader =>
            obtain rfl := Option.some.inj h
            simp [ownVoters, put, hleader] at hkey
  | start config =>
      simp only [step, start] at h
      split at h
      · split at h
        · obtain rfl := Option.some.inj h
          exact absurd hkey hnew
        · cases h
      · cases h
  | evaluate reading =>
      simp only [step, evaluate] at h
      split at h
      · split at h
        · obtain rfl := Option.some.inj h
          exact absurd hkey hnew
        · obtain rfl := Option.some.inj h
          exact absurd hkey hnew
        · cases h
      · cases h
  | assign running =>
      simp only [step, assign] at h
      split at h
      · obtain rfl := Option.some.inj h
        exact absurd hkey hnew
      · cases h
  | settle lastOperation =>
      simp only [step, settle] at h
      split at h
      · obtain rfl := Option.some.inj h
        exact absurd hkey hnew
      · cases h
  | reload | abort | crash =>
      obtain rfl := Option.some.inj h
      exact absurd hkey hnew

/-! ## Runs -/

/-- In every run whose writes of the setting are covered, the voters of the key
are always nodes of the setting in effect, and every voter was confirmed when it
was added. -/
theorem voters_are_synchronous {w₀ w : Leader ν} {ls : List (Label ν)} (hinitial : w₀.Initial)
    (run : Run step Covered w₀ ls w) :
    (∀ key ∈ w.ownVoters, w.effective.Lists key) ∧
      ∀ l w', step l w = some w' →
        ∀ key ∈ w'.ownVoters, key ∉ w.ownVoters → key ∈ w.confirmed.keys := by
  have hstart : w₀.Inv := by
    constructor
    · rw [hinitial.2]
      exact w₀.listed_empty
    · rw [hinitial.1]
      trivial
  have hinv : w.Inv := run.invariant (fun _ _ _ => step_inv) hstart
  exact ⟨fun key hkey => (hinv.listed key hkey).1,
    fun l w' h key hkey hnew => added_confirmed h hinv hkey hnew⟩

/-- A leader with nothing in the key on a server of the given version. -/
def fresh (name : ν) (majorVersion : ℕ) : Leader ν where
  name := name
  majorVersion := majorVersion
  key := none
  revision := 0
  effective := .off
  written := .off
  handler := .init
  phase := .idle
  confirmed := ∅

/-- The first cycle of a leader, with one replica that becomes synchronous as
soon as the setting lists it. -/
def firstCycle (config : GlobalConfig) (replica : ν) : List (Label ν) :=
  [.start config, .write .applied, .evaluate ⟨0, [⟨1, replica, .async, 0, false⟩], 0⟩,
    .assign true, .reload, .settle 0, .evaluate ⟨0, [⟨1, replica, .sync, 0, false⟩], 0⟩,
    .write .applied]

/-- The replica of the first cycle is published. -/
theorem voters_are_synchronous_after_first_cycle :
    ∃ w, Run step Covered (fresh "a" 150000) (firstCycle ⟨.on, false, false, 1⟩ "c") w ∧
      w.ownVoters = {"c"} ∧ w.effective.Lists "c" := by
  obtain ⟨w, hw⟩ : ∃ w, execGuarded step Covered (firstCycle ⟨.on, false, false, 1⟩ "c")
      (fresh "a" 150000) = some w := Option.isSome_iff_exists.mp (by decide +kernel)
  have run := run_of_execGuarded hw
  have hvoters : w.ownVoters = {"c"} := by
    have hexec : (execGuarded step Covered (firstCycle ⟨.on, false, false, 1⟩ "c")
        (fresh "a" 150000)).map ownVoters = some {"c"} := by decide +kernel
    rw [hw] at hexec
    exact Option.some.inj hexec
  have hlisted := (voters_are_synchronous ⟨rfl, rfl⟩ run).1
  exact ⟨w, run, hvoters, hlisted "c" (by simp [hvoters])⟩

/-- On a server without several synchronous nodes a second replica, whose name
comes first, displaces the one that the key lists. -/
theorem old_server_in_quorum_mode_advertises_replaced_standby :
    let config : GlobalConfig := ⟨.quorum, false, false, 1⟩
    let second : List (Label String) :=
      [.start config,
        .evaluate ⟨0, [⟨1, "c", .sync, 0, false⟩, ⟨2, "b", .async, 0, false⟩], 0⟩,
        .assign true, .reload]
    ∃ w, Run step (fun _ _ => True) (fresh "a" 90500) (firstCycle config "c" ++ second) w ∧
      (fresh "a" 90500).Initial ∧ "c" ∈ w.ownVoters ∧ ¬ w.effective.Lists "c" := by
  intro config second
  obtain ⟨w, hw⟩ : ∃ w, exec step (firstCycle config "c" ++ second) (fresh "a" 90500) = some w :=
    Option.isSome_iff_exists.mp (by decide +kernel)
  have hend : (exec step (firstCycle config "c" ++ second) (fresh "a" 90500)).map
      (fun w => decide ("c" ∈ w.ownVoters ∧ ¬ w.effective.Lists "c")) = some true := by
    decide +kernel
  rw [hw] at hend
  exact ⟨w, run_of_exec hw (guarded_true _ _), ⟨rfl, rfl⟩,
    of_decide_eq_true (Option.some.inj hend)⟩

end Leader

end Multisync

end Metatroni
