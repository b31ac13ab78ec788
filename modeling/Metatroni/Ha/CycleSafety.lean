import Metatroni.Ha.Settling

/-!
# Safety of the cycles of the HA loop

Whatever a cycle is told, it submits a promotion only with the lock, gives up the lock only if its
database does not run as primary, and does not end with a primary that has no lock, unless it has
tried in vain to stop the database.
-/

namespace Metatroni

namespace HaCycle

open Interaction Interaction.Method
open Ledger

set_option synthInstance.maxSize 1024

variable {node : Node} {α β : Type} {F : Ledger → Prop}

/-! ## Bootstrap and recovery -/

def Bootstrapping (m : Ledger) : Prop := m.bootstrapping = true

instance steady_bootstrapping : Steady node Bootstrapping :=
  ⟨fun m e _ h => (Bool.or_eq_true (bootstraps e) m.bootstrapping).mpr (.inr h)⟩

theorem finishBootstrap_settles :
    Leads node (fun m => Settled node m ∧ Bootstrapping m) (finishBootstrap node)
      fun _ => Settled node := by
  have hactivate : Leads node (fun m => Settled node m ∧ Bootstrapping m) (ask .watchdogActivate)
      fun _ => Settled node :=
    .ask (fun _ _ h => .inr h.holds.2)
      (fun _ _ h _ => ⟨h.granted, Settled.step node h.holds.1 rfl rfl⟩)
      fun _ m h _ => ⟨h.granted, trivial⟩
  have htake : Leads node (Settled node) (ask .takeLeader)
      fun _ m => Settled node m ∧ Granted m :=
    leads_ask node _ fun m _ h => ⟨(calm_settled node).step m _ rfl h _, rfl⟩
  have hleader : Leads node (fun m => Settled node m ∧ Granted m) (setIsLeader true)
      fun _ => Settled node := setIsLeader_true_leads
  exact (leads_of_keeps node _).bind fun _ => hactivate.bind fun _ => (keeps_settled _).bind
    fun _ => (keeps_settled _).bind fun _ => (keeps_settled _).bind fun _ => (keeps_settled _).bind
    fun _ => (keeps_settled _).bind fun _ => (keeps_settled _).bind fun _ => htake.bind fun _ =>
    hleader.bind fun _ => keeps_settled _

theorem postBootstrap_settles :
    Leads node (fun m => Settled node m ∧ Bootstrapping m) (postBootstrap node)
      fun _ => Settled node := by
  refine (leads_of_keeps node _).bind fun _ => (leads_of_keeps node _).bind fun _ =>
    (leads_of_keeps node _).bind fun _ => Triple.ite (fun _ => ?_) fun _ => finishBootstrap_settles
  exact (keeps_settled _).mono node (fun _ h => h.1) fun _ _ h => h

theorem postRecover_leads : Leads node Any (postRecover node) (Early node Any) := by
  refine isRunning_leads.bind fun b => Triple.ite (fun hb => ?_)
    fun _ => leads_pure node fun _ _ => trivial
  refine Leads.mono node (F := Excused) ?_ (fun _ h => h hb) fun _ _ h => h
  refine (leads_of_keeps node _).bind fun _ => (leads_of_keeps node _).bind fun _ =>
    Triple.ite (fun _ => ?_) fun _ => return_early _
  exact (leads_of_keeps node _).bind fun _ => (leads_of_keeps node _).bind fun _ =>
    (leads_of_keeps node _).bind fun _ => return_early _

/-- A Raft node that has just started does not look at its database. -/
def Closed (node : Node) (msg : String) (m : Ledger) : Prop :=
  msg = "started as a secondary" ∨ Settled node m

theorem handleRecovering_leads :
    Leads node Any (handleRecovering node) fun r m => r.elim True fun msg => Closed node msg m := by
  have hpost : Leads node Any (do if ← ask .rewindIsNeeded then return none else postRecover node)
      (Early node Any) := (leads_of_keeps node _).bind fun _ =>
    Triple.ite (fun _ => leads_pure node fun _ _ => trivial) fun _ => postRecover_leads
  refine (leads_of_keeps node _).bind fun _ => Triple.ite (fun _ => ?_) fun _ =>
    leads_pure node fun _ _ => trivial
  refine (leads_of_keeps node _).bind fun _ => ?_
  refine Triple.orElse (R := fun r => Inv (Early node Any r)) (hpost.bind fun r => ?_)
    ((leads_of_keeps (F := Any) node _).bind fun _ => (leads_of_keeps node _).bind fun _ =>
      (leads_of_keeps node _).bind fun _ => (leads_of_keeps node _).bind fun unlocked =>
        leads_pure node fun _ _ => ?_) fun r _ _ h => h.mono fun h => ?_
  · cases r with
    | none => exact leads_pure node fun _ h => h
    | some _ => exact leads_pure node fun _ h => h
  · split
    · exact .inl rfl
    · trivial
  · cases r with
    | none => trivial
    | some _ => exact .inr h

/-- The database is down, and the node has the lock if there is a timeout. -/
def Down (timeout : Option ℤ) (m : Ledger) : Prop := Excused m ∧ (timeout.isSome = true → Held m)

instance calm_down (timeout : Option ℤ) : Calm node (Down timeout) :=
  ⟨fun m op hop h answer => ⟨(steady_excused node).step m _
      (submits_of_harmless (harmless_of_neutral hop) _) h.1,
    fun ht => (calm_held node).step m op hop (h.2 ht) answer⟩⟩

theorem recoverLock_leads :
    Leads node Excused (recoverLock node) fun r m => r.elim (fun timeout => Down timeout m)
      fun _ => Settled node m := by
  have hlock : Leads node Excused (both (hasLock node) (updateLock false))
      fun b m => Excused m ∧ (b = true → Held m) := by
    refine (leads_of_keeps node _).bind fun b => Triple.ite (fun _ => updateLock_leads false)
      fun _ => leads_pure node fun _ h => ⟨h, fun h => absurd h Bool.false_ne_true⟩
  refine hlock.bind fun b => Triple.ite (fun hb => ?_) fun _ => ?_
  · refine Leads.mono node (F := fun m => Excused m ∧ Held m) ?_ (fun _ h => ⟨h.1, h.2 hb⟩)
      fun _ _ h => h
    refine (leads_of_keeps node _).bind fun timeout => (leads_of_keeps node _).bind fun _ =>
      Triple.ite (fun _ => ?_) fun _ => leads_pure node fun _ h => ⟨h.1, fun _ => h.2⟩
    exact ((leads_of_keeps (F := Excused) node _).mono node (fun _ h => h.1) fun _ _ h => h).bind
      fun _ => (demote_settles _).of_any.bind fun _ => leads_pure node fun _ h => h
  · exact leads_pure node fun _ h => ⟨h.1, fun h => absurd h Bool.false_ne_true⟩

/-- A crashed primary is started again only with the lock. -/
theorem startAfterCrash_leads (timeout : Option ℤ) (clusterState : Option String) :
    Leads node (Down timeout) (startAfterCrash timeout clusterState) (Early node Excused) := by
  cases h : truthy timeout with
  | none =>
      rw [startAfterCrash, h]
      exact leads_pure node fun _ h => h.1
  | some t =>
      have hsome : timeout.isSome = true := by
        cases timeout with
        | none => cases h
        | some _ => rfl
      have hstart : Leads node (Down timeout)
          (ask (.tryRunAsync "starting primary after failure" (.start t)))
          fun ret m => Held m ∧ (ret.isNone = false → Excused m) := by
        refine .ask (fun _ _ h => h.holds.2 hsome)
          (fun _ _ h ret => ⟨h.granted, h.holds.2 hsome, ?_⟩)
          fun _ _ h _ => ⟨h.granted, trivial⟩
        cases ret with
        | none => exact fun hret => absurd hret.symm Bool.false_ne_true
        | some _ => exact fun _ => h.holds.1
      rw [startAfterCrash, h]
      refine (leads_of_keeps node _).bind fun b => Triple.ite (fun _ => ?_) fun _ =>
        leads_pure node fun _ h => h.1
      refine hstart.bind fun ret => Triple.ite (fun _ => ?_) fun hret => ?_
      · exact ((leads_of_keeps (F := Held) node _).mono node (fun _ h => h.1) fun _ _ h => h).bind
          fun _ => leads_pure node fun _ h => .inr (.inl h)
      · exact leads_pure node fun _ h => h.2 (Bool.eq_false_iff.mpr hret)

theorem recoverDatabase_settles (needsRewind needsCrash : Bool) (timeout : Option ℤ) :
    Leads node (Down timeout) (recoverDatabase node needsRewind needsCrash timeout)
      fun _ => Settled node := by
  refine (leads_of_keeps node _).bind fun clusterState => ?_
  have hstart : Leads node (Down timeout)
      (if needsCrash then startAfterCrash timeout clusterState else pure none)
      (Early node Excused) :=
    Triple.ite (fun _ => startAfterCrash_leads timeout clusterState) fun _ =>
      leads_pure node fun _ h => h.1
  exact hstart.orElse (releasing_settles _)

theorem recover_settles : Leads node Excused (recover node) fun _ => Settled node := by
  refine (leads_of_keeps node _).bind fun needsRewind => (leads_of_keeps node _).bind
    fun needsCrash => recoverLock_leads.bind fun lock => ?_
  cases lock with
  | inl timeout => exact recoverDatabase_settles needsRewind needsCrash timeout
  | inr _ => exact leads_pure node fun _ h => h

/-! ## The database -/

theorem handleNoDataDirectory_settles (error : Option String) :
    Leads node Any (handleNoDataDirectory node error) fun _ => Settled node :=
  (leads_of_keeps node _).bind fun _ => stopImmediate_leads.bind fun _ => releasing_settles _

theorem handleSysidMismatch_leads :
    Leads node Any (handleSysidMismatch node) (Early node Any) := by
  refine isPaused_leads.bind fun paused => Triple.ite (fun hpaused => ?_) fun _ =>
    .raise fun _ _ h => h.any
  refine Leads.mono node (F := Excused) ?_ (fun _ h => h hpaused) fun _ _ h => h
  refine (leads_of_keeps node _).bind fun _ => Triple.ite (fun _ => ?_) fun _ =>
    leads_pure node fun _ _ => trivial
  exact (leads_of_keeps node _).bind fun _ => return_early _

theorem checkSysid_leads : Leads node Any (checkSysid node) (Early node Any) := by
  have hnone : ∀ {F : Ledger → Prop}, Leads node F (pure none : Method (Option String))
      (Early node Any) := leads_pure node fun _ _ => trivial
  have hsysid : Leads node Any (ask .sysid) fun sysid m =>
      node.sysidValid sysid = false ∧ node.requiresSysidMatch = true → Settled node m := by
    refine leads_ask node _ fun m sysid _ h => .inr (.inr (.inl ?_))
    rw [step, clears, h.1, h.2]
    rfl
  refine hsysid.bind fun sysid => Triple.ite (fun h => leads_pure node fun _ hm => hm h) fun _ => ?_
  refine Leads.of_any ((leads_of_keeps node _).bind fun s => Triple.ite (fun _ =>
    Triple.ite (fun _ => handleSysidMismatch_leads) fun _ => hnone) fun _ => ?_)
  exact (leads_of_keeps node _).bind fun _ => Triple.ite (fun _ =>
    (leads_of_keeps (F := Any) node _).bind fun _ => hnone) fun _ => hnone

instance keeps_handleStoppedPaused :
    Keeps (ledger node) (Inv Excused) (handleStoppedPaused node) := by
  unfold handleStoppedPaused
  infer_instance

theorem handleStopped_settles : Leads node Excused (handleStopped node) fun _ => Settled node := by
  refine Triple.orElse (R := fun _ => Inv Excused) (leads_of_keeps node _)
    ((leads_of_keeps node _).bind fun _ => (leads_of_keeps node _).bind fun _ => recover_settles)
    fun _ _ _ h => ?_
  exact h.mono fun h => .inl (.inr (.inl h))

theorem processCluster_settles :
    Leads node Any (processCluster node) fun _ => Settled node := by
  have hprocess : Leads node Any (do
      if ← isUnlocked then processUnhealthyCluster node
      else do
        let msg ← processHealthyCluster node
        return (← ask .evaluateScheduledRestart).getD msg) fun _ => Settled node :=
    (leads_of_keeps node _).bind fun _ => Triple.ite (fun _ => processUnhealthyCluster_settles)
      fun _ => processHealthyCluster_settles.bind fun _ => keeps_settled _
  exact hprocess.bind fun _ => keeps_settled _

theorem processDatabase_settles :
    Leads node Any (processDatabase node) fun _ => Settled node := by
  have hhealthy : Leads node Any (negate (ask .isHealthy)) fun b m => b = true → Excused m :=
    Triple.negate (leads_ask node _ fun m healthy _ h => by
      rw [Bool.not_eq_eq_eq_not.mp h]
      exact .inl rfl)
  refine checkSysid_leads.orElse (hhealthy.bind fun b => Triple.ite (fun hb => ?_) fun _ => ?_)
  · exact handleStopped_settles.mono node (fun _ h => h hb) fun _ _ h => h
  · exact processCluster_settles.of_any

/-! ## The cycle -/

theorem Leads.closed {x : Method String} (h : Leads node F x fun _ => Settled node) :
    Leads node F x (Closed node) := h.mono node (fun _ h => h) fun _ _ h => .inr h

theorem processIdle_leads : Leads node Any (processIdle node) (Closed node) := by
  have hbootstrapping : Leads node Any (ask .bootstrapping)
      fun b m => b = true → Settled node m ∧ Bootstrapping m :=
    leads_ask node _ fun m b _ hb => by
      rw [hb]
      exact ⟨.inr (.inr (.inl rfl)), rfl⟩
  refine hbootstrapping.bind fun b => Triple.ite (fun hb => ?_) fun _ => ?_
  · exact (postBootstrap_settles.mono node (fun _ h => h hb) fun _ _ h => h).closed
  · refine Triple.orElse handleRecovering_leads.of_any
      ((leads_of_keeps (F := Any) node _).of_any.bind fun isEmpty => ?_) fun _ _ _ h => h
    cases isEmpty with
    | error error => exact (handleNoDataDirectory_settles _).of_any.closed
    | ok isEmpty =>
        cases isEmpty with
        | true => exact (handleNoDataDirectory_settles _).of_any.closed
        | false => exact processDatabase_settles.of_any.closed

theorem handlePause_leads : Leads node Any handlePause fun _ => Any := by
  refine isPaused_leads.bind fun paused => Triple.ite (fun hpaused => ?_) fun _ => ?_
  · exact (leads_of_keeps (F := Excused) node _).mono node (fun _ h => h hpaused)
      fun _ _ _ => trivial
  · exact (leads_of_keeps (F := Any) node _).of_any

theorem tryCycle_leads : Leads node Any (tryCycle node) (Closed node) := by
  have hbusy : Leads node Any (ask .busy) fun busy m => busy = true → Acting m :=
    leads_ask node _ fun m busy _ h => by
      rw [h]
      rfl
  refine (leads_of_keeps node _).bind fun _ => handlePause_leads.bind fun _ =>
    (leads_of_keeps node _).bind fun _ => hbusy.bind fun busy =>
      Triple.ite (fun hb => ?_) fun _ => ?_
  · exact (handleLongActionInProgress_settles.mono node (fun _ h => h hb) fun _ _ h => h).closed
  refine Leads.of_any ?_
  exact Triple.orElse handleStartingInstance_leads processIdle_leads fun _ _ _ h =>
    h.mono fun h => .inr h

def Confirmed (m : Ledger) : Prop := m.confirmed = true

instance steady_confirmed : Steady node Confirmed :=
  ⟨fun m e _ h => (Bool.or_eq_true (confirms e) m.confirmed).mpr (.inr h)⟩

theorem handleDcsErrorOfPrimary_settles :
    Leads node Any (handleDcsErrorOfPrimary node) fun _ => Settled node := by
  have htopology : Leads node Any (both (ask .isFailsafeMode) (ask .checkFailsafeTopology))
      fun b m => b = true → (Settled node m ∧ Confirmed m) ∧ Granted m := by
    refine (leads_of_keeps node _).bind fun _ => Triple.ite (fun _ => leads_ask node _
      fun m ret _ h => ?_) fun _ => leads_pure node fun _ _ h => absurd h Bool.false_ne_true
    rw [h]
    exact ⟨⟨.inr (.inr (.inl rfl)), rfl⟩, rfl⟩
  have hleader : Leads node (fun m => (Settled node m ∧ Confirmed m) ∧ Granted m)
      (setIsLeader true) fun _ m => Settled node m ∧ Confirmed m := setIsLeader_true_leads
  have hkeepalive : Leads node (fun m => Settled node m ∧ Confirmed m) (ask .watchdogKeepalive)
      fun _ => Settled node :=
    .ask (fun _ _ h => .inr h.holds.2)
      (fun _ m h _ => ⟨h.granted, h.holds.1⟩)
      fun _ m h _ => ⟨h.granted, trivial⟩
  refine htopology.bind fun b => Triple.ite (fun hb => ?_) fun _ => ?_
  · refine Leads.mono node (F := fun m => (Settled node m ∧ Confirmed m) ∧ Granted m) ?_
      (fun _ h => h hb) fun _ _ h => h
    exact hleader.bind fun _ => (leads_of_keeps node _).bind fun _ => (leads_of_keeps node _).bind
      fun _ => hkeepalive.bind fun _ => keeps_settled _
  · exact (leads_of_keeps (F := Any) node _).of_any.bind fun _ => (demote_settles _).of_any.bind
      fun _ => leads_pure node fun _ h => h

/-- Without a DCS, no primary goes on unless all members confirm that it is the leader. -/
theorem handleDcsError_settles :
    Leads node Any (handleDcsError node) fun _ => Settled node := by
  have hpaused : Leads node Any (negate (ask .isPaused)) fun b m => b = false → Excused m :=
    Triple.negate (isPaused_leads.mono node (fun _ h => h)
      fun _ _ h hb => h (Bool.not_eq_eq_eq_not.mp hb))
  have hrunning : Leads node Any (both (negate (ask .isPaused)) (ask .isRunning))
      fun b m => b = false → Excused m := by
    refine hpaused.bind fun b => Triple.ite (fun _ => leads_ask node _ fun m running _ h => ?_)
      fun hb => leads_pure node fun _ h _ => h (Bool.eq_false_iff.mpr hb)
    rw [h]
    exact .inl rfl
  refine hrunning.bind fun b => Triple.ite (fun _ => ?_) fun hb => ?_
  · refine isPrimary_leads.bind fun primary => Triple.ite (fun _ => ?_) fun h => ?_
    · exact handleDcsErrorOfPrimary_settles.of_any
    · exact (releasing_settles _).mono node (fun _ hm => hm (Bool.eq_false_iff.mpr h))
        fun _ _ h => h
  · exact (releasing_settles _).mono node (fun _ hm => hm (Bool.eq_false_iff.mpr hb)) fun _ _ h => h

/-- The texts of the cycles that end without a look at the database, and the others. -/
def Concluded (node : Node) (msg : String) (m : Ledger) : Prop :=
  msg = "Error communicating with PostgreSQL. Will try again later" ∨ Closed node msg m

theorem concludeCycle_ok (info : String) :
    Leads node (Closed node info) (concludeCycle node (.ok info)) (Concluded node) := by
  by_cases h : info = "started as a secondary"
  · exact (leads_of_keeps (F := Any) node finallyCycle).of_any.bind fun _ =>
      leads_pure node fun _ _ => .inr (.inl h)
  · refine Leads.mono node (F := Settled node) ?_ (fun _ hm => hm.resolve_left h) fun _ _ h => h
    exact (keeps_settled _).bind fun _ => leads_pure node fun _ h => .inr (.inr h)

theorem concludeCycle_error (e : PyException) :
    Leads node Any (concludeCycle node (.error e)) (Concluded node) := by
  have hraise : Leads node Any (do
      finallyCycle
      raise e : Method String) (Concluded node) :=
    (leads_of_keeps node _).bind fun _ => .raise fun _ _ h => h.any
  cases e with
  | dcsError =>
      exact handleDcsError_settles.mono node (fun _ h => h) fun _ _ h => .inr (.inr h)
  | postgresError =>
      exact (leads_of_keeps node _).bind fun _ => leads_pure node fun _ _ => .inl rfl
  | patroniFatal => exact hraise
  | systemExit => exact hraise
  | other => exact hraise

theorem runCycleBody_leads : Leads node Any (runCycleBody node) (Concluded node) := by
  have htry : Leads node Any (attempt (tryCycle node))
      fun result m => ∀ info, result = .ok info → Closed node info m := by
    refine Triple.attempt (Triple.mono tryCycle_leads (fun _ _ h => h) (fun a _ _ h => ?_)
      fun e _ _ h => ?_)
    · exact h.mono fun h info heq => Except.ok.inj heq ▸ h
    · exact h.mono fun _ info heq => absurd heq (by simp)
  refine htry.bind fun result => ?_
  cases result with
  | ok info => exact (concludeCycle_ok info).mono node (fun _ h => h info rfl) fun _ _ h => h
  | error e => exact (concludeCycle_error e).of_any

theorem runCycle_leads : Leads node Any (runCycle node) fun _ => Any := by
  refine Triple.handle (D := fun _ => Inv Any) (runCycleBody_leads.bind fun _ =>
    (leads_of_keeps (F := Any) node _).of_any) fun _ => Triple.ite (fun _ => ?_) fun _ => ?_
  · exact .raise fun _ _ h => h
  · exact leads_pure node fun _ h => h

/-! ## Executions -/

def alone : Node := ⟨"a", false, true, false, Char.isDigit⟩

/-- The answers in a cluster of one node where nothing happens. -/
def quiet (leader : Option Leader) (paused primary : Bool) :
    (op : Call) → Except PyException (Result op)
  | .getCluster => .ok ⟨some "1234567890", true, leader, ["a"], none, false⟩
  | .acquireLeaderLock | .updateLeader .. | .isHealthiestNode | .watchdogIsRunning => .ok true
  | .processSyncReplicationPrepromote | .isHealthy | .isRunning | .touchMember => .ok true
  | .cbCalled => .ok true
  | .isPaused => .ok paused
  | .isPrimary => .ok primary
  | .checkForStartup | .bootstrapping | .busy | .isFailsafeMode | .isStandbyCluster => .ok false
  | .isStarting | .failsafeIsActive | .isSynchronousMode | .nofailover => .ok false
  | .dataDirectoryEmpty => .ok (.ok false)
  | .sysid => .ok (some "1234567890")
  | .asyncResponseResult | .scheduledAction | .tryRunAsync .. => .ok none
  | .evaluateScheduledRestart | .permanentSlots => .ok none
  | .syncReplicationSlots => .ok []
  | .time => .ok 100
  | .ttl | .loopWait => .ok 30
  | .lastOperation => .ok 0
  | .role => .ok .replica
  | .updateGlobalConfig | .resetClusterInfoState _ | .watchdogDisable => .ok ()
  | .watchdogKeepalive | .asyncResponseReset | .failsafeSetIsActive _ => .ok ()
  | .resetLastTimeline | .deleteLeader _ | .resetCluster | .setState _ | .setRole _ => .ok ()
  | .ensureCheckpointAfterPromote | .processSyncReplication | .updateClusterHistory => .ok ()
  | .syncMetaData => .ok ()
  | _ => .error .other

/-- The calls and the result of a cycle with these answers. -/
def quietCycle (leader : Option Leader) (paused primary : Bool) :
    List Event × Except PyException String × Attributes :=
  (runCycle alone init).run (quiet leader paused primary)

theorem exec_split {p : Program Call Result PyException α} {es : List Event} {r : α}
    (h : p.Exec es r) {k : ℕ} {e : Event} (hk : es[k]? = some e) :
    p.Exec (es.take k ++ e :: es.drop (k + 1)) r := by
  obtain ⟨hlt, hget⟩ := List.getElem?_eq_some_iff.mp hk
  rw [← hget, ← List.drop_eq_getElem_cons hlt, List.take_append_drop]
  exact h

/-- What a cycle has been told in the course of some calls. -/
def ledgerAfter (node : Node) (s : Attributes) (es : List Event) : Ledger :=
  (ledger node).after (fresh (s.leaderExpiry ≠ 0)) es

theorem fresh_inv (s : Attributes) : Inv Any s (fresh (s.leaderExpiry ≠ 0)) := by
  refine ⟨?_, trivial⟩
  by_cases h : s.leaderExpiry = 0
  · exact .inl h
  · exact .inr (decide_eq_true h)

/-- What a node runs: its cycles, and the demotions that the executor runs. -/
inductive Activity
  | cycle
  | demotion (mode : DemoteMode)

/-- The calls of an activity, and the attributes after it. -/
def Activity.program (node : Node) (s : Attributes) :
    Activity → Program Call Result PyException Attributes
  | .cycle => (runCycle node s).bind fun r => .ret r.2
  | .demotion mode => (demote node mode s).bind fun r => .ret r.2

/-- The calls of an activity are allowed by what has been told before. -/
theorem Activity.wp (activity : Activity) (s : Attributes) :
    (activity.program node s).wp (ledger node) (fun _ _ => True) (fresh (s.leaderExpiry ≠ 0)) := by
  cases activity with
  | cycle =>
      exact Program.wp_bind.mpr
        (Program.wp_mono (fun _ _ _ => trivial) (runCycle_leads s _ (fresh_inv s)))
  | demotion mode =>
      exact Program.wp_bind.mpr
        (Program.wp_mono (fun _ _ _ => trivial) (demote_leads mode s _ (fresh_inv s)))

theorem Activity.allows {activity : Activity} {s s' : Attributes} {before after : List Event}
    {e : Event} (h : (activity.program node s).Exec (before ++ e :: after) s') :
    Allows node (ledgerAfter node s before) e.op :=
  (h.wp (activity.wp s)).1.guard

/-- A cycle submits a promotion only after it has got the lock, made sure of the watchdog and seen
that the database does not run as primary, and it starts a crashed primary only with the lock. -/
theorem promotion_needs_lock {s : Attributes} {before after : List Event} {e : Event}
    {r : Except PyException String × Attributes}
    (h : (runCycle node s).Exec (before ++ e :: after) r) (action : String) :
    (e.op = .tryRunAsync action .promote → MayPromote (ledgerAfter node s before)) ∧
      ∀ timeout, e.op = .tryRunAsync action (.start timeout) →
        (ledgerAfter node s before).held = true := by
  have hallows : Allows node (ledgerAfter node s before) e.op :=
    (h.wp (runCycle_leads s _ (fresh_inv s))).1.guard
  constructor
  · intro hop
    rw [hop] at hallows
    exact hallows
  · intro timeout hop
    rw [hop] at hallows
    exact hallows

theorem promotion_needs_lock_after_race :
    MayPromote (ledgerAfter alone init ((quietCycle none false false).1.take 32)) :=
  (promotion_needs_lock (e := ⟨.tryRunAsync "promote" .promote, .ok none⟩)
    (exec_split (Program.run_exec (quiet none false false) (runCycle alone init)) rfl)
    "promote").1 rfl

/-- A PostgreSQL node gives up its lock only after it has seen that its database does not run as
primary, or has stopped it, or in maintenance mode, or after the pre-promote script has failed, or
after it has tried in vain to stop the database. -/
theorem lock_is_kept_by_primary {activity : Activity} {s s' : Attributes}
    {before after : List Event} {e : Event}
    (h : (activity.program node s).Exec (before ++ e :: after) s') (hpg : node.isMySQL = false)
    {lastLsn : Option ℤ} (hop : e.op = .deleteLeader lastLsn) :
    (ledgerAfter node s before).Excused ∨ (ledgerAfter node s before).scriptFailed = true := by
  have hallows := Activity.allows h
  rw [hop] at hallows
  exact hallows.resolve_left (Bool.eq_false_iff.mp hpg)

/-- The calls of a cycle with the answers of `quiet`. -/
def quietEvents (leader : Option Leader) (paused primary : Bool) : List Event :=
  ((Activity.cycle.program alone init).run (quiet leader paused primary)).1

theorem lock_is_kept_by_primary_paused :
    (ledgerAfter alone init ((quietEvents (some ⟨"a", none⟩) true false).take 17)).Excused ∨
      (ledgerAfter alone init
        ((quietEvents (some ⟨"a", none⟩) true false).take 17)).scriptFailed = true :=
  lock_is_kept_by_primary (e := ⟨.deleteLeader none, .ok ()⟩)
    (exec_split (Program.run_exec (quiet (some ⟨"a", none⟩) true false)
      (Activity.cycle.program alone init)) rfl) rfl rfl

/-- The watchdog is fed only with the lock, or if all members confirm the leader, and turned on only
with the lock or in a bootstrap. It is turned off only if the database does not run as primary, or
has been told to stop and its user backends have been waited for, or in maintenance mode, or after
the node has tried in vain to stop the database. -/
theorem watchdog_follows_lock {activity : Activity} {s s' : Attributes}
    {before after : List Event} {e : Event}
    (h : (activity.program node s).Exec (before ++ e :: after) s') :
    (e.op = .watchdogKeepalive →
      (ledgerAfter node s before).held = true ∨ (ledgerAfter node s before).confirmed = true) ∧
      (e.op = .watchdogActivate → (ledgerAfter node s before).held = true ∨
        (ledgerAfter node s before).bootstrapping = true) ∧
      (e.op = .watchdogDisable → (ledgerAfter node s before).MayDisable) := by
  have hallows := Activity.allows h
  refine ⟨fun hop => ?_, fun hop => ?_, fun hop => ?_⟩
  · rw [hop] at hallows
    exact hallows
  · rw [hop] at hallows
    exact hallows
  · rw [hop] at hallows
    exact hallows

theorem watchdog_follows_lock_updated :
    (ledgerAfter alone init ((quietEvents (some ⟨"a", none⟩) false true).take 18)).held = true ∨
      (ledgerAfter alone init
        ((quietEvents (some ⟨"a", none⟩) false true).take 18)).confirmed = true :=
  (watchdog_follows_lock (e := ⟨.watchdogKeepalive, .ok ()⟩)
    (exec_split (Program.run_exec (quiet (some ⟨"a", none⟩) false true)
      (Activity.cycle.program alone init)) rfl)).1 rfl

/-- A cycle of a PostgreSQL node ends with the lock, or there is a reason not to demote its
database, or it could not be demoted, unless the database cannot be asked or a Raft node has just
started. -/
theorem no_primary_without_lock {s s' : Attributes} {es : List Event} {info : String}
    (h : (runCycleBody node s).Exec es (.ok info, s')) (hpg : node.isMySQL = false)
    (hasked : info ≠ "Error communicating with PostgreSQL. Will try again later")
    (hraft : info ≠ "started as a secondary") :
    (ledgerAfter node s es).held = true ∨
      ((ledgerAfter node s es).Excused ∨ (ledgerAfter node s es).scriptFailed = true) ∨
      (ledgerAfter node s es).cleared = true ∨ (ledgerAfter node s es).refused = true := by
  rcases ((h.wp (runCycleBody_leads s _ (fresh_inv s))).2.holds.resolve_left
    hasked).resolve_left hraft with hrelease | hheld | hrest
  · exact .inr (.inl (hrelease.resolve_left (Bool.eq_false_iff.mp hpg)))
  · exact .inl hheld
  · exact .inr (.inr hrest)

/-- What a node has been told in the cycle after it has won the leader race. -/
def racedLedger : Ledger :=
  ledgerAfter alone init ((runCycleBody alone init).run (quiet none false false)).1

theorem no_primary_without_lock_after_race :
    racedLedger.held = true ∨ (racedLedger.Excused ∨ racedLedger.scriptFailed = true) ∨
      racedLedger.cleared = true ∨ racedLedger.refused = true :=
  no_primary_without_lock (Program.run_exec (quiet none false false) (runCycleBody alone init)) rfl
    (by decide) (by decide)

/-! ## Runs of cycles -/

/-- Runs of cycles and of demotions by the executor. Other threads change other attributes. -/
inductive Cycles (node : Node) : List Event → Attributes → Prop
  | init : Cycles node [] init
  | cycle {es es' : List Event} {s s' : Attributes} {r : Except PyException String}
      (h : Cycles node es s) (hexec : (runCycle node s).Exec es' (r, s')) :
      Cycles node (es ++ es') s'
  | demote {es es' : List Event} {s s' : Attributes} {mode : DemoteMode}
      {r : Except PyException (Option Bool)} (h : Cycles node es s)
      (hexec : (demote node mode s).Exec es' (r, s')) : Cycles node (es ++ es') s'
  | others {es : List Event} {s s' : Attributes} (h : Cycles node es s)
      (hs : s'.leaderExpiry = s.leaderExpiry) : Cycles node es s'

theorem after_append {m : Ledger} {es es' : List Event} :
    (ledger node).after m (es ++ es') = (ledger node).after ((ledger node).after m es) es' :=
  List.foldl_append

theorem Cycles.inv {es : List Event} {s : Attributes} (h : Cycles node es s) :
    Inv Any s ((ledger node).after (fresh false) es) := by
  induction h with
  | init => exact ⟨.inl rfl, trivial⟩
  | @cycle es es' s s' r _ hexec ih =>
      rw [after_append]
      have hend := (hexec.wp (runCycle_leads s _ ih)).2
      cases r with
      | ok _ => exact hend
      | error _ => exact hend
  | @demote es es' s s' mode r _ hexec ih =>
      rw [after_append]
      have hend := (hexec.wp (demote_leads mode s _ ih)).2
      cases r with
      | ok _ => exact hend.any
      | error _ => exact hend
  | others _ hs ih => exact ⟨hs ▸ ih.granted, trivial⟩

/-- The lock has been granted by some event, and no later event has taken it away. -/
theorem exists_grant {es : List Event} (h : ((ledger node).after (fresh false) es).granted = true) :
    ∃ before e after, es = before ++ e :: after ∧ grant e = some true ∧
      ∀ e' ∈ after, grant e' ≠ some false := by
  induction es using List.reverseRecOn with
  | nil => exact absurd h Bool.false_ne_true
  | append_singleton es e ih =>
      rw [after_append] at h
      change (grant e).getD ((ledger node).after (fresh false) es).granted = true at h
      cases hgrant : grant e with
      | none =>
          rw [hgrant] at h
          obtain ⟨before, e₀, after, rfl, he₀, hafter⟩ := ih h
          refine ⟨before, e₀, after ++ [e], by simp, he₀, fun e' he' => ?_⟩
          rcases List.mem_append.mp he' with he' | he'
          · exact hafter e' he'
          · rw [List.mem_singleton.mp he', hgrant]
            exact (Option.some_ne_none false).symm
      | some b =>
          rw [hgrant] at h
          exact ⟨es, e, [], rfl, hgrant.trans (congrArg some h), fun _ he => absurd he
            List.not_mem_nil⟩

/-- In every run, the node believes to be the leader only if it has been granted the lock, or has
been confirmed by all members, and since then it has neither given up the lock nor been refused. -/
theorem leadership_is_granted {es : List Event} {s : Attributes} (h : Cycles node es s)
    (hleader : s.leaderExpiry ≠ 0) :
    ∃ before e after, es = before ++ e :: after ∧ grant e = some true ∧
      ∀ e' ∈ after, grant e' ≠ some false :=
  exists_grant (h.inv.granted.resolve_left hleader)

theorem leadership_is_granted_updated :
    ∃ before e after, (quietCycle (some ⟨"a", none⟩) false true).1 = before ++ e :: after ∧
      grant e = some true ∧ ∀ e' ∈ after, grant e' ≠ some false :=
  leadership_is_granted (s := (quietCycle (some ⟨"a", none⟩) false true).2.2)
    (.cycle .init (Program.run_exec (quiet (some ⟨"a", none⟩) false true) (runCycle alone init)))
    (by decide +kernel)

end HaCycle

end Metatroni
