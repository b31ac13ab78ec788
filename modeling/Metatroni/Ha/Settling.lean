import Metatroni.Ha.Ledger

/-!
# What the parts of a cycle lead to

A part of a cycle leaves the lock alone, or it ends with the lock or with a reason not to demote the
database.
-/

namespace Metatroni

namespace HaCycle

open Interaction Interaction.Method
open Ledger

-- the instances of the longer functions consist of many others
set_option synthInstance.maxSize 1024

variable {node : Node} {α β : Type} {F : Ledger → Prop}

/-! ## Parts that leave the lock alone -/

section Calm

variable [Calm node F]

instance keeps_exceptException (x : Method α) (h : PyException → Method α)
    [Keeps (ledger node) (Inv F) x] [∀ e, Keeps (ledger node) (Inv F) (h e)] :
    Keeps (ledger node) (Inv F) (exceptException x h) := by
  unfold exceptException
  infer_instance

instance keeps_isUnlocked : Keeps (ledger node) (Inv F) isUnlocked := by
  unfold isUnlocked
  infer_instance

instance keeps_hasLock : Keeps (ledger node) (Inv F) (hasLock node) := by
  unfold hasLock
  infer_instance

instance keeps_isLeader : Keeps (ledger node) (Inv F) isLeader := by
  unfold isLeader
  infer_instance

instance keeps_failsafeConfig : Keeps (ledger node) (Inv F) failsafeConfig := by
  unfold failsafeConfig
  infer_instance

instance keeps_lockStatus : Keeps (ledger node) (Inv F) lockStatus := by
  unfold lockStatus
  infer_instance

instance keeps_primaryStopTimeout : Keeps (ledger node) (Inv F) primaryStopTimeout := by
  unfold primaryStopTimeout
  infer_instance

instance keeps_setIsLeader_false : Keeps (ledger node) (Inv F) (setIsLeader false) :=
  ⟨.update fun _ _ h => ⟨.inl rfl, h.holds⟩⟩

instance keeps_awaitStop_none (mode : String) (stopTimeout : Option ℤ) :
    Keeps (ledger node) (Inv F) (awaitStop mode .none stopTimeout) := by
  unfold awaitStop callOnShutdown
  infer_instance

instance keeps_concludeStop_none (mode : String) (stopTimeout : Option ℤ) (told : Option Bool) :
    Keeps (ledger node) (Inv F) (concludeStop mode .none stopTimeout told) := by
  unfold concludeStop
  infer_instance

instance keeps_doStop_none (mode : String) (checkpoint : Bool) (stopTimeout : Option ℤ) :
    Keeps (ledger node) (Inv F) (doStop mode checkpoint .none stopTimeout) := by
  unfold doStop
  infer_instance

instance keeps_stop_none (mode : String) (checkpoint : Bool) (stopTimeout : Option ℤ) :
    Keeps (ledger node) (Inv F) (stop mode checkpoint .none stopTimeout) := by
  unfold stop
  infer_instance

instance keeps_stopImmediate : Keeps (ledger node) (Inv F) (stopImmediate node) := by
  unfold stopImmediate
  infer_instance

instance keeps_loadClusterFromDcs : Keeps (ledger node) (Inv F) (loadClusterFromDcs node) := by
  unfold loadClusterFromDcs
  infer_instance

instance keeps_followAfterDemotion (mode : DemoteMode) :
    Keeps (ledger node) (Inv F) (followAfterDemotion mode) := by
  unfold followAfterDemotion
  infer_instance

instance keeps_startAfterDemotion (mode : DemoteMode) (role : PostgresqlRole) :
    Keeps (ledger node) (Inv F) (startAfterDemotion mode role) := by
  unfold startAfterDemotion
  infer_instance

instance keeps_reloadAfterDemotion : Keeps (ledger node) (Inv F) (reloadAfterDemotion node) := by
  unfold reloadAfterDemotion
  infer_instance

instance keeps_followMySQL : Keeps (ledger node) (Inv F) (followMySQL node) := by
  unfold followMySQL
  infer_instance

instance keeps_handleCrashRecovery : Keeps (ledger node) (Inv F) handleCrashRecovery := by
  unfold handleCrashRecovery
  infer_instance

instance keeps_rewindLeader : Keeps (ledger node) (Inv F) rewindLeader := by
  unfold rewindLeader
  infer_instance

instance keeps_runRewind (leader : String) : Keeps (ledger node) (Inv F) (runRewind leader) := by
  unfold runRewind
  infer_instance

instance keeps_handleRewindOrReinitialize :
    Keeps (ledger node) (Inv F) handleRewindOrReinitialize := by
  unfold handleRewindOrReinitialize
  infer_instance

instance keeps_followPaused (isPrimary : Bool) (nodeToFollow : Option Target) :
    Keeps (ledger node) (Inv F) (followPaused node isPrimary nodeToFollow) := by
  unfold followPaused
  infer_instance

instance keeps_rewindUnlessStarting : Keeps (ledger node) (Inv F) rewindUnlessStarting := by
  unfold rewindUnlessStarting
  infer_instance

instance keeps_isBehindLeader : Keeps (ledger node) (Inv F) isBehindLeader := by
  unfold isBehindLeader
  infer_instance

instance keeps_followChange (nodeToFollow : Option Target) (role : PostgresqlRole)
    (followReason : String) :
    Keeps (ledger node) (Inv F) (followChange nodeToFollow role followReason) := by
  unfold followChange
  infer_instance

instance keeps_followUpstream (nodeToFollow : Option Target) (followReason : String) :
    Keeps (ledger node) (Inv F) (followUpstream node nodeToFollow followReason) := by
  unfold followUpstream
  infer_instance

instance keeps_recoverCrash (clusterState : Option String) :
    Keeps (ledger node) (Inv F) (recoverCrash clusterState) := by
  unfold recoverCrash
  infer_instance

instance keeps_restartAfterFailure (nodeToFollow : Option Target) (role : PostgresqlRole)
    (timeout : Option ℤ) (msg : String) :
    Keeps (ledger node) (Inv F) (restartAfterFailure nodeToFollow role timeout msg) := by
  unfold restartAfterFailure
  infer_instance

instance keeps_recoverTarget : Keeps (ledger node) (Inv F) (recoverTarget node) := by
  unfold recoverTarget
  infer_instance

instance keeps_recoverRewind (needsRewind : Bool) :
    Keeps (ledger node) (Inv F) (recoverRewind needsRewind) := by
  unfold recoverRewind
  infer_instance

instance keeps_recoverFollow (needsRewind : Bool) (timeout : Option ℤ) :
    Keeps (ledger node) (Inv F) (recoverFollow node needsRewind timeout) := by
  unfold recoverFollow
  infer_instance

instance keeps_bootstrapCluster : Keeps (ledger node) (Inv F) bootstrapCluster := by
  unfold bootstrapCluster
  infer_instance

instance keeps_bootstrapWithoutLeader : Keeps (ledger node) (Inv F) bootstrapWithoutLeader := by
  unfold bootstrapWithoutLeader
  infer_instance

instance keeps_bootstrap : Keeps (ledger node) (Inv F) bootstrap := by
  unfold bootstrap
  infer_instance

instance keeps_cancelInitialization : Keeps (ledger node) (Inv F) (cancelInitialization node) := by
  unfold cancelInitialization
  infer_instance

instance keeps_runPostBootstrap : Keeps (ledger node) (Inv F) runPostBootstrap := by
  unfold runPostBootstrap
  infer_instance

instance keeps_cleanUpFailover : Keeps (ledger node) (Inv F) cleanUpFailover := by
  unfold cleanUpFailover
  infer_instance

instance keeps_handleMgrGtidFork : Keeps (ledger node) (Inv F) handleMgrGtidFork := by
  unfold handleMgrGtidFork
  infer_instance

instance keeps_runMgrCycleOfReplica : Keeps (ledger node) (Inv F) (runMgrCycleOfReplica node) := by
  unfold runMgrCycleOfReplica
  infer_instance

instance keeps_scheduledActionText : Keeps (ledger node) (Inv F) scheduledActionText := by
  unfold scheduledActionText
  infer_instance

instance keeps_interruptStart : Keeps (ledger node) (Inv F) interruptStart := by
  unfold interruptStart
  infer_instance

instance keeps_joinUninitialized (dataSysid : Option String) :
    Keeps (ledger node) (Inv F) (joinUninitialized node dataSysid) := by
  unfold joinUninitialized
  infer_instance

instance keeps_syncReplicationSlots (dcsFailed : Bool) :
    Keeps (ledger node) (Inv F) (syncReplicationSlots dcsFailed) := by
  unfold syncReplicationSlots
  infer_instance

instance keeps_finishCycle (ret : String) : Keeps (ledger node) (Inv F) (finishCycle ret) := by
  unfold finishCycle
  infer_instance

instance keeps_loadState : Keeps (ledger node) (Inv F) (loadState node) := by
  unfold loadState
  infer_instance

instance keeps_publish : Keeps (ledger node) (Inv F) (publish node) := by
  unfold publish
  infer_instance

instance keeps_finallyCycle : Keeps (ledger node) (Inv F) finallyCycle := by
  unfold finallyCycle
  infer_instance

instance keeps_shouldRunScheduledAction (scheduledAt : ScheduledAt) (cleanup : Method Unit)
    [Keeps (ledger node) (Inv F) cleanup] :
    Keeps (ledger node) (Inv F) (shouldRunScheduledAction scheduledAt cleanup) := by
  unfold shouldRunScheduledAction
  infer_instance

instance keeps_manualFailover (failover : Failover) :
    Keeps (ledger node) (Inv F) (manualFailover node failover) := by
  unfold manualFailover
  infer_instance

instance keeps_processManualFailoverFromLeader :
    Keeps (ledger node) (Inv F) (processManualFailoverFromLeader node) := by
  unfold processManualFailoverFromLeader
  infer_instance

end Calm

/-! ## Giving up the lock -/

/-- A condition under which the node may give up its lock. -/
class Releasing (node : Node) (F : Ledger → Prop) extends Steady node F where
  mayRelease : ∀ m, F m → MayRelease node m

instance releasing_excused : Releasing node Excused := ⟨fun _ h => .inr (.inl h)⟩

instance releasing_mayRelease : Releasing node (MayRelease node) := ⟨fun _ h => h⟩

/-- A condition under which the node may turn off its watchdog. -/
class Disabling (node : Node) (F : Ledger → Prop) extends Steady node F where
  mayDisable : ∀ m, F m → MayDisable m

instance disabling_excused : Disabling node Excused := ⟨fun _ h => .inl h⟩

instance disabling_mayDisable : Disabling node MayDisable := ⟨fun _ h => h⟩

instance keepsCall_watchdogDisable [hF : Disabling node F] :
    KeepsCall (ledger node) (Inv F) .watchdogDisable where
  guard := fun _ m h => hF.mayDisable m h.holds
  keeps := fun _ m h _ => ⟨h.granted, hF.step m _ rfl h.holds⟩

section Releasing

variable [hF : Releasing node F]

instance keeps_deleteLeader (lastLsn : Option ℤ) :
    Keeps (ledger node) (Inv F) (deleteLeader lastLsn) := by
  have hdelete : Triple (ledger node) (fun s m => s.leaderExpiry = 0 ∧ Inv F s m)
      (ask (.deleteLeader lastLsn)) (fun _ => Inv F) fun _ => Inv F :=
    .ask (fun _ m h => hF.mayRelease m h.2.holds)
      (fun _ m h _ => ⟨.inl h.1, hF.step m _ rfl h.2.holds⟩)
      fun _ m h _ => ⟨.inl h.1, hF.step m _ rfl h.2.holds⟩
  have hfalse : Triple (ledger node) (Inv F) (setIsLeader false)
      (fun _ s m => s.leaderExpiry = 0 ∧ Inv F s m) fun _ => Inv F :=
    .update fun _ _ h => ⟨rfl, .inl rfl, h.holds⟩
  exact ⟨hfalse.bind fun _ => hdelete.bind fun _ =>
    (inferInstance : Keeps (ledger node) (Inv F) (ask .resetCluster)).triple⟩

instance keeps_releaseLeaderKeyVoluntarily (lastLsn : Option ℤ) :
    Keeps (ledger node) (Inv F) (releaseLeaderKeyVoluntarily lastLsn) := by
  unfold releaseLeaderKeyVoluntarily
  infer_instance

instance keeps_onShutdown (mode : DemoteMode) (locations : ℤ × ℤ) :
    Keeps (ledger node) (Inv F) (onShutdown mode locations) := by
  unfold onShutdown
  infer_instance

instance keeps_lockAfterDemotion (mode : DemoteMode) (withArchive released : Bool) :
    Keeps (ledger node) (Inv F) (lockAfterDemotion mode withArchive released) := by
  unfold lockAfterDemotion
  infer_instance

instance keeps_demoteMySQL (mode : DemoteMode) :
    Keeps (ledger node) (Inv F) (demoteMySQL node mode) := by
  unfold demoteMySQL
  infer_instance

end Releasing

/-! ## Stopping -/

theorem isRunning_leads :
    Leads node F (negate (ask .isRunning)) fun b m => b = true → Excused m :=
  Triple.negate (leads_ask node _ fun m running _ h => by
    rw [Bool.not_eq_eq_eq_not.mp h]
    exact .inl rfl)

theorem leads_elim {G : α → Ledger → Prop} {r : Option β} {x : Method α} {f : β → Method α}
    (hx : Leads node F x G) (hf : ∀ b ∈ r, Leads node F (f b) G) :
    Leads node F (r.elim x f) G := by
  cases r with
  | none => exact hx
  | some b => exact hf b rfl

/-- What the callbacks of `stop` may rely on: the safepoint, or the database that is shut down. -/
structure Proper (node : Node) (callbacks : StopCallbacks) : Prop where
  beforeShutdown : ∀ x ∈ callbacks.beforeShutdown, Leads node Any x fun _ => Any
  onSafepoint : ∀ x ∈ callbacks.onSafepoint,
    (Leads node MayDisable x fun _ => Any) ∧ Leads node Excused x fun _ => Excused
  onShutdown : ∀ f ∈ callbacks.onShutdown, ∀ locations,
    Leads node Excused (f locations) fun _ => Excused

variable {callbacks : StopCallbacks}

theorem callOnShutdown_leads (h : Proper node callbacks) :
    Leads node Excused (callOnShutdown callbacks) fun _ => Excused := by
  have hfalse : Leads node Excused (pure false) fun _ => Excused := leads_pure node fun _ h => h
  exact (leads_of_keeps node _).bind fun _ => leads_elim hfalse fun f hf =>
    leads_elim hfalse fun _ _ => leads_elim hfalse fun _ _ => h.onShutdown f hf _

/-- The postmaster has ended, and before that `on_safepoint` and `on_shutdown` have been called. -/
theorem awaitStop_leads (h : Proper node callbacks) (mode : String) (stopTimeout : Option ℤ) :
    Leads node Any (awaitStop mode callbacks stopTimeout) fun _ => Excused := by
  have hbackends : Leads node Any (ask (.waitForUserBackendsToClose stopTimeout))
      fun _ => MayDisable := leads_ask node _ fun _ _ _ => .inr (.inl rfl)
  have hsafepoint : Leads node Any
      (callbacks.onSafepoint.elim (pure ()) fun onSafepoint => do
        ask (.waitForUserBackendsToClose stopTimeout)
        onSafepoint) fun _ => Any :=
    leads_elim (leads_pure node fun _ h => h) fun x hx => hbackends.bind fun _ =>
      (h.onSafepoint x hx).1
  have hwait : Leads node Any
      (if callbacks.onShutdown.isSome && (mode = "fast" || mode = "smart") then
        ask (.waitForShutDown stopTimeout) else pure .ended)
      fun wait m => wait = .shutDown → Excused m :=
    .ite (fun _ => leads_ask node _ fun m wait _ hwait => by
      rw [hwait]
      exact .inl rfl) fun _ => leads_pure node fun _ _ h => by cases h
  have hpostmaster : ∀ timeout, Leads node Any (ask (.waitForPostmaster timeout))
      fun _ => Excused := fun _ => leads_ask node _ fun _ _ _ => .inl rfl
  refine (leads_of_keeps node _).bind fun _ => hsafepoint.bind fun _ => hwait.bind fun wait => ?_
  refine Triple.bind (Q := fun _ => Inv Any) (.ite (fun hshut => ?_) fun _ =>
    leads_pure node fun _ _ => trivial) fun released => (hpostmaster _).bind fun _ =>
      leads_pure node fun _ h => h
  exact (callOnShutdown_leads h).mono node (fun _ hm => hm hshut) fun _ _ _ => trivial

theorem onSafepoint_leads (h : Proper node callbacks) :
    Leads node Excused (callbacks.onSafepoint.elim (pure ()) id) fun _ => Excused :=
  leads_elim (leads_pure node fun _ h => h) fun x hx => (h.onSafepoint x hx).2

/-- The database does not run, or it could not be told to stop. -/
theorem concludeStop_leads (h : Proper node callbacks) (mode : String) (stopTimeout : Option ℤ)
    (told : Option Bool) :
    Leads node (fun m => told.isSome = true → Excused m)
      (concludeStop mode callbacks stopTimeout told) fun _ => Excused := by
  cases told with
  | none =>
      exact ((awaitStop_leads h mode stopTimeout).mono node (fun _ _ => trivial)
        fun _ _ h => h).bind fun _ => leads_pure node fun _ h => h
  | some success =>
      refine Leads.mono node (F := Excused) ?_ (fun _ hm => hm rfl) fun _ _ h => h
      exact Triple.bind (.when (fun _ => onSafepoint_leads h) fun _ _ _ h => h) fun _ =>
        leads_pure node fun _ h => h

theorem doStop_leads (h : Proper node callbacks) (mode : String) (checkpoint : Bool)
    (stopTimeout : Option ℤ) :
    Leads node Any (doStop mode checkpoint callbacks stopTimeout) fun _ => Excused := by
  have hbefore : Leads node Any (callbacks.beforeShutdown.elim (pure ()) id) fun _ => Any :=
    leads_elim (leads_pure node fun _ h => h) h.beforeShutdown
  have hsignal : Leads node Any (ask (.signalStop mode))
      fun told m => told.isSome = true → Excused m := by
    refine leads_ask node _ fun m told _ htold => ?_
    obtain ⟨gone, rfl⟩ := Option.isSome_iff_exists.mp htold
    cases gone with
    | true => exact .inl rfl
    | false => exact .inr (.inr rfl)
  refine isRunning_leads.bind fun b => .ite (fun hb => ?_) fun _ => ?_
  · exact ((onSafepoint_leads h).mono node (fun _ hm => hm hb) fun _ _ h => h).bind fun _ =>
      leads_pure node fun _ h => h
  · refine Leads.mono node (F := Any) ?_ (fun _ _ => trivial) fun _ _ h => h
    exact (leads_of_keeps node _).bind fun _ => (leads_of_keeps node _).bind fun _ =>
      (leads_of_keeps node _).bind fun _ => (leads_of_keeps node _).bind fun _ =>
        hbefore.bind fun _ => hsignal.bind fun told => concludeStop_leads h mode stopTimeout told

theorem stop_leads (h : Proper node callbacks) (mode : String) (checkpoint : Bool)
    (stopTimeout : Option ℤ) :
    Leads node Any (stop mode checkpoint callbacks stopTimeout) fun _ => Excused :=
  (doStop_leads h mode checkpoint stopTimeout).bind fun _ => leads_of_keeps node _

theorem proper_none : Proper node .none := ⟨nofun, nofun, nofun⟩

theorem proper_demotionCallbacks (mode : DemoteMode) (withArchive isWatchdogRunning : Bool) :
    Proper node (demotionCallbacks mode withArchive isWatchdogRunning) := by
  constructor
  · intro x hx
    obtain ⟨-, ⟨⟩⟩ := Option.ite_none_right_eq_some.mp hx
    exact leads_of_keeps node _
  · intro x hx
    obtain ⟨-, ⟨⟩⟩ := Option.ite_none_right_eq_some.mp hx
    exact ⟨(leads_of_keeps (F := MayDisable) node _).mono node (fun _ h => h) fun _ _ _ => trivial,
      leads_of_keeps node _⟩
  · intro f hf locations
    obtain ⟨-, ⟨⟩⟩ := Option.ite_none_right_eq_some.mp hf
    exact leads_of_keeps node _

/-- The node may give up its lock and its watchdog. -/
def Stopped (node : Node) (m : Ledger) : Prop := MayDisable m ∧ MayRelease node m

instance disabling_stopped : Disabling node (Stopped node) where
  step := fun m e he h => ⟨(steady_mayDisable node).step m e he h.1,
    (steady_mayRelease node).step m e he h.2⟩
  mayDisable := fun _ h => h.1

instance releasing_stopped : Releasing node (Stopped node) := ⟨fun _ h => h.2⟩

theorem stopImmediate_leads : Leads node Any (stopImmediate node) fun _ => Stopped node := by
  refine (leads_of_keeps node _).bind fun _ => .ite (fun hmysql => ?_) fun _ => ?_
  · exact leads_ask node _ fun _ _ _ => ⟨.inr (.inr rfl), .inl hmysql⟩
  · exact (stop_leads proper_none _ _ _).bind fun _ =>
      leads_pure node fun _ h => ⟨.inl h, .inr (.inl h)⟩

/-! ## Demoting -/

theorem stopForDemotion_leads (mode : DemoteMode) (withArchive : Bool) :
    Leads node Any (stopForDemotion mode withArchive) fun _ => Excused :=
  (leads_of_keeps node _).bind fun _ => (leads_of_keeps node _).bind fun _ =>
    (stop_leads (proper_demotionCallbacks mode withArchive _) _ _ _).bind fun _ =>
      leads_pure node fun _ h => h

theorem demotePostgreSQL_leads (mode : DemoteMode) :
    Leads node Any (demotePostgreSQL mode) fun _ => Excused :=
  (leads_of_keeps node _).bind fun _ => (leads_of_keeps node _).bind fun _ =>
    (stopForDemotion_leads mode _).bind fun _ => leads_of_keeps node _

/-- Whatever the mode, a demotion stops a PostgreSQL database, or it has tried. -/
theorem demote_leads (mode : DemoteMode) :
    Leads node Any (demote node mode) fun _ => MayRelease node := by
  refine Triple.ite (fun hmysql => ?_) fun _ => ?_
  · exact (leads_of_keeps (F := MayRelease node) node _).mono _ (fun _ _ => .inl hmysql)
      fun _ _ h => h
  · exact (demotePostgreSQL_leads mode).mono _ (fun _ h => h) fun _ _ h => .inr (.inl h)

theorem Leads.settled {x : Method α} (h : Leads node F x fun _ => MayRelease node) :
    Leads node F x fun _ => Settled node := h.mono node (fun _ h => h) fun _ _ h => .inl h

theorem demote_settles (mode : DemoteMode) :
    Leads node Any (demote node mode) fun _ => Settled node := (demote_leads mode).settled

/-- A part that begins and ends with a database that is not to be demoted. -/
theorem releasing_settles [hF : Releasing node F] (x : Method α) [Keeps (ledger node) (Inv F) x] :
    Leads node F x fun _ => Settled node :=
  (leads_of_keeps node x).mono _ (fun _ h => h) fun _ _ h => .inl (hF.mayRelease _ h)

/-- What holds if a part of a function returns, and if it does not. -/
def Early (node : Node) (G : Ledger → Prop) (r : Option α) (m : Ledger) : Prop :=
  r.elim (G m) fun _ => Settled node m

theorem Leads.orElse {G : Ledger → Prop} {x : Method (Option α)} {y : Method α}
    (hx : Leads node F x (Early node G)) (hy : Leads node G y fun _ => Settled node) :
    Leads node F (orElse x y) fun _ => Settled node :=
  Triple.orElse hx hy fun _ _ _ h => h

/-- A part that returns only if it settles. -/
theorem Leads.early {G : Ledger → Prop} {x : Method α} (h : Leads node F x fun _ => Settled node)
    (f : α → β) : Leads node F (x >>= fun a => pure (some (f a))) (Early node G) :=
  h.bind fun _ => leads_pure node fun _ h => h

theorem return_early [hF : Releasing node F] {G : Ledger → Prop} (a : α) :
    Leads node F (pure (some a)) (Early node G) :=
  leads_pure node fun _ h => .inl (hF.mayRelease _ h)

/-! ## Following -/

theorem demoteUnlocked_settles : Leads node Any (demoteUnlocked node) fun _ => Settled node := by
  have hsubmit : Leads node Any
      (ask (.tryRunAsync "demoting to a standby cluster" (.demote .demoteCluster)))
      fun _ => Settled node :=
    leads_ask node _ fun m ret _ => by
      cases ret with
      | none => exact .inr (.inr (.inl rfl))
      | some _ => exact .inr (.inr (.inr rfl))
  refine (leads_of_keeps node _).bind fun _ => Triple.ite (fun _ => ?_) fun _ => ?_
  · exact hsubmit.bind fun _ => leads_of_keeps node _
  · exact (demote_settles _).bind fun _ => leads_of_keeps node _

theorem isPaused_leads :
    Leads node F (ask .isPaused) fun paused m => paused = true → Excused m :=
  leads_ask node _ fun m paused _ hpaused => by
    rw [hpaused]
    exact .inr (.inl rfl)

theorem isPrimary_leads :
    Leads node F (ask .isPrimary) fun primary m => primary = false → Excused m :=
  leads_ask node _ fun m primary _ hprimary => by
    rw [hprimary]
    exact .inl rfl

/-- No primary gets past the first part of `follow`, except in maintenance mode. -/
theorem followDemote_leads (isPrimary : Bool) (nodeToFollow : Option Target)
    (demoteReason : String) :
    Leads node (fun m => isPrimary = false → Excused m)
      (followDemote node isPrimary nodeToFollow demoteReason) (Early node Excused) := by
  have hpaused : Leads node (fun m => isPrimary = false → Excused m) (ask .isPaused)
      fun paused m => (isPrimary = false ∨ paused = true) → Excused m :=
    leads_ask node _ fun m paused h hor => by
      rcases hor with hfalse | hpaused
      · exact (steady_excused node).step m _ rfl (h hfalse)
      · rw [hpaused]
        exact .inr (.inl rfl)
  refine hpaused.bind fun paused => Triple.ite (fun hpaused => ?_) fun _ =>
    Triple.ite (fun _ => ?_) fun hprimary => ?_
  · have hkeep : Leads node Excused (followPaused node isPrimary nodeToFollow) fun _ => Excused :=
      leads_of_keeps node _
    refine Triple.mono hkeep (fun _ m h => h.mono fun h => h (.inr hpaused)) (fun r _ m h => ?_)
      fun _ _ _ h => h
    cases r with
    | none => exact h
    | some _ => exact h.mono fun h => .inl (.inr (.inl h))
  · exact Leads.early (demoteUnlocked_settles.mono _ (fun _ _ => trivial) fun _ _ h => h)
      fun _ => demoteReason
  · exact leads_pure node fun _ h => h (.inl (Bool.eq_false_iff.mpr hprimary))

/-- A node that follows has no primary. -/
theorem follow_settles (demoteReason followReason : String) (refresh : Bool) :
    Leads node Any (follow node demoteReason followReason refresh) fun _ => Settled node := by
  refine (leads_of_keeps node _).bind fun _ => isPrimary_leads.bind fun isPrimary => ?_
  have htarget : Leads node (fun m => isPrimary = false → Excused m) (ask .getNodeToFollow)
      fun _ m => isPrimary = false → Excused m := leads_ask node _ fun _ _ h => h
  exact htarget.bind fun nodeToFollow =>
    Leads.orElse (followDemote_leads isPrimary nodeToFollow demoteReason) (releasing_settles _)

/-! ## Leading -/

/-- The node has the lock, and the cluster is not a standby cluster. -/
def Ready (m : Ledger) : Prop := m.held = true ∧ m.standby = false

/-- The watchdog has been looked after, too. -/
def Guarded (m : Ledger) : Prop := Ready m ∧ (m.paused = true ∨ m.watchdog = true)

theorem checkWatchdog_leads : Leads node Ready (checkWatchdog node) (Early node Guarded) := by
  have hrunning : Leads node Ready (negate (ask .watchdogIsRunning)) fun b m =>
      Ready m ∧ (b = false → m.watchdog = true) :=
    Triple.negate (leads_ask node _ fun _ running h => ⟨h, fun hb => Bool.not_eq_eq_eq_not.mp hb⟩)
  have hactivate : Leads node Ready (negate (ask .watchdogActivate)) fun b m =>
      Ready m ∧ (b = false → m.watchdog = true) :=
    Triple.negate (.ask (fun _ _ h => .inl h.holds.1)
      (fun _ m h _ => ⟨h.granted, h.holds, fun hb => Bool.not_eq_eq_eq_not.mp hb⟩)
      fun _ m h _ => ⟨h.granted, trivial⟩)
  have hfailed : Leads node (fun m => Ready m ∧ m.watchdog = true) (ask .asyncResponseResult)
      fun result m => (result = some false → MayRelease node m) ∧ Guarded m :=
    leads_ask node _ fun m result h => ⟨fun hresult => by
      rw [hresult]
      exact .inr (.inr rfl), h.1, .inr h.2⟩
  refine (Triple.both hrunning (hactivate.mono _ (fun _ h => h.1) fun _ _ h => h)
    fun _ _ h => h).bind fun b => Triple.ite (fun _ => ?_) fun hb => ?_
  · refine Triple.bind isPrimary_leads fun primary => Triple.ite (fun _ => ?_) fun hprimary => ?_
    · exact Leads.early ((demote_settles _).mono _ (fun _ _ => trivial) fun _ _ h => h) fun _ => _
    · exact Leads.early ((releasing_settles _).mono _
        (fun _ h => h (Bool.eq_false_iff.mpr hprimary)) fun _ _ h => h) fun _ => _
  · refine (hfailed.mono _ (fun m h => ⟨h.1, h.2 (Bool.eq_false_iff.mpr hb)⟩)
      fun _ _ h => h).bind fun result => Triple.ite (fun hresult => ?_) fun _ => ?_
    · refine Leads.mono node (F := MayRelease node) ?_ (fun _ h => h.1 hresult) fun _ _ h => h
      exact (leads_of_keeps node _).bind fun _ => (leads_of_keeps node _).bind fun _ =>
        (leads_of_keeps node _).bind fun _ => (leads_of_keeps node _).bind fun _ => return_early _
    · exact leads_pure node fun _ h => h.2

theorem keeps_settled (x : Method α) [Keeps (ledger node) (Inv (Settled node)) x] :
    Leads node (Settled node) x fun _ => Settled node := leads_of_keeps node x

theorem held_settles (x : Method α) [Keeps (ledger node) (Inv Held) x] :
    Leads node Held x fun _ => Settled node :=
  (leads_of_keeps node x).mono _ (fun _ h => h) fun _ _ h => .inr (.inl h)

theorem hasPrimaryRole_leads {G : Ledger → Prop}
    (h : ∀ m role, G m → G (step node m ⟨.role, .ok role⟩)) :
    Leads node G hasPrimaryRole fun _ => G := by
  have hrole : Leads node G (ask .role) fun _ => G := leads_ask node _ h
  have hread : ∀ role, Leads node G (do return decide ((← ask .role) = role)) fun _ => G :=
    fun role => hrole.bind fun _ => leads_pure node fun _ h => h
  exact Triple.either (hread .primary) (hread .promoted) fun _ _ h => h

/-- A promotion is submitted. -/
theorem promote_settles (promoteMessage : String) :
    Leads node (fun m => Guarded m ∧ m.primary = false) (promote promoteMessage)
      fun _ => Settled node := by
  have hprepromote : Leads node (fun m => Guarded m ∧ m.primary = false)
      (negate (ask .processSyncReplicationPrepromote))
      fun b m => Held m ∧ (b = false → MayPromote m) :=
    Triple.negate (leads_ask node _ fun _ _ h => ⟨h.1.1.1, fun hb =>
      ⟨h.1.1.1, h.1.2, h.1.1.2, h.2, Bool.not_eq_eq_eq_not.mp hb⟩⟩)
  have hfailsafe : Leads node MayPromote (ask (.failsafeSetIsActive 0)) fun _ => MayPromote :=
    leads_ask node _ fun _ _ h => h
  have htimeline : Leads node MayPromote (ask .resetLastTimeline) fun _ => MayPromote :=
    leads_ask node _ fun _ _ h => h
  have hreset : Leads node MayPromote (ask .asyncResponseReset) fun _ => MayPromote :=
    leads_ask node _ fun _ _ h => h
  have hloopWait : Leads node MayPromote (ask .loopWait) fun _ => MayPromote :=
    leads_ask node _ fun _ _ h => h
  have hsubmit : Leads node MayPromote (ask (.tryRunAsync "promote" .promote)) fun _ => Held :=
    .ask (fun _ m h => h.holds)
      (fun _ m h _ => ⟨h.granted, h.holds.1⟩)
      fun _ m h _ => ⟨h.granted, trivial⟩
  refine hprepromote.bind fun b => Triple.ite (fun _ => ?_) fun hb => ?_
  · exact leads_pure node fun _ h => .inr (.inl h.1)
  · refine ((hasPrimaryRole_leads fun _ _ h => h).mono node
      (fun m h => h.2 (Bool.eq_false_iff.mpr hb)) fun _ _ h => h).bind fun hasRole => ?_
    refine Triple.bind (Q := fun _ => Inv Held) (Triple.when (fun _ => ?_) fun _ _ _ h =>
      h.mono fun h => h.1) fun _ => held_settles _
    exact hfailsafe.bind fun _ => htimeline.bind fun _ => hreset.bind fun _ =>
      hloopWait.bind fun _ => hsubmit.bind fun _ => leads_pure node fun _ h => h

theorem enforcePrimaryRole_settles (message promoteMessage : String) :
    Leads node Ready (enforcePrimaryRole node message promoteMessage) fun _ => Settled node := by
  have hpaused : Leads node Ready (ask .isPaused) fun paused m =>
      Ready m ∧ (paused = true → m.paused = true) :=
    leads_ask node _ fun _ _ h => ⟨h, fun hpaused => hpaused⟩
  have hprimary : Leads node Guarded (ask .isPrimary) fun primary m =>
      Guarded m ∧ (primary = false → m.primary = false) :=
    leads_ask node _ fun _ _ h => ⟨h, fun hprimary => hprimary⟩
  have hwatchdog : Leads node Ready (do if ← ask .isPaused then return none else checkWatchdog node)
      (Early node Guarded) :=
    hpaused.bind fun paused => Triple.ite
      (fun h => leads_pure node fun m hm => ⟨hm.1, .inl (hm.2 h)⟩)
      fun _ => checkWatchdog_leads.mono node (fun _ h => h.1) fun _ _ h => h
  refine hwatchdog.orElse (hprimary.bind fun primary => Triple.ite (fun _ => ?_) fun h => ?_)
  · exact (held_settles _).mono node (fun m h => h.1.1.1) fun _ _ h => h
  · refine ((hasPrimaryRole_leads fun _ _ h => h).mono node
      (fun m hm => ⟨hm.1, hm.2 (Bool.eq_false_iff.mpr h)⟩) fun _ _ h => h).bind fun _ =>
      Triple.ite (fun _ => ?_) fun _ => promote_settles promoteMessage
    exact (held_settles _).mono node (fun m h => h.1.1.1) fun _ _ h => h

/-! ## Taking the lock -/

def Granted (m : Ledger) : Prop := m.granted = true

instance calm_granted : Calm node Granted :=
  ⟨fun _ _ hop h answer => granted_step_of_harmless node (harmless_of_neutral hop) h answer⟩

theorem setIsLeader_true_leads [Calm node F] :
    Leads node (fun m => F m ∧ Granted m) (setIsLeader true) fun _ => F := by
  have hupdate : ∀ f : Attributes → Attributes,
      Leads node (fun m => F m ∧ Granted m) (update f) fun _ => F :=
    fun _ => .update fun _ _ h => ⟨.inr h.holds.2, h.holds.1⟩
  exact (leads_of_keeps node _).bind fun _ => (leads_of_keeps node _).bind fun _ => hupdate _

theorem exceptBug_leads {G : Bool → Attributes → Ledger → Prop} {x : Method Bool}
    (hx : Triple (ledger node) (Inv F) x G fun _ => Inv F)
    (hfalse : ∀ s m, Inv F s m → G false s m) :
    Triple (ledger node) (Inv F) (exceptBug x) G fun _ => Inv Any :=
  Triple.handle hx fun _ => Triple.ite (fun _ => .raise fun _ _ h => h.any) fun _ => .pure hfalse

/-- The lock is held if `acquire_lock` says so. -/
theorem acquireLock_leads : Leads node Any acquireLock fun ret m => ret = true → Held m := by
  have hask : Triple (ledger node) (Inv Any) (ask .acquireLeaderLock)
      (fun ret _ m => ret = true → Held m ∧ Granted m) fun _ => Inv Any :=
    .ask (fun _ _ _ => trivial) (fun _ _ _ _ hret => ⟨hret, hret⟩)
      fun _ m h _ => ⟨h.granted, trivial⟩
  refine Triple.bind (exceptBug_leads hask fun _ _ _ h => absurd h Bool.false_ne_true)
    fun ret => ?_
  cases ret with
  | false =>
      have hfalse : Triple (ledger node) (fun _ m => false = true → Held m ∧ Granted m)
          (setIsLeader false) (fun _ => Inv Any) fun _ => Inv Any :=
        .update fun _ _ _ => ⟨.inl rfl, trivial⟩
      exact hfalse.bind fun _ => leads_pure node fun _ _ h => absurd h Bool.false_ne_true
  | true =>
      have htrue : Leads node (fun m => Held m ∧ Granted m) (setIsLeader true) fun _ => Held :=
        setIsLeader_true_leads
      refine (Triple.mono htrue (fun _ m h => ?_) (fun _ _ _ h => h) fun _ _ _ h => h).bind
        fun _ => leads_pure node fun _ h _ => h
      exact ⟨.inr (h rfl).2, h rfl⟩

/-- The lock is held if `update_lock` says so. -/
theorem updateLock_leads [hF : Steady node F] (updateStatus : Bool) :
    Leads node F (updateLock updateStatus) fun ret m => F m ∧ (ret = true → Held m) := by
  have hask : ∀ lastLsn slots failsafe, Triple (ledger node) (Inv F)
      (ask (.updateLeader lastLsn slots failsafe))
      (fun ret => Inv fun m => F m ∧ (ret = true → Held m ∧ Granted m)) fun _ => Inv F := by
    intro lastLsn slots failsafe
    refine .ask (fun _ m _ => trivial)
      (fun _ m h ret => h.step node rfl ⟨hF.step m _ rfl h.holds, ?_⟩)
      fun _ m h _ => h.step node rfl (hF.step m _ rfl h.holds)
    rintro rfl
    exact ⟨rfl, rfl⟩
  have hfailsafe : Triple (ledger node) (Inv F) failsafeConfig (fun _ => Inv F) fun _ => Inv F :=
    (inferInstance : Keeps (ledger node) (Inv F) failsafeConfig).triple
  have hkeepalive : Leads node (fun m => F m ∧ Held m) (ask .watchdogKeepalive)
      fun _ m => F m ∧ Held m :=
    .ask (fun _ m h => .inl h.holds.2)
      (fun _ m h _ => ⟨h.granted, hF.step m _ rfl h.holds.1, h.holds.2⟩)
      fun _ m h _ => ⟨h.granted, trivial⟩
  refine (leads_of_keeps node _).bind fun status => ?_
  have hret : Leads node F
      (exceptBug do
        let failsafe ← failsafeConfig
        ask (.updateLeader status.1 status.2 failsafe))
      fun ret m => F m ∧ (ret = true → Held m ∧ Granted m) :=
    exceptBug_leads (hfailsafe.bind fun failsafe => hask _ _ failsafe)
      fun _ _ h => h.mono fun h => ⟨h, fun h => absurd h Bool.false_ne_true⟩
  refine hret.bind fun ret => ?_
  cases ret with
  | false =>
      have hwhen : Leads node F (when false (ask .watchdogKeepalive)) fun _ => F :=
        .when (fun h => absurd h Bool.false_ne_true) fun _ _ _ h => h
      refine ((leads_of_keeps (F := F) node (setIsLeader false)).mono node (fun _ h => h.1)
        fun _ _ h => h).bind fun _ => hwhen.bind fun _ => ?_
      exact leads_pure node fun _ h => ⟨h, fun h => absurd h Bool.false_ne_true⟩
  | true =>
      have htrue : Leads node (fun m => (F m ∧ Held m) ∧ Granted m) (setIsLeader true)
          fun _ m => F m ∧ Held m := setIsLeader_true_leads
      refine (htrue.mono node (fun _ h => ⟨⟨h.1, (h.2 rfl).1⟩, (h.2 rfl).2⟩)
        fun _ _ h => h).bind fun _ => hkeepalive.bind fun _ => ?_
      exact leads_pure node fun _ h => ⟨h.1, fun _ => h.2⟩

/-! ## The cluster -/

theorem isStandbyCluster_leads :
    Leads node Held (ask .isStandbyCluster) fun standby m => standby = false → Ready m :=
  leads_ask node _ fun _ _ h hstandby => ⟨h, hstandby⟩

/-- A part after which the database is looked at anyway. -/
theorem Leads.of_any {x : Method α} {G : α → Ledger → Prop} (h : Leads node Any x G) :
    Leads node F x G := h.mono node (fun _ _ => trivial) fun _ _ h => h

theorem processAcquired_settles :
    Leads node Held (processAcquired node) fun _ => Settled node := by
  refine (leads_of_keeps node _).bind fun _ => (leads_of_keeps node _).bind fun _ =>
    isStandbyCluster_leads.bind fun standby => Triple.ite (fun _ => ?_) fun h => ?_
  · exact (follow_settles _ _ _).of_any
  · exact (enforcePrimaryRole_settles _ _).mono node (fun m hm => hm (Bool.eq_false_iff.mpr h))
      fun _ _ h => h

theorem processNotHealthiest_settles :
    Leads node Any (processNotHealthiest node) fun _ => Settled node :=
  (leads_of_keeps node _).bind fun _ => (leads_of_keeps node _).bind fun _ =>
    (leads_of_keeps node _).bind fun _ =>
      Triple.ite (fun _ => follow_settles _ _ _) fun _ => follow_settles _ _ _

theorem processUnhealthyCluster_settles :
    Leads node Any (processUnhealthyCluster node) fun _ => Settled node := by
  refine (leads_of_keeps node _).bind fun _ => Triple.ite (fun _ => ?_) fun _ =>
    processNotHealthiest_settles
  refine acquireLock_leads.bind fun ret => Triple.ite (fun hret => ?_) fun _ => ?_
  · exact processAcquired_settles.mono node (fun _ h => h hret) fun _ _ h => h
  · exact (follow_settles _ _ _).of_any

/-- A MySQL node may give up its lock as a primary. -/
theorem runMgrCycleOfLeader_leads (hmysql : node.isMySQL = true) :
    Leads node Ready runMgrCycleOfLeader (Early node Ready) := by
  have hsettled : ∀ m, Settled node m := fun _ => .inl (.inl hmysql)
  have hcycle : Leads node Ready (ask (.runMgrCycle true)) fun _ => Ready :=
    leads_ask node _ fun _ _ h => h
  have hcheck : Leads node Ready (ask .runSemiSyncSafetyCheck) fun _ => Ready :=
    leads_ask node _ fun _ _ h => h
  have hrelease : Leads node (MayRelease node) (releaseLeaderKeyVoluntarily none)
      fun _ => MayRelease node := leads_of_keeps node _
  refine hcycle.bind fun action => Triple.ite (fun _ => ?_) fun _ => Triple.ite (fun _ => ?_)
    fun _ => ?_
  · exact (hrelease.mono node (fun _ _ => .inl hmysql) fun _ _ h => h).bind fun _ =>
      leads_pure node fun m _ => hsettled m
  · exact (leads_of_keeps (F := Any) node handleMgrGtidFork).of_any.bind fun _ =>
      leads_pure node fun m _ => hsettled m
  · cases (action.filter fun action => action ≠ "") with
    | none => exact hcheck.bind fun _ => leads_pure node fun _ h => h
    | some action => exact leads_pure node fun m _ => hsettled m

theorem processUpdated_settles :
    Leads node Held (processUpdated node) fun _ => Settled node := by
  have hmanual : Leads node Held (processManualFailoverFromLeader node) (Early node Held) := by
    refine (leads_of_keeps node _).mono node (fun _ h => h) fun r m h => ?_
    cases r with
    | none => exact h
    | some _ => exact .inr (.inl h)
  have hmgr : Leads node Ready (if node.isMySQL then runMgrCycleOfLeader else pure none)
      (Early node Ready) :=
    Triple.ite runMgrCycleOfLeader_leads fun _ => leads_pure node fun _ h => h
  refine hmanual.orElse ((leads_of_keeps node _).bind fun _ => isStandbyCluster_leads.bind
    fun standby => Triple.ite (fun _ => ?_) fun h => ?_)
  · exact (leads_of_keeps (F := Any) node (ask .role)).of_any.bind fun _ => follow_settles _ _ _
  · exact (hmgr.orElse (enforcePrimaryRole_settles _ _)).mono node
      (fun m hm => hm (Bool.eq_false_iff.mpr h)) fun _ _ h => h

theorem processNotUpdated_settles :
    Leads node Any (processNotUpdated node) fun _ => Settled node := by
  refine isPrimary_leads.bind fun primary => Triple.ite (fun _ => ?_) fun h => ?_
  · refine isPaused_leads.bind fun paused => Triple.ite (fun hpaused => ?_) fun _ => ?_
    · exact (releasing_settles _).mono node (fun _ h => h hpaused) fun _ _ h => h
    · exact (demote_settles _).of_any.bind fun _ => leads_pure node fun _ h => h
  · exact (releasing_settles _).mono node (fun _ hm => hm (Bool.eq_false_iff.mpr h)) fun _ _ h => h

theorem checkPausedLeader_leads : Leads node Any (checkPausedLeader node) (Early node Any) := by
  have hpaused : Leads node Any (both (ask .isPaused) (negate (ask .isPrimary)))
      fun b m => b = true → Excused m :=
    Triple.both isPaused_leads (Triple.negate (leads_ask node _ fun m primary h _ =>
      (steady_excused node).step m _ rfl (h rfl))) fun _ _ h => h.mono fun _ h =>
        absurd h Bool.false_ne_true
  refine hpaused.bind fun b => Triple.ite (fun hb => ?_) fun _ => ?_
  · refine Leads.mono node (F := Excused) ?_ (fun _ h => h hb) fun _ _ h => h
    refine (leads_of_keeps node _).bind fun _ => Triple.ite (fun _ => return_early _) fun _ =>
      (leads_of_keeps node _).bind fun _ => Triple.ite (fun _ => ?_) fun _ => ?_
    · exact (leads_of_keeps node _).bind fun _ => return_early _
    · exact leads_pure node fun _ _ => trivial
  · exact leads_pure node fun _ _ => trivial

theorem processLeader_settles : Leads node Any (processLeader node) fun _ => Settled node := by
  refine checkPausedLeader_leads.orElse ((updateLock_leads true).bind fun ret =>
    Triple.ite (fun hret => ?_) fun _ => processNotUpdated_settles.of_any)
  exact processUpdated_settles.mono node (fun _ h => h.2 hret) fun _ _ h => h

theorem processReplica_settles : Leads node Any (processReplica node) fun _ => Settled node := by
  have htype : Leads node Any (pure node.isMySQL) fun b _ => b = true → node.isMySQL = true :=
    leads_pure node fun _ _ h => h
  have hmysql : Leads node Any (both (pure node.isMySQL) (negate (ask .isStandbyCluster)))
      fun b _ => b = true → node.isMySQL = true :=
    Triple.both htype (Triple.negate (leads_ask node _ fun _ _ h _ => h rfl)) fun _ _ h => h
  have hmgr : Leads node Any (do
      if ← both (pure node.isMySQL) (negate (ask .isStandbyCluster)) then runMgrCycleOfReplica node
      else return none) (Early node Any) := by
    refine hmysql.bind fun b => Triple.ite (fun hb => ?_) fun _ =>
      leads_pure node fun _ _ => trivial
    intro s m h
    refine wp_mono (fun r _ _ h' => h'.mono fun _ => ?_) (fun _ _ _ h => h)
      (leads_of_keeps (F := Any) node (runMgrCycleOfReplica node) s m h.any)
    cases r with
    | none => trivial
    | some _ => exact .inl (.inl (h.holds hb))
  exact hmgr.orElse ((leads_of_keeps node _).bind fun _ => (leads_of_keeps node _).bind fun _ =>
    Triple.ite (fun _ => follow_settles _ _ _) fun _ => follow_settles _ _ _)

theorem processHealthyCluster_settles :
    Leads node Any (processHealthyCluster node) fun _ => Settled node :=
  (leads_of_keeps node _).bind fun _ =>
    Triple.ite (fun _ => processLeader_settles) fun _ => processReplica_settles

/-! ## Actions that take long -/

theorem handleLongActionOfLeader_settles :
    Leads node Held (handleLongActionOfLeader node) fun _ => Settled node := by
  refine (leads_of_keeps node _).bind fun action => Triple.ite (fun _ => ?_)
    fun _ => held_settles _
  refine (leads_of_keeps node _).bind fun _ => (leads_of_keeps node _).bind fun _ =>
    (leads_of_keeps node _).bind fun _ => (leads_of_keeps node _).bind fun _ =>
      Triple.ite (fun _ => ?_) fun _ => held_settles _
  exact (leads_of_keeps node _).bind fun _ => (demote_settles _).of_any.bind fun _ =>
    leads_pure node fun _ h => h

/-- An action has been found running. -/
def Acting (m : Ledger) : Prop := m.acting = true

instance steady_acting : Steady node Acting := ⟨fun _ _ _ h => or_of_right h⟩

theorem abortTransition_settles :
    Leads node Acting (abortTransition node) fun _ => Settled node := by
  have hcancel : Leads node Acting (both (do return (← ask .scheduledAction) = some "promote")
      (ask .asyncResponseCancel)) fun b m => Acting m ∧ (b = true → Settled node m) := by
    have hscheduled : Leads node Acting
        (do return decide ((← ask .scheduledAction) = some "promote")) fun _ => Acting :=
      leads_of_keeps node _
    refine hscheduled.bind fun b => Triple.ite (fun _ => leads_ask node _ fun m a h => ?_)
      fun _ => leads_pure node fun _ h => ⟨h, fun h => absurd h Bool.false_ne_true⟩
    refine ⟨(steady_acting : Steady node Acting).step m _ rfl h, fun ha => ?_⟩
    rw [ha]
    exact .inr (.inr (.inl rfl))
  have hrole : Leads node Acting (ask .role) fun role m => role ≠ .primary → Settled node m := by
    refine leads_ask node _ fun m role hm hrole => .inr (.inr (.inl ?_))
    have hclears : clears node m.acting ⟨.role, .ok role⟩ = true := by
      rw [clears, hm, decide_eq_true hrole]
      rfl
    exact (Bool.or_eq_true _ _).mpr (.inl hclears)
  have hearly : Leads node Acting (do
      if ← both (do return (← ask .scheduledAction) = some "promote") (ask .asyncResponseCancel)
      then do
        ask (.cancellableCancel false)
        return some "lost leader before promote"
      else return none) (Early node Acting) := by
    refine hcancel.bind fun b => Triple.ite (fun hb => ?_) fun _ => leads_pure node fun _ h => h.1
    refine Leads.mono node (F := Settled node) ?_ (fun _ h => h.2 hb) fun _ _ h => h
    exact (keeps_settled _).bind fun _ => leads_pure node fun _ h => h
  refine Triple.orElse (R := fun r => Inv (Early node Acting r)) (hearly.bind fun r => ?_) ?_
    fun _ _ _ h => h
  · cases r with
    | none => exact leads_pure node fun _ h => h
    | some _ => exact leads_pure node fun _ h => h
  · refine hrole.bind fun role => Triple.ite (fun _ => ?_) fun h => leads_pure node fun _ hm => hm h
    exact (leads_of_keeps (F := Any) node interruptStart).of_any.bind fun _ =>
      (demote_settles _).bind fun _ => keeps_settled _

theorem handleLongActionInProgress_settles :
    Leads node Acting (handleLongActionInProgress node) fun _ => Settled node := by
  have hlock : Leads node Acting (both (hasLock node) (updateLock false))
      fun b m => Acting m ∧ (b = true → Held m) :=
    (leads_of_keeps node _).bind fun b => Triple.ite (fun _ => updateLock_leads false) fun _ =>
      leads_pure node fun _ h => ⟨h, fun h => absurd h Bool.false_ne_true⟩
  have hbootstrapping : Leads node Acting (negate (ask .bootstrapping))
      fun b m => Acting m ∧ (b = false → Settled node m) :=
    Triple.negate (leads_ask node _ fun m bootstrapping hm =>
      ⟨(steady_acting : Steady node Acting).step m _ rfl hm, fun h => by
        rw [Bool.not_eq_eq_eq_not.mp h]
        exact .inr (.inr (.inl rfl))⟩)
  have hpaused : Leads node Acting (negate (ask .isPaused))
      fun b m => Acting m ∧ (b = false → Settled node m) :=
    Triple.negate (leads_ask node _ fun m paused hm =>
      ⟨(steady_acting : Steady node Acting).step m _ rfl hm, fun h => by
        rw [Bool.not_eq_eq_eq_not.mp h]
        exact .inl (.inr (.inl (.inr (.inl rfl))))⟩)
  have hcheck : Leads node Acting (do
      if ← both (negate (ask .bootstrapping)) (negate (ask .isPaused)) then abortTransition node
      else return none) fun _ => Settled node := by
    have hboth : Leads node Acting (both (negate (ask .bootstrapping)) (negate (ask .isPaused)))
        fun b m => Acting m ∧ (b = false → Settled node m) :=
      hbootstrapping.bind fun b => Triple.ite
        (fun _ => hpaused.mono node (fun _ h => h.1) fun _ _ h => h)
        fun hb => leads_pure node fun _ h => ⟨h.1, fun _ => h.2 (Bool.eq_false_iff.mpr hb)⟩
    refine hboth.bind fun b => Triple.ite (fun _ => ?_) fun hb => ?_
    · exact abortTransition_settles.mono node (fun _ h => h.1) fun _ _ h => h
    · exact leads_pure node fun _ h => h.2 (Bool.eq_false_iff.mpr hb)
  refine hlock.bind fun b => Triple.ite (fun hb => ?_) fun _ => ?_
  · exact handleLongActionOfLeader_settles.mono node (fun _ h => h.2 hb) fun _ _ h => h
  · exact Triple.orElse (R := fun _ => Inv (Settled node))
      (hcheck.mono node (fun _ h => h.1) fun _ _ h => h) (keeps_settled _) fun _ _ _ h => h

theorem handleStartingLeader_settles :
    Leads node Any (handleStartingLeader node) fun _ => Settled node := by
  have hlock : Leads node Any (negate (updateLock false)) fun b m => b = false → Held m :=
    Triple.negate ((updateLock_leads false).mono node (fun _ h => h)
      fun _ _ h hb => h.2 (Bool.not_eq_eq_eq_not.mp hb))
  refine hlock.bind fun b => Triple.ite (fun _ => ?_) fun hb => ?_
  · exact (demote_settles _).of_any.bind fun _ => leads_pure node fun _ h => h
  · refine Leads.mono node (F := Held) ?_ (fun _ h => h (Bool.eq_false_iff.mpr hb)) fun _ _ h => h
    refine (leads_of_keeps node _).bind fun _ => (leads_of_keeps node _).bind fun _ =>
      (leads_of_keeps node _).bind fun _ => Triple.ite (fun _ => ?_) fun _ => held_settles _
    refine (leads_of_keeps node _).bind fun _ => Triple.ite (fun _ => ?_) fun _ => held_settles _
    exact (demote_settles _).of_any.bind fun _ => leads_pure node fun _ h => h

theorem handleStartingInstance_leads :
    Leads node Any (handleStartingInstance node) (Early node Any) := by
  have hnone : Leads node Any (pure none : Method (Option String)) (Early node Any) :=
    leads_pure node fun _ _ => trivial
  refine (leads_of_keeps node _).bind fun _ => Triple.ite (fun _ => ?_) fun _ =>
    (leads_of_keeps node _).bind fun _ => Triple.ite (fun _ => ?_) fun _ => hnone
  · exact (leads_of_keeps node _).bind fun _ => (leads_of_keeps node _).bind fun _ =>
      (leads_of_keeps node _).bind fun _ => hnone
  · exact Leads.early handleStartingLeader_settles id

end HaCycle

end Metatroni
