import Metatroni.Ha.Cycle

/-!
# What a cycle has been told

A ledger of the answers that a cycle of the HA loop has received. It says when the cycle may submit
a promotion, give up the leader lock and tend to the watchdog.

## Implementation notes

Some entries are the last answer to a question, the others are set once and stay. The invariant is
kept by most functions whatever else is known, so that their instances are about any condition on
the ledger that the calls do not change. The result of `stop` is ignored in the source, so a `stop`
that fails lets a node go on as if its database were down.
-/

namespace Metatroni

namespace HaCycle

open Interaction Interaction.Method

/-- A call with its answer. -/
abbrev Event := Interaction.Event Call Result PyException

/-- What a cycle has been told. -/
structure Ledger where
  /-- The last call about the lock has succeeded, and the key has not been deleted since. -/
  held : Bool
  /-- The node has been given the lock, or all members have confirmed that it is the leader. -/
  granted : Bool
  watchdog : Bool
  paused : Bool
  standby : Bool
  primary : Bool
  prepromoted : Bool
  /-- All members have confirmed that the node is the leader. -/
  confirmed : Bool
  bootstrapping : Bool
  /-- An action has been found running. -/
  acting : Bool
  -- what has happened since the last promotion or start that was submitted
  /-- `is_primary`, `is_running` or `is_healthy` has answered `False`, or the database has been
  stopped. -/
  idle : Bool
  /-- Maintenance mode has been found on. -/
  maintenance : Bool
  /-- The pre-promote script has failed. -/
  scriptFailed : Bool
  /-- The postmaster could not be told to stop. -/
  stopFailed : Bool
  /-- The postmaster has been told to stop, and its user backends have been waited for. -/
  safepoint : Bool
  /-- `stop` of MySQL has returned. -/
  mysqlStopped : Bool
  -- what has happened at any time
  /-- There is another reason not to demote the database. -/
  cleared : Bool
  /-- The executor has refused to demote the database. -/
  refused : Bool
  deriving DecidableEq

namespace Ledger

/-- Nothing is known yet, except whether the lock has been granted. -/
def fresh (granted : Bool) : Ledger where
  held := false
  granted := granted
  watchdog := false
  paused := false
  standby := true
  primary := true
  prepromoted := false
  confirmed := false
  bootstrapping := false
  acting := false
  idle := false
  maintenance := false
  scriptFailed := false
  stopFailed := false
  safepoint := false
  mysqlStopped := false
  cleared := false
  refused := false

/-- What an event says about the lock. -/
def lockAnswer : Event → Option Bool
  | ⟨.acquireLeaderLock, .ok ret⟩ => some ret
  | ⟨.acquireLeaderLock, .error _⟩ => some false
  | ⟨.updateLeader .., .ok ret⟩ => some ret
  | ⟨.updateLeader .., .error _⟩ => some false
  | ⟨.deleteLeader _, _⟩ => some false
  | _ => none

/-- Whether an event gives the lock to the node or takes it away. -/
def grant : Event → Option Bool
  | ⟨.acquireLeaderLock, .ok ret⟩ => some ret
  | ⟨.updateLeader .., .ok true⟩ => some true
  | ⟨.takeLeader, .ok _⟩ => some true
  | ⟨.checkFailsafeTopology, .ok true⟩ => some true
  | ⟨.deleteLeader _, _⟩ => some false
  | _ => none

def watchdogAnswer : Event → Option Bool
  | ⟨.watchdogIsRunning, .ok running⟩ => some running
  | ⟨.watchdogActivate, .ok activated⟩ => some activated
  | ⟨.watchdogDisable, _⟩ => some false
  | _ => none

def pausedAnswer : Event → Option Bool
  | ⟨.isPaused, .ok paused⟩ => some paused
  | _ => none

def standbyAnswer : Event → Option Bool
  | ⟨.isStandbyCluster, .ok standby⟩ => some standby
  | _ => none

def primaryAnswer : Event → Option Bool
  | ⟨.isPrimary, .ok primary⟩ => some primary
  | _ => none

def prepromoteAnswer : Event → Option Bool
  | ⟨.processSyncReplicationPrepromote, .ok ret⟩ => some ret
  | _ => none

def confirms : Event → Bool
  | ⟨.checkFailsafeTopology, .ok ret⟩ => ret
  | _ => false

def bootstraps : Event → Bool
  | ⟨.bootstrapping, .ok bootstrapping⟩ => bootstrapping
  | _ => false

/-- A promotion or the start of a primary has been submitted. -/
def submits : Event → Bool
  | ⟨.tryRunAsync _ .promote, .ok none⟩ => true
  | ⟨.tryRunAsync _ (.start _), .ok none⟩ => true
  | _ => false

def findsAction : Event → Bool
  | ⟨.busy, .ok busy⟩ => busy
  | _ => false

/-- The database does not run as primary: the node has asked, or has stopped it. -/
def showsIdle : Event → Bool
  | ⟨.isPrimary, .ok primary⟩ => !primary
  | ⟨.isRunning, .ok running⟩ => !running
  | ⟨.isHealthy, .ok healthy⟩ => !healthy
  -- the postmaster is gone, or says that it has shut down, or has ended
  | ⟨.signalStop _, .ok gone⟩ => gone = some true
  | ⟨.waitForShutDown _, .ok wait⟩ => wait = .shutDown
  | ⟨.waitForPostmaster _, .ok _⟩ => true
  | _ => false

def showsMaintenance : Event → Bool
  | ⟨.isPaused, .ok paused⟩ => paused
  | _ => false

def showsScriptFailed : Event → Bool
  | ⟨.asyncResponseResult, .ok result⟩ => result = some false
  | _ => false

def showsStopFailed : Event → Bool
  | ⟨.signalStop _, .ok told⟩ => told = some false
  | _ => false

def reachesSafepoint : Event → Bool
  | ⟨.waitForUserBackendsToClose _, .ok _⟩ => true
  | _ => false

def stopsMySQL : Event → Bool
  | ⟨.stopMySQL, .ok _⟩ => true
  | _ => false

/-- The other reasons not to demote the database. -/
def clears (node : Node) (acting : Bool) : Event → Bool
  | ⟨.bootstrapping, .ok bootstrapping⟩ => bootstrapping
  -- the promotion that is going on has been cancelled
  | ⟨.asyncResponseCancel, .ok cancelled⟩ => cancelled
  -- the action that is going on is not one of a primary
  | ⟨.role, .ok role⟩ => acting && role ≠ .primary
  | ⟨.sysid, .ok sysid⟩ => node.requiresSysidMatch && !node.sysidValid sysid
  -- the executor demotes the database
  | ⟨.tryRunAsync _ (.demote _), .ok none⟩ => true
  | ⟨.checkFailsafeTopology, .ok ret⟩ => ret
  | _ => false

/-- Another action is running. -/
def refuses : Event → Bool
  | ⟨.tryRunAsync _ (.demote _), .ok (some _)⟩ => true
  | _ => false

/-- Whether something has happened since the last promotion or start that was submitted. -/
def since (shows : Event → Bool) (e : Event) (before : Bool) : Bool :=
  shows e || (!submits e && before)

/-- The ledger after an event. -/
def step (node : Node) (m : Ledger) (e : Event) : Ledger where
  held := (lockAnswer e).getD m.held
  granted := (grant e).getD m.granted
  watchdog := (watchdogAnswer e).getD m.watchdog
  paused := (pausedAnswer e).getD m.paused
  standby := (standbyAnswer e).getD m.standby
  primary := (primaryAnswer e).getD m.primary
  prepromoted := (prepromoteAnswer e).getD m.prepromoted
  confirmed := confirms e || m.confirmed
  bootstrapping := bootstraps e || m.bootstrapping
  acting := findsAction e || m.acting
  idle := since showsIdle e m.idle
  maintenance := since showsMaintenance e m.maintenance
  scriptFailed := since showsScriptFailed e m.scriptFailed
  stopFailed := since showsStopFailed e m.stopFailed
  safepoint := since reachesSafepoint e m.safepoint
  mysqlStopped := since stopsMySQL e m.mysqlStopped
  cleared := clears node m.acting e || m.cleared
  refused := refuses e || m.refused

/-- The node holds the lock and its watchdog runs, unless in maintenance mode, the cluster is no
standby cluster, the database does not run as primary, and the synchronous replication has been
handed over. -/
def MayPromote (m : Ledger) : Prop :=
  m.held = true ∧ (m.paused = true ∨ m.watchdog = true) ∧ m.standby = false ∧ m.primary = false ∧
    m.prepromoted = true

/-- The database does not run as primary, or it is not to be demoted, or it could not be. -/
def Excused (m : Ledger) : Prop := m.idle = true ∨ m.maintenance = true ∨ m.stopFailed = true

/-- The node may give up its lock. -/
def MayRelease (node : Node) (m : Ledger) : Prop :=
  node.isMySQL = true ∨ m.Excused ∨ m.scriptFailed = true

/-- The node may turn off its watchdog. -/
def MayDisable (m : Ledger) : Prop := m.Excused ∨ m.safepoint = true ∨ m.mysqlStopped = true

/-- Whether a call is allowed. -/
def Allows (node : Node) (m : Ledger) : Call → Prop
  | .tryRunAsync _ .promote => m.MayPromote
  | .tryRunAsync _ (.start _) => m.held = true
  | .deleteLeader _ => m.MayRelease node
  | .watchdogDisable => m.MayDisable
  | .watchdogActivate => m.held = true ∨ m.bootstrapping = true
  | .watchdogKeepalive => m.held = true ∨ m.confirmed = true
  | _ => True

def Any (_ : Ledger) : Prop := True

def Held (m : Ledger) : Prop := m.held = true

/-- The node holds the lock, or there is a reason not to demote its database, or it could not be
demoted. -/
def Settled (node : Node) (m : Ledger) : Prop :=
  m.MayRelease node ∨ m.held = true ∨ m.cleared = true ∨ m.refused = true

end Ledger

open Ledger

/-- The ledger as an observer. -/
def ledger (node : Node) : Observer Call Result PyException Ledger := ⟨step node, Allows node⟩

/-- Calls that are always allowed, and that do not take the lock away. -/
@[reducible] def harmless : Call → Bool
  | .tryRunAsync _ .promote => false
  | .tryRunAsync _ (.start _) => false
  | .acquireLeaderLock => false
  | .deleteLeader _ => false
  | .watchdogDisable => false
  | .watchdogActivate => false
  | .watchdogKeepalive => false
  | _ => true

/-- Harmless calls that are not about the lock. -/
@[reducible] def neutral : Call → Bool
  | .tryRunAsync _ .promote => false
  | .tryRunAsync _ (.start _) => false
  | .acquireLeaderLock => false
  | .updateLeader .. => false
  | .deleteLeader _ => false
  | .watchdogDisable => false
  | .watchdogActivate => false
  | .watchdogKeepalive => false
  | _ => true

theorem harmless_of_neutral {op : Call} (h : neutral op = true) : harmless op = true := by
  unfold neutral at h
  split at h
  all_goals cases h
  unfold harmless
  split
  all_goals simp_all

variable (node : Node) {F G : Ledger → Prop} {α β : Type}

/-- A condition on the ledger that no neutral call changes. -/
class Calm (F : Ledger → Prop) : Prop where
  step : ∀ m op, neutral op = true → F m → ∀ answer, F (step node m ⟨op, answer⟩)

/-- A condition on the ledger that nothing changes but the submission of a primary. -/
class Steady (F : Ledger → Prop) : Prop where
  step : ∀ m e, submits e = false → F m → F (Ledger.step node m e)

theorem submits_of_harmless {op : Call} (h : harmless op = true)
    (answer : Except PyException (Result op)) : submits ⟨op, answer⟩ = false := by
  unfold harmless at h
  split at h
  all_goals cases h
  unfold submits
  split
  all_goals simp_all

instance calm_of_steady [h : Steady node F] : Calm node F :=
  ⟨fun m _ hop hF _ => h.step m _ (submits_of_harmless (harmless_of_neutral hop) _) hF⟩

instance steady_any : Steady node Any := ⟨fun _ _ _ h => h⟩

theorem since_of_before {shows : Event → Bool} {e : Event} {before : Bool}
    (he : submits e = false) (h : before = true) : since shows e before = true := by
  rw [since, he, h]
  exact Bool.or_true _

instance steady_excused : Steady node Excused :=
  ⟨fun _ _ he h => h.imp (since_of_before he) (.imp (since_of_before he) (since_of_before he))⟩

instance steady_mayRelease : Steady node (MayRelease node) :=
  ⟨fun m e he h => h.imp_right
    (.imp ((steady_excused node).step m e he) (since_of_before he))⟩

instance steady_mayDisable : Steady node MayDisable :=
  ⟨fun m e he h => h.imp ((steady_excused node).step m e he)
    (.imp (since_of_before he) (since_of_before he))⟩

theorem lockAnswer_of_neutral {op : Call} (h : neutral op = true)
    (answer : Except PyException (Result op)) : lockAnswer ⟨op, answer⟩ = none := by
  unfold neutral at h
  split at h
  all_goals cases h
  unfold lockAnswer
  split
  all_goals simp_all

theorem grant_of_harmless {op : Call} (h : harmless op = true)
    (answer : Except PyException (Result op)) : grant ⟨op, answer⟩ ≠ some false := by
  unfold harmless at h
  split at h
  all_goals cases h
  unfold grant
  split
  all_goals simp_all

theorem allows_of_harmless {op : Call} (h : harmless op = true) (m : Ledger) :
    Allows node m op := by
  unfold harmless at h
  split at h
  all_goals cases h
  unfold Allows
  split
  all_goals simp_all

theorem held_step_of_neutral {op : Call} (h : neutral op = true) (m : Ledger)
    (answer : Except PyException (Result op)) : (step node m ⟨op, answer⟩).held = m.held := by
  rw [step, lockAnswer_of_neutral h]
  rfl

instance calm_held : Calm node Held :=
  ⟨fun m _ hop h answer => (held_step_of_neutral node hop m answer).trans h⟩

theorem or_of_right {b c : Bool} (h : c = true) : (b || c) = true := by
  rw [h]
  exact Bool.or_true b

/-- Only a call about the lock, or the submission of a primary, may unsettle a node. -/
theorem Settled.step {m : Ledger} {e : Event} (h : Settled node m) (hsubmits : submits e = false)
    (hheld : (Ledger.step node m e).held = m.held) : Settled node (Ledger.step node m e) := by
  rcases h with h | h | h | h
  · exact .inl ((steady_mayRelease node).step m e hsubmits h)
  · exact .inr (.inl (hheld.trans h))
  · exact .inr (.inr (.inl (or_of_right h)))
  · exact .inr (.inr (.inr (or_of_right h)))

instance calm_settled : Calm node (Settled node) :=
  ⟨fun m _ hop h answer => Settled.step node h (submits_of_harmless (harmless_of_neutral hop) _)
    (held_step_of_neutral node hop m answer)⟩

instance calm_and [hF : Calm node F] [hG : Calm node G] : Calm node fun m => F m ∧ G m :=
  ⟨fun m op hop h answer => ⟨hF.step m op hop h.1 answer, hG.step m op hop h.2 answer⟩⟩

/-- The node believes to be the leader only if it has been granted the lock. -/
structure Inv (F : Ledger → Prop) (s : Attributes) (m : Ledger) : Prop where
  granted : s.leaderExpiry = 0 ∨ m.granted = true
  holds : F m

theorem Inv.mono {s : Attributes} {m : Ledger} (h : Inv F s m) (hFG : F m → G m) : Inv G s m :=
  ⟨h.granted, hFG h.holds⟩

theorem Inv.any {s : Attributes} {m : Ledger} (h : Inv F s m) : Inv Any s m :=
  h.mono fun _ => trivial

theorem granted_step_of_harmless {op : Call} (h : harmless op = true) {m : Ledger}
    (hm : m.granted = true) (answer : Except PyException (Result op)) :
    (step node m ⟨op, answer⟩).granted = true := by
  rw [step]
  cases hgrant : grant ⟨op, answer⟩ with
  | none => exact hm
  | some b =>
      cases b with
      | false => exact absurd hgrant (grant_of_harmless h answer)
      | true => rfl

/-- The invariant after a harmless call. -/
theorem Inv.step {s : Attributes} {m : Ledger} (h : Inv F s m) {op : Call}
    (hop : harmless op = true) {answer : Except PyException (Result op)}
    (hG : G (step node m ⟨op, answer⟩)) :
    Inv G s (Ledger.step node m ⟨op, answer⟩) :=
  ⟨h.granted.imp_right fun hm => granted_step_of_harmless node hop hm answer, hG⟩

instance keepsCall_of_neutral [hF : Calm node F] (op : Call) [hop : Evident (neutral op)] :
    KeepsCall (ledger node) (Inv F) op where
  guard := fun _ m _ => allows_of_harmless node (harmless_of_neutral hop.eq_true) m
  keeps := fun _ m h _ => h.step node (harmless_of_neutral hop.eq_true)
    (hF.step m op hop.eq_true h.holds _)

instance keepsCall_of_harmless [hF : Steady node F] (op : Call) [hop : Evident (harmless op)] :
    KeepsCall (ledger node) (Inv F) op where
  guard := fun _ m _ => allows_of_harmless node hop.eq_true m
  keeps := fun _ m h _ => h.step node hop.eq_true
    (hF.step m _ (submits_of_harmless hop.eq_true _) h.holds)

/-- An update of the attributes that leaves `leaderExpiry` as it is. -/
instance keepsUpdate (cluster : Attributes → ClusterView) (promoteTimestamp : Attributes → ℚ)
    (wasPaused : Attributes → Bool) (leaderTimeline : Attributes → Option ℤ)
    (recovering : Attributes → Bool) (crashRecoveryStarted : Attributes → ℚ)
    (startTimeout : Attributes → Option ℤ) (joinAborted : Attributes → Bool)
    (releasedLeaderKeyTimestamp : Attributes → ℚ) :
    KeepsUpdate (Inv F) fun s => ⟨cluster s, s.leaderExpiry, promoteTimestamp s, wasPaused s,
      leaderTimeline s, recovering s, crashRecoveryStarted s, startTimeout s, joinAborted s,
      releasedLeaderKeyTimestamp s⟩ := ⟨fun _ _ h => ⟨h.granted, h.holds⟩⟩

/-- A method leads from a condition to another one. An exception may leave it anywhere. -/
abbrev Leads (F : Ledger → Prop) (x : Method α) (G : α → Ledger → Prop) : Prop :=
  Triple (ledger node) (Inv F) x (fun a => Inv (G a)) fun _ => Inv Any

theorem leads_of_keeps (x : Method α) [h : Keeps (ledger node) (Inv F) x] :
    Leads node F x fun _ => F :=
  h.triple.mono (fun _ _ h => h) (fun _ _ _ h => h) fun _ _ _ h => h.any

theorem Leads.mono {F F' : Ledger → Prop} {x : Method α} {G G' : α → Ledger → Prop}
    (h : Leads node F x G) (hF : ∀ m, F' m → F m) (hG : ∀ a m, G a m → G' a m) :
    Leads node F' x G' :=
  Triple.mono h (fun _ m h => h.mono (hF m)) (fun a _ _ h => h.mono (hG a _)) fun _ _ _ h => h

theorem leads_pure {a : α} {G : α → Ledger → Prop} (h : ∀ m, F m → G a m) :
    Leads node F (pure a) G := .pure fun _ m hm => hm.mono (h m)

/-- What a call tells. -/
theorem leads_ask (op : Call) [hop : Evident (harmless op)] {G : Result op → Ledger → Prop}
    (hG : ∀ m a, F m → G a (step node m ⟨op, .ok a⟩)) : Leads node F (ask op) G :=
  .ask (fun _ m _ => allows_of_harmless node hop.eq_true m)
    (fun _ m h a => h.step node hop.eq_true (hG m a h.holds))
    fun _ _ h _ => h.step node hop.eq_true trivial

end HaCycle

end Metatroni
