import Metatroni.Lib.Interaction
import Metatroni.Slots.Advance
import Metatroni.Slots.Permanent

/-!
# The synchronisation of replication slots

`SlotsHandler` of `postgresql/slots.py` keeps a copy of the replication slots of PostgreSQL. Every
cycle the slots are made to be those that the cluster asks for.

## Implementation notes

The readiness of copied slots and the thread that advances logical slots are single calls. The
local variable `slots` of `sync_replication_slots` is an attribute.
-/

namespace Metatroni

namespace Slots

namespace Sync

open Interaction Interaction.Method

/-- The attributes of a row of `pg_replication_slots`. -/
inductive Kind
  | physical (restartLsn xmin : Option ℤ)
  | logical (plugin database : String) (datoid : ℤ) (catalogXmin confirmedFlushLsn : Option ℤ)
  deriving DecidableEq

/-- The statements, and the calls of other objects. -/
inductive Query
  | loadReplicationSlots
  | dropReplicationSlot (name : String)
  | createPhysicalReplicationSlot (name : String)
  | advanceReplicationSlot (name : String) (lsn : ℤ)
  | connect (database : Value)
  | createLogicalReplicationSlot (database : Value) (name : String) (plugin : Value)
  | isPrimary
  | replayLsn
  | checkLogicalSlotsReadiness
  | scheduleAdvance (slots : List (Value × String × ℤ))
  deriving DecidableEq

@[reducible] def Query.Answer : Query → Type
  | .loadReplicationSlots => List (String × Kind)
  | .dropReplicationSlot _ => Bool × Bool
  | .isPrimary => Bool
  | .replayLsn => Option ℤ
  | .scheduleAdvance _ => Bool × List String
  | _ => Unit

inductive SlotsException
  | queryFailed
  | keyError
  | typeError
  deriving DecidableEq

/-- `SlotsHandler`, and the local variable `slots`. -/
structure SlotsHandler where
  replicationSlots : Dict String Slot
  scheduleLoadSlots : Bool
  forceReadinessCheck : Bool
  logicalSlotsProcessingQueue : Dict String (Option ℤ)
  slots : Dict String Slot

/-- A `SlotsHandler` that has not loaded the slots. -/
def notLoaded : SlotsHandler := ⟨∅, true, true, ∅, ∅⟩

abbrev Method := Interaction.Method Query Query.Answer SlotsException SlotsHandler

abbrev ask (q : Query) : Method q.Answer := Interaction.Method.ask q

/-- What the configuration says of the slots. -/
structure Settings where
  majorVersion : ℕ
  name : String
  isPaused : Bool
  ignoreSlotsMatchers : List Slot
  /-- `mpp_handler.ignore_replication_slot`, which may fail. -/
  mppIgnores : Slot → Option Bool

/-- `can_advance_slots` -/
def Settings.canAdvanceSlots (settings : Settings) : Bool := 110000 ≤ settings.majorVersion

/-- A value, or an exception without one. -/
def orRaise {α : Type} (e : SlotsException) (a : Option α) : Method α := a.elim (raise e) pure

/-- An integer or `NULL` -/
def Value.ofInt? (n : Option ℤ) : Value := n.elim .null .int

/-- The integer that a comparison needs. -/
def Value.int? : Value → Option ℤ
  | .int n => some n
  | _ => none

/-- `compare_slots`, which may miss a key. -/
def compareSlots (s1 s2 : Slot) (dbid : String) : Option Bool := do
  let type1 ← s1.lookup "type"
  let type2 ← s2.lookup "type"
  if type1 ≠ type2 then return false
  else if type1 = .str "physical" then return true
  else if s1.get dbid .null ≠ s2.get dbid .null then return false
  else return (← s1.lookup "plugin") = (← s2.lookup "plugin")

/-- `_copy_items`, which may miss a key. -/
def copyItems (src dst : Slot) (keys : List String) : Option Slot :=
  if keys.all (· ∈ src) then
    some (keys.foldl (fun (dst : Slot) key => Dict.set dst key (src.get key .null)) dst)
  else none

def logicalKeys : List String := ["datoid", "catalog_xmin", "confirmed_flush_lsn"]

def physicalKeys : List String := ["restart_lsn", "xmin"]

/-! ## The copy of the slots -/

/-- A row as `load_replication_slots` keeps it. -/
def loaded (majorVersion : ℕ) : Kind → Slot
  | .physical restartLsn xmin =>
      Dict.set (Dict.set (Dict.set ∅ "type" (.str "physical")) "xmin" (Value.ofInt? xmin))
        "restart_lsn" (Value.ofInt? restartLsn)
  | .logical plugin database datoid catalogXmin confirmedFlushLsn =>
      let value : Slot := Dict.set (Dict.set (Dict.set (Dict.set ∅ "type" (.str "logical"))
        "plugin" (.str plugin)) "database" (.str database)) "datoid" (.int datoid)
      if 100000 ≤ majorVersion then
        Dict.set (Dict.set value "catalog_xmin" (Value.ofInt? catalogXmin)) "confirmed_flush_lsn"
          (Value.ofInt? confirmedFlushLsn)
      else value

/-- `load_replication_slots` -/
def loadReplicationSlots (settings : Settings) : Method Unit := do
  if 90400 ≤ settings.majorVersion && (← self).scheduleLoadSlots then
    let rows ← ask .loadReplicationSlots
    let replicationSlots : Dict String Slot := rows.foldl (fun (slots : Dict String Slot) r =>
      slots.set r.1 (loaded settings.majorVersion r.2)) ∅
    update fun s => { s with replicationSlots := replicationSlots, scheduleLoadSlots := false }
    when (← self).forceReadinessCheck (update fun s => { s with
      logicalSlotsProcessingQueue := Dict.mapValues (fun _ _ => none)
        (Dict.filter (fun _ slot => slot.get "type" .null = .str "logical") replicationSlots)
      forceReadinessCheck := false })
  else pure ()

/-! ## Slots that are dropped -/

/-- `ignore_replication_slot`, which may miss a key. -/
def ignoreReplicationSlot (settings : Settings) (slot : Slot) (name : String) : Option Bool :=
  if settings.ignoreSlotsMatchers.any fun matcher =>
      (matcher.get "name" .null = .null || matcher.get "name" .null = .str name) &&
        ["database", "plugin", "type"].all fun a =>
          !(matcher.get a .null).truthy || matcher.get a .null = slot.get a .null then some true
  else settings.mppIgnores slot

/-- `_drop_replication_slot` -/
def dropReplicationSlot (name : String) : Method Unit := do
  let result ← ask (.dropReplicationSlot name)
  if result.2 then
    update fun s => { s with replicationSlots := s.replicationSlots.erase name }
  else update fun s => { s with scheduleLoadSlots := true }

/-- A slot that the cluster does not ask for. -/
def dropUnknownSlot (settings : Settings) (name : String) : Method Unit :=
  if settings.isPaused then pure ()
  else do
    let slot ← orRaise .keyError ((← self).replicationSlots.lookup name)
    let ignored ← orRaise .keyError (ignoreReplicationSlot settings slot name)
    when (!ignored) (dropReplicationSlot name)

/-- A slot with other attributes than those that the cluster asks for. -/
def dropMismatchedSlot (name : String) : Method Unit := do
  let s ← self
  (s.replicationSlots.lookup name).elim (pure ()) fun slot => do
    let value ← orRaise .keyError (s.slots.lookup name)
    if ← orRaise .keyError (compareSlots value slot "database") then pure ()
    else
      let result ← ask (.dropReplicationSlot name)
      if result = (false, true) then
        update fun s => { s with replicationSlots := s.replicationSlots.erase name }
      else update fun s => { s with scheduleLoadSlots := true }

/-- `_drop_incorrect_slots` -/
def dropIncorrectSlots (settings : Settings) : Method Unit := do
  let s ← self
  forEach (dropUnknownSlot settings) (s.replicationSlots.keys.filter fun name => name ∉ s.slots)
  forEach dropMismatchedSlot s.slots.keys

/-! ## Physical slots -/

/-- Write a value of the local variable. -/
def setSlot (name : String) (value : Slot) : Method Unit :=
  update fun s => { s with slots := s.slots.set name value }

/-- The first part of the loop of `_ensure_physical_slots`. -/
def cleanInactivePhysicalSlot (settings : Settings) (clean : Bool) (name : String) (value : Slot) :
    Method Slot := do
  (((← self).replicationSlots.lookup name).filter fun _ => settings.canAdvanceSlots).elim
    (pure value) fun slot => do
      if (← orRaise .keyError (slot.lookup "type")) = .str "physical" then
        let value ← orRaise .keyError (copyItems slot value physicalKeys)
        setSlot name value
        when (clean && value.get "expected_active" .null = .bool false &&
          (value.get "xmin" .null).truthy) (dropReplicationSlot name)
        return value
      else return value

/-- The last part of the loop of `_ensure_physical_slots`. -/
def advancePhysicalSlot (name : String) (value : Slot) : Method Unit :=
  if !(value.get "restart_lsn" .null).truthy then dropReplicationSlot name
  else if (value.get "lsn" .null).truthy then do
    let lsn ← orRaise .typeError (Value.int? (value.get "lsn" .null))
    let restartLsn ← orRaise .typeError (Value.int? (value.get "restart_lsn" .null))
    when (restartLsn < lsn) (handle (ask (.advanceReplicationSlot name lsn)) fun _ => pure ())
  else pure ()

/-- The body of the loop of `_ensure_physical_slots`. -/
def ensurePhysicalSlot (settings : Settings) (clean : Bool) (name : String) : Method Unit := do
  let value ← orRaise .keyError ((← self).slots.lookup name)
  if (← orRaise .keyError (value.lookup "type")) ≠ .str "physical" then pure ()
  else
    let value ← cleanInactivePhysicalSlot settings clean name value
    ((← self).replicationSlots.lookup name).elim
      (do
        handle (ask (.createPhysicalReplicationSlot name)) fun _ => pure ()
        update fun s => { s with scheduleLoadSlots := true })
      fun slot =>
        when (settings.canAdvanceSlots && slot.get "type" .null = .str "physical" &&
            value.get "expected_active" .null ≠ .bool true && !(value.get "xmin" .null).truthy)
          (advancePhysicalSlot name value)

/-- `_ensure_physical_slots` -/
def ensurePhysicalSlots (settings : Settings) (clean : Bool) : Method Unit := do
  forEach (ensurePhysicalSlot settings clean) (← self).slots.keys

/-! ## Logical slots -/

/-- `_replication_slots.get(name, {}).get('datoid')` -/
def hasDatoid (s : SlotsHandler) (name : String) : Bool :=
  (s.replicationSlots.lookup name).any fun slot => (slot.get "datoid" .null).truthy

/-- The first loop of `_ensure_logical_slots_primary`, which leaves the slots that are missing. -/
def copyLogicalSlot (name : String) : Method Unit := do
  let s ← self
  let value ← orRaise .keyError (s.slots.lookup name)
  if (← orRaise .keyError (value.lookup "type")) = .str "logical" then
    if hasDatoid s name then
      let slot ← orRaise .keyError (s.replicationSlots.lookup name)
      let value ← orRaise .keyError (copyItems slot value logicalKeys)
      setSlot name value
    else do
      let _ ← orRaise .keyError (value.lookup "database")
  else pure ()

/-- The logical slots that are missing, with their databases. -/
def missingSlots (s : SlotsHandler) : List (Value × String × Value) :=
  (s.slots.entries.filter fun e =>
    e.2.get "type" .null = .str "logical" && !hasDatoid s e.1).map fun e =>
      (e.2.get "database" .null, e.1, e.2.get "plugin" .null)

/-- A logical slot that is missing. -/
def createLogicalSlot (item : Value × String × Value) : Method Unit := do
  handle (ask (.createLogicalReplicationSlot item.1 item.2.1 item.2.2)) fun _ =>
    update fun s => { s with slots := s.slots.erase item.2.1 }
  update fun s => { s with scheduleLoadSlots := true }

/-- The logical slots of a database that are missing. -/
def createLogicalSlots (missing : List (Value × String × Value)) (database : Value) :
    Method Unit := do
  ask (.connect database)
  forEach createLogicalSlot (missing.filter fun item => item.1 = database)

/-- `_ensure_logical_slots_primary` -/
def ensureLogicalSlotsPrimary : Method Unit := do
  forEach copyLogicalSlot (← self).slots.keys
  let missing := missingSlots (← self)
  forEach (createLogicalSlots missing) (missing.map Prod.fst).eraseDups

/-- What happens to a logical slot of a replica. -/
inductive ReplicaAction
  | keep
  | create
  | advance (database : Value) (name : String) (lsn : ℤ)

/-- The body of the loop of `_ensure_logical_slots_replica`. -/
def ensureLogicalSlotReplica (name : String) : Method ReplicaAction := do
  let s ← self
  let value ← orRaise .keyError (s.slots.lookup name)
  if (← orRaise .keyError (value.lookup "type")) = .str "logical" then
    let same ← (s.replicationSlots.lookup name).elim (pure false) fun slot =>
      orRaise .keyError (compareSlots value slot "database")
    if same then
      let slot ← orRaise .keyError (s.replicationSlots.lookup name)
      let value ← orRaise .keyError (copyItems slot value logicalKeys)
      setSlot name value
      if "lsn" ∈ value then
        let replayLsn ← ask .replayLsn
        let lsn ← orRaise .typeError (Value.int? (value.get "lsn" .null))
        let advanceValue := min lsn (← orRaise .typeError replayLsn)
        let confirmed ← orRaise .typeError (Value.int? (value.get "confirmed_flush_lsn" .null))
        return if confirmed < advanceValue
          then .advance (value.get "database" .null) name advanceValue else .keep
      else return .keep
    else return if name ∉ s.replicationSlots ∧ "lsn" ∈ value then .create else .keep
  else return .keep

/-- The loop of `_ensure_logical_slots_replica`: the slots to create and to advance. -/
def ensureLogicalSlotsLoop :
    List String → Method (List String × List (Value × String × ℤ))
  | [] => pure ([], [])
  | name :: names => do
      let action ← ensureLogicalSlotReplica name
      let (createSlots, advanceSlots) ← ensureLogicalSlotsLoop names
      return match action with
        | .keep => (createSlots, advanceSlots)
        | .create => (name :: createSlots, advanceSlots)
        | .advance database name lsn => (createSlots, (database, name, lsn) :: advanceSlots)

/-- `_ensure_logical_slots_replica` -/
def ensureLogicalSlotsReplica : Method (List String) := do
  let (createSlots, advanceSlots) ← ensureLogicalSlotsLoop (← self).slots.keys
  update fun s => { s with
    slots := createSlots.foldl (fun (slots : Dict String Slot) name => slots.erase name) s.slots }
  let (error, copySlots) ← ask (.scheduleAdvance advanceSlots)
  when error (update fun s => { s with scheduleLoadSlots := true })
  return createSlots ++ copySlots

/-! ## The synchronisation -/

variable [NodeName String]

/-- `clean_inactive_physical_slots` -/
def cleanInactivePhysicalSlots (settings : Settings) (cluster : Cluster) : Method Bool :=
  both (pure !cluster.isUnlocked)
    (either (pure (cluster.leader.any fun leader => leader.name ≠ settings.name)) (ask .isPrimary))

/-- `sync_replication_slots` with the slots that the cluster asks for, before exceptions are
caught. -/
def syncSlots (settings : Settings) (cluster : Cluster) (slots : Dict String Slot) :
    Method (List String) := do
  loadReplicationSlots settings
  update fun s => { s with slots := slots }
  dropIncorrectSlots settings
  ensurePhysicalSlots settings (← cleanInactivePhysicalSlots settings cluster)
  let ret ← if ← ask .isPrimary then do
      update fun s => { s with logicalSlotsProcessingQueue := ∅ }
      ensureLogicalSlotsPrimary
      pure []
    else do
      ask .checkLogicalSlotsReadiness
      ensureLogicalSlotsReplica
  update fun s => { s with replicationSlots := s.slots }
  return ret

/-- `sync_replication_slots` in a cluster with a configuration. -/
def syncReplicationSlots (settings : Settings) (config : SlotsConfig) (cluster : Cluster)
    (role : PostgresqlRole) (tags : NodeTags) : Method (List String) :=
  if 90400 ≤ settings.majorVersion then
    handle (syncSlots settings cluster (getReplicationSlots config cluster
      ⟨settings.name, role, settings.canAdvanceSlots⟩ none tags none)) fun _ => do
        update fun s => { s with scheduleLoadSlots := true }
        return []
  else return []

/-! ## Passes -/

/-- A statement, or a call of another object, with its answer. -/
abbrev Call := Interaction.Event Query Query.Answer SlotsException

/-- What a cycle of the node knows when it synchronises the slots. -/
structure Heartbeat where
  settings : Settings
  config : SlotsConfig
  cluster : Cluster
  role : PostgresqlRole
  tags : NodeTags

namespace Heartbeat

variable (h : Heartbeat)

/-- The slots that the cluster asks for. -/
def slots : Dict String Slot :=
  getReplicationSlots h.config h.cluster ⟨h.settings.name, h.role, h.settings.canAdvanceSlots⟩ none
    h.tags none

/-- What `sync_replication_slots` does before exceptions are caught. -/
def body : Method (List String) := syncSlots h.settings h.cluster h.slots

/-- `sync_replication_slots` -/
def sync : Method (List String) :=
  syncReplicationSlots h.settings h.config h.cluster h.role h.tags

end Heartbeat

/-- A pass of `sync_replication_slots`, with its calls. -/
structure Pass where
  heartbeat : Heartbeat
  before : SlotsHandler
  calls : List Call
  result : Except SlotsException (List String)
  after : SlotsHandler
  exec : Program.Exec (heartbeat.sync before) calls (result, after)

/-- The exceptions of a pass are caught. -/
theorem Pass.exec_body (p : Pass) (hversion : 90400 ≤ p.heartbeat.settings.majorVersion) :
    ∃ r s, Program.Exec (p.heartbeat.body p.before) p.calls (r, s) ∧
      (p.result, p.after) = match r with
        | .ok ret => (.ok ret, s)
        | .error _ => (.ok [], { s with scheduleLoadSlots := true }) := by
  have hexec := p.exec
  rw [Heartbeat.sync, syncReplicationSlots, if_pos hversion] at hexec
  generalize (p.result, p.after) = outcome at hexec ⊢
  obtain ⟨es, es', ⟨r, s⟩, hbody, hrest, hcalls⟩ := hexec.of_bind
  cases r with
  | ok ret =>
      cases hrest
      refine ⟨.ok ret, s, ?_, rfl⟩
      rw [hcalls, List.append_nil]
      exact hbody
  | error e =>
      cases hrest
      refine ⟨.error e, s, ?_, rfl⟩
      rw [hcalls, List.append_nil]
      exact hbody

end Sync

end Slots

end Metatroni
