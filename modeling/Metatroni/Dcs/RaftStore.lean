import Metatroni.Dcs.Raft

/-!
# Applying replicated commands

What one node does when a replicated command reaches it: the dictionary changes,
the callbacks of the `Raft` object may set the event that `watch` waits for, and
`dict.pop` raises a `KeyError` for a key that is not there.

A command is issued on the strength of the dictionary of the node that issues
it, and applied to whatever the dictionary is by then. `Operation` has the write
operations of `Raft`, with the requirements that each of them makes.
-/

namespace Metatroni

namespace Raft

open Runs

/-! ## The write operations -/

/-- The `Raft` object of a node: its name, and the path that its keys are below, with
the group if there is one. -/
structure Client where
  name : String
  base : String
  deriving DecidableEq

namespace Client

/-- `client_path`, for names that do not start with a slash. -/
def clientPath (c : Client) (path : String) : String := c.base ++ ("/" ++ path)

def initializePath (c : Client) : String := c.clientPath "initialize"
def configPath (c : Client) : String := c.clientPath "config"
def membersPath (c : Client) : String := c.clientPath "members/"
def memberPath (c : Client) : String := c.clientPath ("members/" ++ c.name)
def leaderPath (c : Client) : String := c.clientPath "leader"
def failoverPath (c : Client) : String := c.clientPath "failover"
def historyPath (c : Client) : String := c.clientPath "history"
def statusPath (c : Client) : String := c.clientPath "status"
def leaderOptimePath (c : Client) : String := c.clientPath "optime/leader"
def syncPath (c : Client) : String := c.clientPath "sync"
def failsafePath (c : Client) : String := c.clientPath "failsafe"

end Client

/-- No requirements. -/
def anyway : Requirements := ⟨none, none, none⟩

/-- The requirement of a version, if one is given. -/
def atVersion (version : Option ℕ) : Requirements := ⟨none, none, version⟩

/-- The write operations. `_update_leader` may call `attempt_to_acquire_leader`. -/
inductive Operation
  | writeLeaderOptime (lastLsn : String)
  | writeStatus (value : String)
  | writeFailsafe (value : String)
  | updateLeader
  | attemptToAcquireLeader
  | setFailoverValue (value : String) (version : Option ℕ)
  | setConfigValue (value : String) (version : Option ℕ)
  | touchMember (value : String)
  | takeLeader
  | initializeKey (createNew : Bool) (sysid : String)
  | deleteLeader
  | cancelInitialization
  | deleteCluster
  | setHistoryValue (value : String)
  | setSyncStateValue (value : String) (version : Option ℕ)
  | deleteSyncState (version : Option ℕ)

section Issue

variable (data : Data) (ttl now : ℕ)

/-- `KVStoreTTL.set` up to the command. -/
def set (key value : String) (ttl : ℕ) (requirements : Requirements) : Option Command :=
  let old := data.lookup key
  if requirements.Check old then some (.set key (newEntry old value ttl now) requirements)
  else none

/-- `KVStoreTTL.delete` up to the command. -/
def delete (key : String) (recursive : Bool) (requirements : Requirements) : Option Command :=
  if ¬recursive ∧ ¬requirements.Check (data.lookup key) then none
  else some (.delete key recursive requirements)

/-- The command that an operation issues, on a node with some data at some time. -/
def Operation.issue (c : Client) : Operation → Option Command
  | .writeLeaderOptime lastLsn => set data now c.leaderOptimePath lastLsn 0 anyway
  | .writeStatus value => set data now c.statusPath value 0 anyway
  | .writeFailsafe value => set data now c.failsafePath value 0 anyway
  | .updateLeader => set data now c.leaderPath c.name ttl (ownValue c.name)
  | .attemptToAcquireLeader => set data now c.leaderPath c.name ttl absent
  | .setFailoverValue value version => set data now c.failoverPath value 0 (atVersion version)
  | .setConfigValue value version => set data now c.configPath value 0 (atVersion version)
  | .touchMember value => set data now c.memberPath value ttl anyway
  | .takeLeader => set data now c.leaderPath c.name ttl anyway
  | .initializeKey createNew sysid =>
      set data now c.initializePath sysid 0 ⟨some !createNew, none, none⟩
  | .deleteLeader => delete data c.leaderPath false (ownValue c.name)
  | .cancelInitialization => delete data c.initializePath false anyway
  | .deleteCluster => delete data (c.clientPath "") true anyway
  | .setHistoryValue value => set data now c.historyPath value 0 anyway
  | .setSyncStateValue value version => set data now c.syncPath value 0 (atVersion version)
  | .deleteSyncState version => delete data c.syncPath false (atVersion version)

end Issue

/-- The commands that come from the write operations of some node and from
`__expire_keys`. -/
inductive Issued : Command → Prop
  | operation {c : Client} {data : Data} {ttl now : ℕ} {operation : Operation}
      {command : Command} (h : operation.issue data ttl now c = some command) : Issued command
  | expire {data : Data} {key : String} {value : Entry} {now : ℕ}
      (h : data.lookup key = some value) (hexpire : ∃ expire ∈ value.expire, expire ≤ now) :
      Issued (.expire key value)

/-- Only three operations delete something without `recursive`. -/
theorem Issued.requirements_of_delete {key : String} {requirements : Requirements}
    (h : Issued (.delete key false requirements)) :
    (∃ name, requirements = ownValue name) ∨ ∃ version, requirements = atVersion version := by
  cases h with
  | @operation c data ttl now operation _ h =>
      cases operation
      case deleteLeader =>
        simp only [Operation.issue, delete] at h
        split at h
        · cases h
        · injection Option.some.inj h with _ _ h
          exact .inl ⟨_, h.symm⟩
      case cancelInitialization =>
        simp only [Operation.issue, delete] at h
        split at h
        · cases h
        · injection Option.some.inj h with _ _ h
          exact .inr ⟨none, h.symm⟩
      case deleteSyncState version =>
        simp only [Operation.issue, delete] at h
        split at h
        · cases h
        · injection Option.some.inj h with _ _ h
          exact .inr ⟨_, h.symm⟩
      all_goals
        simp only [Operation.issue, set, delete] at h
        split at h <;> cases h

/-! ## One node -/

/-- What a node has. -/
structure Replica where
  data : Data
  lastApplied : ℕ
  /-- The last command has set the event. -/
  event : Bool

namespace Replica

def init : Replica := ⟨∅, 0, false⟩

end Replica

namespace Client

variable (c : Client)

/-- `_on_set`. The key, a string, is compared with two timestamps. -/
def onSet (data : Data) (key : String) (value : Entry) : Bool :=
  let leader := (data.lookup c.leaderPath).map fun entry => entry.value
  ((Sum.inl key : String ⊕ ℕ) = .inr value.created ∧ value.created = value.updated) ∧
      (c.membersPath.isPrefixOf key ∨ key = c.leaderPath ∧ leader ≠ some c.name) ∨
    (key = c.leaderOptimePath ∨ key = c.statusPath) ∧ leader ≠ some c.name ∨
    (key = c.configPath ∨ key = c.syncPath)

/-- `_on_delete`. -/
def onDelete (key : String) : Bool := key = c.leaderPath

/-- `__pop`, `none` if it raises. -/
def pop (r : Replica) (key : String) : Option Replica :=
  if key ∈ r.data then
    some { r with data := r.data.erase key, event := r.event || c.onDelete key }
  else none

/-- Apply a command, `none` if that raises. -/
def applyCommand (command : Command) (r : Replica) : Option Replica :=
  -- the number of the command and what it does to the event
  let r' : Replica := { r with lastApplied := r.lastApplied + 1, event := false }
  match command with
  | .set key value requirements =>
      if requirements.Check (r.data.lookup key) then
        let value := stored (r.data.lookup key) value r.lastApplied
        let data := r.data.insert key value
        some { r' with data, event := c.onSet data key value }
      else some r'
  | .delete key recursive requirements =>
      if recursive then (r.data.keys.filter fun k => key.isPrefixOf k).foldlM c.pop r'
      else if requirements.Check (r.data.lookup key) then c.pop r' key
      else some r'
  | .expire key value =>
      match r.data.lookup key with
      | none => some r'
      | some current => if ValuesMatch current value then c.pop r' key else some r'

variable {c}

theorem pop_of_mem {r : Replica} {key : String} (h : key ∈ r.data) :
    c.pop r key = some { r with data := r.data.erase key, event := r.event || c.onDelete key } :=
  if_pos h

theorem pop_eq_some {r r' : Replica} {key : String} :
    c.pop r key = some r' ↔ key ∈ r.data ∧
      { r with data := r.data.erase key, event := r.event || c.onDelete key } = r' := by
  simp [pop]

theorem pop_isSome {r : Replica} {key : String} : (c.pop r key).isSome = true ↔ key ∈ r.data := by
  unfold pop
  split <;> simp_all

/-- Keys that are all there are popped one after the other. -/
theorem foldlM_pop {keys : List String} (hnodup : keys.Nodup) {r : Replica}
    (h : ∀ key ∈ keys, key ∈ r.data) :
    keys.foldlM c.pop r = some { r with
      data := keys.foldl (fun data key => data.erase key) r.data
      event := r.event || keys.contains c.leaderPath } := by
  induction keys generalizing r with
  | nil => simp
  | cons key keys ih =>
      obtain ⟨hkey, hrest⟩ := List.nodup_cons.mp hnodup
      rw [List.foldlM_cons, pop_of_mem (h key List.mem_cons_self)]
      change keys.foldlM c.pop _ = _
      rw [ih hrest]
      · simp [onDelete, Bool.or_assoc, eq_comm]
      · intro k hk
        rw [AList.mem_erase]
        exact ⟨fun he => hkey (he ▸ hk), h k (List.mem_cons_of_mem _ hk)⟩

/-- The keys that a recursive delete pops. -/
theorem foldlM_pop_filter (r : Replica) (p : String → Bool) :
    (r.data.keys.filter p).foldlM c.pop r = some { r with
      data := (r.data.keys.filter p).foldl (fun data key => data.erase key) r.data
      event := r.event || (r.data.keys.filter p).contains c.leaderPath } := by
  refine foldlM_pop (r.data.keys_nodup.filter p) fun key hkey => ?_
  exact AList.mem_keys.mpr (List.mem_of_mem_filter hkey)

/-! ## Commands that raise -/

/-- What a command relies on: a key that is deleted without requirements is there. -/
def FindsKey (command : Command) (r : Replica) : Prop :=
  match command with
  | .delete key false requirements => requirements = anyway → key ∈ r.data
  | _ => True

instance (command : Command) (r : Replica) : Decidable (FindsKey command r) := by
  unfold FindsKey
  split <;> infer_instance

/-- An absent key meets the requirements of an issued delete only if there are none. -/
theorem check_none_iff {key : String} {requirements : Requirements}
    (h : Issued (.delete key false requirements)) :
    requirements.Check none ↔ requirements = anyway := by
  rcases h.requirements_of_delete with ⟨name, rfl⟩ | ⟨version, rfl⟩
  · simp [Requirements.Check, ownValue, anyway]
  · cases version <;> simp [Requirements.Check, atVersion, anyway]

theorem applyCommand_isSome_iff {command : Command} (h : Issued command) (r : Replica) :
    (c.applyCommand command r).isSome ↔ FindsKey command r := by
  cases command with
  | set key value requirements =>
      simp only [applyCommand, FindsKey, iff_true]
      split <;> rfl
  | delete key recursive requirements =>
      cases recursive with
      | true => simp [applyCommand, FindsKey, foldlM_pop_filter]
      | false =>
          simp only [applyCommand, FindsKey, Bool.false_eq_true, if_false]
          by_cases hkey : key ∈ r.data
          · split <;> simp [hkey, pop_isSome]
          · have hlookup : r.data.lookup key = none := AList.lookup_eq_none.mpr hkey
            simp only [hlookup, check_none_iff h, pop, hkey, if_false, imp_false]
            split <;> simp_all
  | expire key value =>
      simp only [FindsKey, iff_true]
      cases hcurrent : r.data.lookup key with
      | none => simp [applyCommand, hcurrent]
      | some current =>
          have hkey : key ∈ r.data := by
            rw [← AList.lookup_isSome, hcurrent]
            rfl
          simp only [applyCommand, hcurrent]
          split
          · exact pop_isSome.mpr hkey
          · rfl

/-- A sequence of issued commands is applied without an exception exactly if every delete
without requirements is applied at a time when its key is there. -/
theorem commands_are_total_iff {commands : List Command}
    (h : ∀ command ∈ commands, Issued command) :
    (exec c.applyCommand commands .init).isSome ↔
      Guarded c.applyCommand FindsKey commands .init := by
  generalize Replica.init = r
  induction commands generalizing r with
  | nil => simp [exec, Guarded]
  | cons command commands ih =>
      obtain ⟨hcommand, hrest⟩ := List.forall_mem_cons.mp h
      have hhead := applyCommand_isSome_iff (c := c) hcommand r
      cases hr : c.applyCommand command r with
      | none =>
          rw [hr] at hhead
          simp [exec, Guarded, hr, ← hhead]
      | some r' =>
          rw [hr] at hhead
          simp only [exec, Guarded, hr, Option.bind_some, ih hrest, ← hhead, Option.isSome_some,
            true_and, Option.some.injEq, forall_eq']

section Example

/-- Two nodes of a cluster. -/
def nodeA : Client := ⟨"a", "/service/demo"⟩

def nodeB : Client := ⟨"b", "/service/demo"⟩

/-- The cluster is going to be initialized. -/
def initializing : Data :=
  (∅ : Data).insert "/service/demo/initialize" ⟨"", 1, 1, none, 1⟩

/-- A node wins the initialization race. -/
def winRace : Command := .set "/service/demo/initialize" ⟨"", 1, 1, none, 0⟩ absent

/-- A node gives up. -/
def giveUp : Command := .delete "/service/demo/initialize" false anyway

theorem winRace_issued : Issued winRace :=
  .operation (show Operation.issue ∅ 30 1 nodeA (.initializeKey true "") = some winRace by
    decide +kernel)

/-- Each of the nodes has the key when it gives up. -/
theorem giveUp_issued (c : Client) (hc : c = nodeA ∨ c = nodeB) : Issued giveUp := by
  refine .operation (show Operation.issue initializing 30 2 c .cancelInitialization =
    some giveUp from ?_)
  rcases hc with rfl | rfl <;> decide +kernel

theorem commands_are_total_in_race :
    Guarded nodeA.applyCommand FindsKey [winRace, giveUp] .init ∧
      (exec nodeA.applyCommand [winRace, giveUp] .init).isSome := by
  have hissued : ∀ command ∈ [winRace, giveUp], Issued command := by
    simp [winRace_issued, giveUp_issued nodeA (.inl rfl)]
  have hsome : (exec nodeA.applyCommand [winRace, giveUp] .init).isSome := by decide +kernel
  exact ⟨(commands_are_total_iff hissued).mp hsome, hsome⟩

/-- Both nodes give up, and the second command finds no key. -/
theorem second_cancellation_raises :
    Issued winRace ∧ Issued giveUp ∧
      exec nodeA.applyCommand [winRace, giveUp, giveUp] .init = none := by
  refine ⟨winRace_issued, giveUp_issued nodeB (.inr rfl), ?_⟩
  have h : (exec nodeA.applyCommand [winRace, giveUp, giveUp] .init).isNone := by decide +kernel
  exact Option.isNone_iff_eq_none.mp h

end Example

/-! ## Commands that wake up `watch` -/

section Watch

variable (c)

/-- The command is a set that passes its requirements and finds no key. -/
def Creates (key : String) (value : Entry) (command : Command) (r : Replica) : Prop :=
  ∃ requirements, command = .set key value requirements ∧ requirements.Check none ∧
    key ∉ r.data

/-- The command creates a member key, or the leader key with another node's name. -/
def Announces (command : Command) (r : Replica) : Prop :=
  ∃ key value, Creates key value command r ∧
    (c.membersPath.isPrefixOf key ∨ key = c.leaderPath ∧ value.value ≠ c.name)

/-- The command writes a key. -/
def Writes (key : String) (command : Command) (r : Replica) : Prop :=
  ∃ value requirements, command = .set key value requirements ∧
    requirements.Check (r.data.lookup key)

/-- What a node that watches wants to be told of. -/
def Notable (command : Command) (r : Replica) : Prop :=
  c.Announces command r ∨
    ((Writes c.statusPath command r ∨ Writes c.leaderOptimePath command r) ∧
      ∃ entry ∈ r.data.lookup c.leaderPath, entry.value ≠ c.name) ∨
    (Writes c.configPath command r ∨ Writes c.syncPath command r) ∨
    c.leaderPath ∈ r.data ∧
      ∃ r', c.applyCommand command r = some r' ∧ c.leaderPath ∉ r'.data

/-- Applying the command sets the event. -/
def Wakes (command : Command) (r : Replica) : Prop :=
  ∀ r', c.applyCommand command r = some r' → r'.event

end Watch

theorem clientPath_inj {path path' : String} :
    c.clientPath path = c.clientPath path' ↔ path = path' := by
  rw [clientPath, clientPath, String.append_right_inj, String.append_right_inj]

theorem isPrefixOf_clientPath {path path' : String} :
    (c.clientPath path).isPrefixOf (c.clientPath path') = true ↔
      path.toList <+: path'.toList := by
  rw [String.isPrefixOf, String.startsWith_string_iff, clientPath, clientPath, String.toList_append,
    String.toList_append, String.toList_append, String.toList_append, List.prefix_append_right_inj,
    List.prefix_append_right_inj]

/-- The keys that a write of is told to a watching node, if the leader is another one. -/
def watched : List String := ["optime/leader", "status", "config", "sync"]

theorem watched_not_member : ∀ path ∈ watched, ¬"members/".toList <+: path.toList := by
  decide +kernel

/-- Of the three conditions of `_on_set` the first is never met. -/
theorem onSet_eq_false {data : Data} {key : String} {value : Entry}
    (h : ∀ path ∈ watched, key ≠ c.clientPath path) : c.onSet data key value = false := by
  simp only [watched, List.forall_mem_cons] at h
  obtain ⟨hoptime, hstatus, hconfig, hsync, -⟩ := h
  simp [onSet, leaderOptimePath, statusPath, configPath, syncPath, hoptime, hstatus, hconfig, hsync]

/-- A new member, or a new leader with another name, is not told to a watching node. -/
theorem Announces.not_wakes {command : Command} {r : Replica} (h : c.Announces command r) :
    ¬c.Wakes command r := by
  obtain ⟨key, value, ⟨requirements, rfl, hcheck, hkey⟩, hpath⟩ := h
  intro hwakes
  have hlookup : r.data.lookup key = none := AList.lookup_eq_none.mpr hkey
  have hwatched : ∀ path ∈ watched, key ≠ c.clientPath path := by
    rintro path hmem rfl
    rcases hpath with hmember | ⟨hleader, -⟩
    · rw [membersPath, isPrefixOf_clientPath] at hmember
      exact watched_not_member path hmem hmember
    · rw [leaderPath, clientPath_inj] at hleader
      subst hleader
      revert hmem
      decide
  have hevent := hwakes _ (by rw [applyCommand, hlookup, if_pos hcheck])
  rw [onSet_eq_false hwatched] at hevent
  cases hevent

theorem mem_foldl_erase {key : String} {keys : List String} (hkey : key ∉ keys) {data : Data}
    (h : key ∈ data) : key ∈ keys.foldl (fun data key => data.erase key) data := by
  induction keys generalizing data with
  | nil => exact h
  | cons key' keys ih =>
      refine ih (fun hmem => hkey (List.mem_cons_of_mem _ hmem)) ?_
      rw [AList.mem_erase]
      exact ⟨fun he => hkey (he ▸ List.mem_cons_self), h⟩

theorem pop_wakes {r r' : Replica} {key : String} (h : c.pop r key = some r')
    (hmem : c.leaderPath ∈ r.data) (hgone : c.leaderPath ∉ r'.data) : r'.event := by
  obtain ⟨-, rfl⟩ := pop_eq_some.mp h
  obtain rfl : c.leaderPath = key := by
    by_contra hne
    exact hgone (AList.mem_erase.mpr ⟨hne, hmem⟩)
  simp [onDelete]

/-- Whatever removes the leader key sets the event. -/
theorem wakes_of_leader_gone {command : Command} {r r' : Replica}
    (h : c.applyCommand command r = some r') (hmem : c.leaderPath ∈ r.data)
    (hgone : c.leaderPath ∉ r'.data) : r'.event := by
  cases command with
  | set key value requirements =>
      refine absurd ?_ hgone
      simp only [applyCommand] at h
      split at h
      · obtain rfl := Option.some.inj h
        exact (AList.mem_insert _).mpr (.inr hmem)
      · obtain rfl := Option.some.inj h
        exact hmem
  | delete key recursive requirements =>
      simp only [applyCommand] at h
      split at h
      · rw [foldlM_pop_filter] at h
        obtain rfl := Option.some.inj h
        simp only [Bool.false_or, List.contains_iff_mem]
        by_contra hnot
        exact hgone (mem_foldl_erase hnot hmem)
      · split at h
        · exact pop_wakes h hmem hgone
        · obtain rfl := Option.some.inj h
          exact absurd hmem hgone
  | expire key value =>
      cases hcurrent : r.data.lookup key with
      | none =>
          simp only [applyCommand, hcurrent] at h
          obtain rfl := Option.some.inj h
          exact absurd hmem hgone
      | some current =>
          simp only [applyCommand, hcurrent] at h
          split at h
          · exact pop_wakes h hmem hgone
          · obtain rfl := Option.some.inj h
            exact absurd hmem hgone

theorem applyCommand_of_writes {key : String} {value : Entry} {requirements : Requirements}
    {r : Replica} (hcheck : requirements.Check (r.data.lookup key)) :
    c.applyCommand (.set key value requirements) r =
      some ⟨r.data.insert key (stored (r.data.lookup key) value r.lastApplied), r.lastApplied + 1,
        c.onSet (r.data.insert key (stored (r.data.lookup key) value r.lastApplied)) key
          (stored (r.data.lookup key) value r.lastApplied)⟩ := by
  simp [applyCommand, hcheck]

theorem onSet_of_status {data : Data} {key : String} {value entry : Entry}
    (hkey : key = c.leaderOptimePath ∨ key = c.statusPath)
    (hentry : data.lookup c.leaderPath = some entry) (hname : entry.value ≠ c.name) :
    c.onSet data key value = true := by
  simp only [onSet, hentry, decide_eq_true_eq]
  exact .inr (.inl ⟨hkey, by simpa using hname⟩)

theorem status_ne_leaderPath {key : String}
    (hkey : key = c.leaderOptimePath ∨ key = c.statusPath) : c.leaderPath ≠ key := by
  rcases hkey with rfl | rfl
  all_goals
    intro h
    exact absurd (clientPath_inj.mp h) (by decide)

/-- A write of the status while another node is the leader. -/
theorem wakes_of_status {key : String} {command : Command} {r : Replica} {entry : Entry}
    (hkey : key = c.leaderOptimePath ∨ key = c.statusPath) (hwrites : Writes key command r)
    (hentry : r.data.lookup c.leaderPath = some entry) (hname : entry.value ≠ c.name) :
    c.Wakes command r := by
  obtain ⟨value, requirements, rfl, hcheck⟩ := hwrites
  intro r' hr'
  rw [applyCommand_of_writes hcheck] at hr'
  obtain rfl := Option.some.inj hr'
  refine onSet_of_status hkey ?_ hname
  rw [AList.lookup_insert_ne (status_ne_leaderPath hkey), hentry]

theorem wakes_of_config {key : String} {command : Command} {r : Replica}
    (hkey : key = c.configPath ∨ key = c.syncPath) (hwrites : Writes key command r) :
    c.Wakes command r := by
  obtain ⟨value, requirements, rfl, hcheck⟩ := hwrites
  intro r' hr'
  rw [applyCommand_of_writes hcheck] at hr'
  obtain rfl := Option.some.inj hr'
  simp only [onSet, decide_eq_true_eq]
  exact .inr (.inr hkey)

/-- A command that a watching node wants to be told of wakes it up unless it creates a
member key or the leader key with another node's name. -/
theorem wakes_iff (command : Command) (r : Replica) :
    (c.Notable command r → c.Wakes command r) ↔ ¬c.Announces command r := by
  constructor
  · intro h hannounces
    exact hannounces.not_wakes (h (.inl hannounces))
  · rintro hnot (hannounces | ⟨hwrites, entry, hentry, hname⟩ | hwrites | ⟨hmem, r', hr', hgone⟩)
    · exact absurd hannounces hnot
    · rcases hwrites with hwrites | hwrites
      · exact wakes_of_status (.inr rfl) hwrites hentry hname
      · exact wakes_of_status (.inl rfl) hwrites hentry hname
    · rcases hwrites with hwrites | hwrites
      · exact wakes_of_config (.inl rfl) hwrites
      · exact wakes_of_config (.inr rfl) hwrites
    · intro r'' hr''
      obtain rfl : r' = r'' := Option.some.inj (hr'.symm.trans hr'')
      exact wakes_of_leader_gone hr' hmem hgone

/-- In a sequence of commands all those that a node wants to be told of wake it up exactly
if none of them creates a member key or the leader key with another node's name. -/
theorem every_wakeup_iff (commands : List Command) :
    Guarded c.applyCommand (fun command r => c.Notable command r → c.Wakes command r) commands
        .init ↔
      Guarded c.applyCommand (fun command r => ¬c.Announces command r) commands .init :=
  guarded_congr wakes_iff commands .init

section Example

/-- A new member, and the same node as the first leader. -/
def touch : Command := .set "/service/demo/members/b" ⟨"{}", 1, 1, some 31, 0⟩ anyway

def acquire : Command := .set "/service/demo/leader" ⟨"b", 1, 1, some 31, 0⟩ absent

theorem touch_issued : Issued touch :=
  .operation (show Operation.issue ∅ 30 1 nodeB (.touchMember "{}") = some touch by
    decide +kernel)

theorem acquire_issued : Issued acquire :=
  .operation (show Operation.issue ∅ 30 1 nodeB .attemptToAcquireLeader = some acquire by
    decide +kernel)

/-- The other node sleeps on. -/
theorem new_leader_is_not_noticed :
    (Issued touch ∧ nodeA.Notable touch .init ∧ ¬nodeA.Wakes touch .init) ∧
      (Issued acquire ∧ nodeA.Notable acquire .init ∧ ¬nodeA.Wakes acquire .init) := by
  have hmember : nodeA.Announces touch .init :=
    ⟨_, _, ⟨_, rfl, by decide, by decide⟩, .inl (by decide +kernel)⟩
  have hleader : nodeA.Announces acquire .init :=
    ⟨_, _, ⟨_, rfl, by decide, by decide⟩, .inr ⟨by decide +kernel, by decide⟩⟩
  exact ⟨⟨touch_issued, .inl hmember, hmember.not_wakes⟩,
    ⟨acquire_issued, .inl hleader, hleader.not_wakes⟩⟩

end Example

end Client

end Raft

end Metatroni
