import Mathlib.Data.List.AList
import Mathlib.Order.Basic
import Metatroni.Lib.Runs

/-!
# The leader lock in the built-in Raft store

`KVStoreTTL` is a dictionary that every node changes by applying one log of
replicated commands. A command checks its requirements when it is applied, so
what it does depends on all commands before it in the log, from whichever node
they come and however often a call has repeated them.

## Implementation notes

The log is common to all nodes and every node has applied some prefix of it;
`pysyncobj` provides that. A command that was issued may enter the log at any
later time, and more than once. Times are natural numbers.
-/

namespace Metatroni

namespace Raft

open Runs

/-! ## `KVStoreTTL` -/

/-- The data of a key. -/
structure Entry where
  value : String
  created : ℕ
  updated : ℕ
  expire : Option ℕ
  index : ℕ
  deriving DecidableEq

/-- The keyword arguments of `set` and `delete`. -/
structure Requirements where
  prevExist : Option Bool
  prevValue : Option String
  prevIndex : Option ℕ
  deriving DecidableEq

/-- `__check_requirements`. -/
def Requirements.Check (requirements : Requirements) (old : Option Entry) : Prop :=
  (∀ exist ∈ requirements.prevExist, exist = old.isSome) ∧
    (∀ value ∈ requirements.prevValue, ∃ entry ∈ old, entry.value = value) ∧
    (∀ index ∈ requirements.prevIndex, ∃ entry ∈ old, entry.index = index)

instance (requirements : Requirements) (old : Option Entry) :
    Decidable (requirements.Check old) :=
  inferInstanceAs (Decidable (_ ∧ _ ∧ _))

/-- A replicated command. -/
inductive Command
  | set (key : String) (data : Entry) (requirements : Requirements)
  | delete (key : String) (recursive : Bool) (requirements : Requirements)
  | expire (key : String) (value : Entry)
  deriving DecidableEq

/-- The dictionary. -/
abbrev Data := AList fun _ : String => Entry

/-- `__values_match`. -/
def ValuesMatch (old new : Entry) : Prop :=
  old.created = new.created ∧ old.updated = new.updated ∧ old.expire = new.expire ∧
    old.value = new.value

instance (old new : Entry) : Decidable (ValuesMatch old new) :=
  inferInstanceAs (Decidable (_ ∧ _ ∧ _ ∧ _))

/-- What `_set` stores. -/
def stored (old : Option Entry) (data : Entry) (lastApplied : ℕ) : Entry :=
  { data with
    created := if ∃ entry ∈ old, entry.created ≠ data.created then data.updated else data.created
    index := lastApplied + 1 }

/-- Apply a command after `lastApplied` others: the dictionary, and whether the
result is something else than `False`. -/
def apply (data : Data) (lastApplied : ℕ) : Command → Data × Bool
  | .set key value requirements =>
      if requirements.Check (data.lookup key) then
        (data.insert key (stored (data.lookup key) value lastApplied), true)
      else (data, false)
  | .delete key recursive requirements =>
      if recursive then
        ((data.keys.filter fun k => key.isPrefixOf k).foldl (fun d k => d.erase k) data, true)
      else if requirements.Check (data.lookup key) then (data.erase key, true)
      else (data, false)
  | .expire key value =>
      match data.lookup key with
      | none => (data, true)
      | some current =>
          if ValuesMatch current value then (data.erase key, true) else (data, true)

/-- The key that a command is about. -/
def Command.key : Command → String
  | .set key _ _ | .delete key _ _ | .expire key _ => key

/-- The command deletes everything below its key. -/
def Command.recursive : Command → Bool
  | .delete _ recursive _ => recursive
  | .set .. | .expire .. => false

/-- A command leaves other keys alone. -/
theorem lookup_apply_of_ne {data : Data} {n : ℕ} {command : Command} {key : String}
    (hkey : command.key ≠ key) (hrecursive : command.recursive = false) :
    (apply data n command).1.lookup key = data.lookup key := by
  have hne : key ≠ command.key := hkey.symm
  cases command with
  | set key' value requirements =>
      rw [apply]
      split
      · exact AList.lookup_insert_ne hne
      · rfl
  | delete key' recursive requirements =>
      obtain rfl : recursive = false := hrecursive
      rw [apply, if_neg (by simp)]
      split
      · exact AList.lookup_erase_ne hne
      · rfl
  | expire key' value =>
      rw [apply]
      split
      · rfl
      · split
        · exact AList.lookup_erase_ne hne
        · rfl

/-! ## Nodes and the log -/

/-- A command, with the node that issued it and the number of its call. -/
structure Proposal where
  name : String
  call : ℕ
  command : Command
  deriving DecidableEq

/-- The dictionary after the first commands of a log. -/
def replay : List Proposal → ℕ → Data
  | _, 0 => ∅
  | log, n + 1 =>
      match log[n]? with
      | none => replay log n
      | some proposal => (apply (replay log n) n proposal.command).1

/-- What `set` sends for a key that had some data before. -/
def newEntry (old : Option Entry) (value : String) (ttl now : ℕ) : Entry where
  value := value
  created := (old.map fun entry => entry.created).getD now
  updated := now
  expire := if ttl = 0 then none else some (now + ttl)
  index := 0

/-- The requirements of `_update_leader`. -/
def ownValue (name : String) : Requirements := ⟨none, some name, none⟩

/-- The requirements of `attempt_to_acquire_leader`. -/
def absent : Requirements := ⟨some false, none, none⟩

/-- Where a call waits. -/
inductive Call
  /-- `_update_leader`, for its first write. -/
  | update (proposal : Proposal)
  /-- `_update_leader`, for the write of `attempt_to_acquire_leader`. -/
  | updateAcquire (proposal : Proposal)
  | acquire (proposal : Proposal)
  | delete (proposal : Proposal)
  deriving DecidableEq

/-- The command that a call waits for. -/
def Call.proposal : Call → Proposal
  | .update proposal | .updateAcquire proposal | .acquire proposal | .delete proposal => proposal

/-- A node. -/
structure Node where
  /-- `raftLastApplied`. -/
  applied : ℕ
  call : Option Call

/-- The log and the nodes. -/
structure System where
  log : List Proposal
  nodes : String → Node
  issued : List Proposal
  /-- The number of calls that were started. -/
  calls : ℕ
  /-- The calls of `_update_leader` that have returned `True`. -/
  updated : List (String × ℕ)

namespace System

/-- Nothing has happened yet. -/
def init : System := ⟨[], fun _ => ⟨0, none⟩, [], 0, []⟩

/-- Change one node. -/
def setNode (s : System) (name : String) (node : Node) : System :=
  { s with nodes := Function.update s.nodes name node }

/-- The data of a node. -/
def data (s : System) (name : String) : Data := replay s.log (s.nodes name).applied

/-- A call issues a command and waits for it. -/
def wait (s : System) (name : String) (proposal : Proposal) (call : Proposal → Call) : System :=
  { s.setNode name { s.nodes name with call := some (call proposal) } with
    issued := proposal :: s.issued }

/-- A call ends. -/
def finish (s : System) (name : String) : System :=
  s.setNode name { s.nodes name with call := none }

/-- A call of `_update_leader` returns `True`. -/
def succeed (s : System) (name : String) (call : ℕ) : System :=
  { s.finish name with updated := (name, call) :: s.updated }

section Leader

variable (leaderPath : String)

/-- `set` for the leader key: the requirements are checked before the command is
issued, too. -/
def setLeader (s : System) (name : String) (number ttl now : ℕ) (requirements : Requirements)
    (call : Proposal → Call) : System :=
  let old := (s.data name).lookup leaderPath
  if requirements.Check old then
    s.wait name ⟨name, number, .set leaderPath (newEntry old name ttl now) requirements⟩ call
  else s.finish name

/-- The end of `_update_leader` after its first write has failed. -/
def updateFailed (s : System) (name : String) (number ttl now : ℕ) : System :=
  if (s.data name).lookup leaderPath = none then
    s.setLeader leaderPath name number ttl now absent .updateAcquire
  else s.finish name

/-- `_update_leader` up to its first wait. -/
def updateLeader (s : System) (name : String) (ttl now : ℕ) : System :=
  if (ownValue name).Check ((s.data name).lookup leaderPath) then
    s.setLeader leaderPath name s.calls ttl now (ownValue name) .update
  else s.updateFailed leaderPath name s.calls ttl now

/-- `_delete_leader` up to its wait. -/
def deleteLeader (s : System) (name : String) : System :=
  if (ownValue name).Check ((s.data name).lookup leaderPath) then
    s.wait name ⟨name, s.calls, .delete leaderPath false (ownValue name)⟩ .delete
  else s

/-- The steps of the nodes and of the log. -/
inductive Label
  | updateLeader (name : String) (ttl now : ℕ)
  | attemptToAcquireLeader (name : String) (ttl now : ℕ)
  | deleteLeader (name : String)
  /-- `__expire_keys` on the Raft leader proposes to expire a key. -/
  | expireKey (name key : String) (now : ℕ)
  /-- Somebody issues a command for another key. -/
  | issue (proposal : Proposal)
  /-- A command enters the log. -/
  | commit (proposal : Proposal)
  /-- A node applies the next command. -/
  | apply (name : String)
  /-- A call is told the result of its command at a position of the log. -/
  | answer (name : String) (position ttl now : ℕ)
  /-- A command is denied. -/
  | deny (name : String) (ttl now : ℕ)
  /-- A call runs into its timeout and raises. -/
  | timeout (name : String)

/-- A call is told whether its command has succeeded. -/
def resume (s : System) (name : String) (ttl now : ℕ) (result : Bool) : Option System :=
  match (s.nodes name).call with
  | none => none
  | some (.update proposal) =>
      if result then some (s.succeed name proposal.call)
      else some (s.updateFailed leaderPath name proposal.call ttl now)
  | some (.updateAcquire proposal) =>
      if result then some (s.succeed name proposal.call) else some (s.finish name)
  | some (.acquire _) | some (.delete _) => some (s.finish name)

/-- One step. -/
def step (l : Label) (s : System) : Option System :=
  match l with
  | .updateLeader name ttl now =>
      if (s.nodes name).call = none then
        some { s.updateLeader leaderPath name ttl now with calls := s.calls + 1 }
      else none
  | .attemptToAcquireLeader name ttl now =>
      if (s.nodes name).call = none then
        some { s.setLeader leaderPath name s.calls ttl now absent .acquire with
          calls := s.calls + 1 }
      else none
  | .deleteLeader name =>
      if (s.nodes name).call = none then
        some { s.deleteLeader leaderPath name with calls := s.calls + 1 }
      else none
  | .expireKey name key now =>
      match (s.data name).lookup key with
      | none => none
      | some entry =>
          if ∃ expire ∈ entry.expire, expire ≤ now then
            some { s with issued := ⟨name, s.calls, .expire key entry⟩ :: s.issued }
          else none
  | .issue proposal =>
      if proposal.command.key ≠ leaderPath ∧ ¬ proposal.command.recursive then
        some { s with issued := proposal :: s.issued }
      else none
  | .commit proposal =>
      if proposal ∈ s.issued then some { s with log := s.log ++ [proposal] } else none
  | .apply name =>
      if (s.nodes name).applied < s.log.length then
        some (s.setNode name { s.nodes name with applied := (s.nodes name).applied + 1 })
      else none
  | .answer name position ttl now =>
      match (s.nodes name).call with
      | none => none
      | some call =>
          if position < (s.nodes name).applied ∧ s.log[position]? = some call.proposal then
            s.resume leaderPath name ttl now
              (apply (replay s.log position) position call.proposal.command).2
          else none
  | .deny name ttl now => s.resume leaderPath name ttl now false
  | .timeout name => some (s.finish name)

/-! ## One command -/

variable {leaderPath}

/-- What the nodes issue: the leader key gets the name of the node only if it is
absent or holds that name, and nothing is deleted recursively. -/
def Lawful (leaderPath : String) (proposal : Proposal) : Prop :=
  match proposal.command with
  | .set key data requirements =>
      key = leaderPath → data.value = proposal.name ∧
        (requirements = ownValue proposal.name ∨ requirements = absent)
  | .delete _ recursive _ => recursive = false
  | .expire _ _ => True

theorem lawful_of_other {proposal : Proposal} (hkey : proposal.command.key ≠ leaderPath)
    (hrecursive : ¬ proposal.command.recursive) : Lawful leaderPath proposal := by
  obtain ⟨name, call, command⟩ := proposal
  cases command with
  | set key data requirements => exact fun h => absurd h hkey
  | delete key recursive requirements => exact Bool.eq_false_iff.mpr hrecursive
  | expire key value => exact trivial

/-- The key is absent or holds the name. -/
def FreeFor (name : String) (old : Option Entry) : Prop := ∀ entry ∈ old, entry.value = name

/-- What a write of the leader key finds when it succeeds. -/
theorem freeFor_of_check {name : String} {requirements : Requirements} {old : Option Entry}
    (h : requirements = ownValue name ∨ requirements = absent) (hcheck : requirements.Check old) :
    FreeFor name old := by
  intro entry hentry
  rcases h with rfl | rfl
  · obtain ⟨entry', hentry', hvalue⟩ := hcheck.2.1 name rfl
    rwa [Option.some.inj (hentry.symm.trans hentry')]
  · have hexist := hcheck.1 false rfl
    rw [Option.mem_def.mp hentry] at hexist
    cases hexist

/-- What a lawful command can do to the leader key: nothing, take it away, or put a
name where no other name is. -/
theorem lookup_apply_leader {proposal : Proposal} (h : Lawful leaderPath proposal) (data : Data)
    (n : ℕ) :
    let old := data.lookup leaderPath
    let new := (apply data n proposal.command).1.lookup leaderPath
    new = old ∨ new = none ∨
      FreeFor proposal.name old ∧ ∃ entry, new = some entry ∧ entry.value = proposal.name := by
  intro old new
  by_cases hkey : proposal.command.key = leaderPath
  · cases hcommand : proposal.command with
    | set key value requirements =>
        rw [hcommand] at hkey
        obtain rfl : key = leaderPath := hkey
        simp only [Lawful, hcommand, true_imp_iff] at h
        simp only [new, hcommand, apply]
        split
        · next hcheck =>
            exact .inr (.inr ⟨freeFor_of_check h.2 hcheck, _, AList.lookup_insert _, h.1⟩)
        · exact .inl rfl
    | delete key recursive requirements =>
        rw [hcommand] at hkey
        obtain rfl : key = leaderPath := hkey
        simp only [Lawful, hcommand] at h
        simp only [new, hcommand, apply, h, Bool.false_eq_true, if_false]
        split
        · exact .inr (.inl (AList.lookup_erase _ _))
        · exact .inl rfl
    | expire key value =>
        rw [hcommand] at hkey
        obtain rfl : key = leaderPath := hkey
        simp only [new, hcommand, apply]
        split
        · exact .inl rfl
        · split
          · exact .inr (.inl (AList.lookup_erase _ _))
          · exact .inl rfl
  · left
    apply lookup_apply_of_ne hkey
    cases hcommand : proposal.command with
    | set => rfl
    | expire => rfl
    | delete key recursive requirements => simpa [Lawful, hcommand, Command.recursive] using h

/-- An expiry leaves data with another time of writing alone. -/
theorem lookup_apply_expire {data : Data} {n : ℕ} {key : String} {value current : Entry}
    (hcurrent : data.lookup key = some current) (hupdated : current.updated ≠ value.updated) :
    (apply data n (.expire key value)).1.lookup key = some current := by
  have hmatch : ¬ ValuesMatch current value := fun h => hupdated h.2.1
  rw [apply, hcurrent]
  simp [hmatch, hcurrent]

/-! ## The invariant -/

/-- The first commands of a log do not depend on the rest. -/
theorem replay_append (log rest : List Proposal) {n : ℕ} (h : n ≤ log.length) :
    replay (log ++ rest) n = replay log n := by
  induction n with
  | zero => simp [replay]
  | succ n ih =>
      rw [replay, replay, ih (by omega), List.getElem?_append_left (by omega)]

/-- The leader key after the first commands of the log. -/
def leaderAt (leaderPath : String) (s : System) (n : ℕ) : Option Entry :=
  (replay s.log n).lookup leaderPath

/-- A command at a position of the log that has written the leader key. -/
def Wrote (leaderPath : String) (s : System) (name : String) (call : ℕ) : Prop :=
  ∃ (n : ℕ) (proposal : Proposal), s.log[n]? = some proposal ∧ proposal.name = name ∧
    proposal.call = call ∧
    (∃ data requirements, proposal.command = .set leaderPath data requirements) ∧
    (apply (replay s.log n) n proposal.command).2

/-- The nodes, the commands and the results belong together. -/
structure Inv (leaderPath : String) (s : System) : Prop where
  lawful : ∀ proposal ∈ s.issued, Lawful leaderPath proposal
  log : ∀ proposal ∈ s.log, proposal ∈ s.issued
  applied : ∀ name, (s.nodes name).applied ≤ s.log.length
  /-- What is to expire was there. -/
  expired : ∀ proposal ∈ s.issued, ∀ entry, proposal.command = .expire leaderPath entry →
    ∃ n ≤ s.log.length, s.leaderAt leaderPath n = some entry
  /-- What a command of the log expires was there before the command. -/
  expiring : ∀ k proposal entry, s.log[k]? = some proposal →
    proposal.command = .expire leaderPath entry → ∃ n ≤ k, s.leaderAt leaderPath n = some entry
  waiting : ∀ name, ∀ call ∈ (s.nodes name).call, call.proposal.name = name ∧
    (call = .update call.proposal ∨ call = .updateAcquire call.proposal →
      ∃ data requirements, call.proposal.command = .set leaderPath data requirements)
  updated : ∀ entry ∈ s.updated, s.Wrote leaderPath entry.1 entry.2

theorem inv_init : init.Inv leaderPath where
  lawful := by simp [init]
  log := by simp [init]
  applied := by simp [init]
  expired := by simp [init]
  expiring := by simp [init]
  waiting := by simp [init]
  updated := by simp [init]

/-- One node changes. -/
theorem Inv.setNode {s : System} (h : s.Inv leaderPath) {name : String} {node : Node}
    (happlied : node.applied ≤ s.log.length)
    (hwaiting : ∀ call ∈ node.call, call.proposal.name = name ∧
      (call = .update call.proposal ∨ call = .updateAcquire call.proposal →
        ∃ data requirements, call.proposal.command = .set leaderPath data requirements)) :
    (s.setNode name node).Inv leaderPath where
  lawful := h.lawful
  log := h.log
  applied := by
    intro other
    by_cases hother : other = name
    · simpa [System.setNode, hother] using happlied
    · simpa [System.setNode, hother] using h.applied other
  expired := h.expired
  expiring := h.expiring
  waiting := by
    intro other call hcall
    by_cases hother : other = name
    · subst hother
      exact hwaiting call (by simpa [System.setNode] using hcall)
    · exact h.waiting other call (by simpa [System.setNode, hother] using hcall)
  updated := h.updated

theorem Inv.finish {s : System} (h : s.Inv leaderPath) (name : String) :
    (s.finish name).Inv leaderPath :=
  h.setNode (h.applied name) (by simp)

/-- A command is issued. -/
theorem Inv.issue {s : System} (h : s.Inv leaderPath) {proposal : Proposal}
    (hlawful : Lawful leaderPath proposal)
    (hexpired : ∀ entry, proposal.command = .expire leaderPath entry →
      ∃ n ≤ s.log.length, s.leaderAt leaderPath n = some entry) :
    Inv leaderPath { s with issued := proposal :: s.issued } where
  lawful := by
    intro p hp
    rcases List.mem_cons.mp hp with rfl | hp
    · exact hlawful
    · exact h.lawful p hp
  log p hp := List.mem_cons_of_mem proposal (h.log p hp)
  applied := h.applied
  expired := by
    intro p hp
    rcases List.mem_cons.mp hp with rfl | hp
    · exact hexpired
    · exact h.expired p hp
  expiring := h.expiring
  waiting := h.waiting
  updated := h.updated

/-- A command enters the log; everything before it stays as it was. -/
theorem Inv.commit {s : System} (h : s.Inv leaderPath) {proposal : Proposal}
    (hissued : proposal ∈ s.issued) : Inv leaderPath { s with log := s.log ++ [proposal] } where
  lawful := h.lawful
  log := by
    intro p hp
    rcases List.mem_append.mp hp with hp | hp
    · exact h.log p hp
    · rw [List.mem_singleton.mp hp]
      exact hissued
  applied name := (h.applied name).trans (by simp)
  expired := by
    intro p hp entry hcommand
    obtain ⟨n, hn, hentry⟩ := h.expired p hp entry hcommand
    exact ⟨n, hn.trans (by simp), by rwa [leaderAt, replay_append _ _ hn]⟩
  expiring := by
    intro k p entry hp hcommand
    have hk : k ≤ s.log.length := by
      have hlt := (List.getElem?_eq_some_iff.mp hp).1
      simpa [Nat.lt_succ_iff] using hlt
    obtain ⟨n, hn, hentry⟩ : ∃ n ≤ k, s.leaderAt leaderPath n = some entry := by
      rcases hk.lt_or_eq with hlt | rfl
      · rw [List.getElem?_append_left hlt] at hp
        exact h.expiring k p entry hp hcommand
      · have hlast : proposal = p := by simpa using hp
        exact h.expired p (hlast ▸ hissued) entry hcommand
    exact ⟨n, hn, by rwa [leaderAt, replay_append _ _ (hn.trans hk)]⟩
  waiting := h.waiting
  updated := by
    intro entry hentry
    obtain ⟨n, p, hp, hname, hcall, hset, hresult⟩ := h.updated entry hentry
    have hn : n < s.log.length := (List.getElem?_eq_some_iff.mp hp).1
    refine ⟨n, p, ?_, hname, hcall, hset, ?_⟩
    · rwa [List.getElem?_append_left hn]
    · rwa [replay_append _ _ hn.le]

/-- A call waits for a command that it issues. -/
theorem Inv.wait {s : System} (h : s.Inv leaderPath) {name : String} {proposal : Proposal}
    {call : Proposal → Call} (hname : proposal.name = name)
    (hproposal : (call proposal).proposal = proposal)
    (hlawful : Lawful leaderPath proposal)
    (hset : call proposal = .update proposal ∨ call proposal = .updateAcquire proposal →
      ∃ data requirements, proposal.command = .set leaderPath data requirements)
    (hexpire : ∀ entry, proposal.command ≠ .expire leaderPath entry) :
    (s.wait name proposal call).Inv leaderPath := by
  have hnode : (s.setNode name ⟨(s.nodes name).applied, some (call proposal)⟩).Inv
      leaderPath := by
    apply h.setNode
    · exact h.applied name
    · intro call' hcall'
      obtain rfl := Option.some.inj hcall'
      rw [hproposal]
      exact ⟨hname, hset⟩
  exact hnode.issue hlawful fun entry hcommand => absurd hcommand (hexpire entry)

/-- A write of the leader key is issued, or not. -/
theorem Inv.setLeader {s : System} (h : s.Inv leaderPath) (name : String) (number ttl now : ℕ)
    {requirements : Requirements} (hrequirements : requirements = ownValue name ∨
      requirements = absent) {call : Proposal → Call}
    (hproposal : ∀ proposal, (call proposal).proposal = proposal) :
    (s.setLeader leaderPath name number ttl now requirements call).Inv leaderPath := by
  rw [System.setLeader]
  split
  · apply h.wait
    · rfl
    · exact hproposal _
    · intro _
      exact ⟨rfl, hrequirements⟩
    · intro _
      exact ⟨_, _, rfl⟩
    · simp
  · exact h.finish name

theorem Inv.updateFailed {s : System} (h : s.Inv leaderPath) (name : String)
    (number ttl now : ℕ) : (s.updateFailed leaderPath name number ttl now).Inv leaderPath := by
  rw [System.updateFailed]
  split
  · exact h.setLeader name number ttl now (.inr rfl) fun _ => rfl
  · exact h.finish name

/-- The number of calls does not matter. -/
theorem Inv.setCalls {s : System} (h : s.Inv leaderPath) (calls : ℕ) :
    Inv leaderPath { s with calls := calls } :=
  ⟨h.lawful, h.log, h.applied, h.expired, h.expiring, h.waiting, h.updated⟩

theorem Inv.succeed {s : System} (h : s.Inv leaderPath) {name : String} {call : ℕ}
    (hwrote : s.Wrote leaderPath name call) : (s.succeed name call).Inv leaderPath := by
  have hfinish := h.finish name
  refine ⟨hfinish.lawful, hfinish.log, hfinish.applied, hfinish.expired, hfinish.expiring,
    hfinish.waiting, ?_⟩
  intro entry hentry
  rcases List.mem_cons.mp hentry with rfl | hentry
  · exact hwrote
  · exact h.updated entry hentry

/-- A call is told a result that its command had. -/
theorem resume_inv {s s' : System} {name : String} {ttl now : ℕ} {result : Bool}
    (h : s.resume leaderPath name ttl now result = some s') (hinv : s.Inv leaderPath)
    (hresult : result → ∀ call ∈ (s.nodes name).call, ∃ n,
      s.log[n]? = some call.proposal ∧ (apply (replay s.log n) n call.proposal.command).2) :
    s'.Inv leaderPath := by
  rw [resume] at h
  split at h
  · cases h
  · next proposal hcall =>
      obtain ⟨hname, hset⟩ := hinv.waiting name _ hcall
      split at h
      · next hsuccess =>
          obtain rfl := Option.some.inj h
          obtain ⟨n, hn, happly⟩ := hresult hsuccess _ hcall
          exact hinv.succeed ⟨n, proposal, hn, hname, rfl, hset (.inl rfl), happly⟩
      · obtain rfl := Option.some.inj h
        exact hinv.updateFailed name _ ttl now
  · next proposal hcall =>
      obtain ⟨hname, hset⟩ := hinv.waiting name _ hcall
      split at h
      · next hsuccess =>
          obtain rfl := Option.some.inj h
          obtain ⟨n, hn, happly⟩ := hresult hsuccess _ hcall
          exact hinv.succeed ⟨n, proposal, hn, hname, rfl, hset (.inr rfl), happly⟩
      · obtain rfl := Option.some.inj h
        exact hinv.finish name
  · obtain rfl := Option.some.inj h
    exact hinv.finish name
  · obtain rfl := Option.some.inj h
    exact hinv.finish name

theorem step_inv {l : Label} {s s' : System} (h : step leaderPath l s = some s')
    (hinv : s.Inv leaderPath) : s'.Inv leaderPath := by
  cases l with
  | updateLeader name ttl now =>
      simp only [step] at h
      split at h
      · obtain rfl := Option.some.inj h
        apply Inv.setCalls
        rw [System.updateLeader]
        split
        · exact hinv.setLeader name _ ttl now (.inl rfl) fun _ => rfl
        · exact hinv.updateFailed name _ ttl now
      · cases h
  | attemptToAcquireLeader name ttl now =>
      simp only [step] at h
      split at h
      · obtain rfl := Option.some.inj h
        exact (hinv.setLeader name _ ttl now (.inr rfl) fun _ => rfl).setCalls _
      · cases h
  | deleteLeader name =>
      simp only [step] at h
      split at h
      · obtain rfl := Option.some.inj h
        apply Inv.setCalls
        rw [System.deleteLeader]
        split
        · exact hinv.wait rfl rfl rfl (by simp) (by simp)
        · exact hinv
      · cases h
  | expireKey name key now =>
      simp only [step] at h
      split at h
      · cases h
      · next entry hentry =>
          split at h
          · obtain rfl := Option.some.inj h
            apply hinv.issue
            · exact trivial
            · intro entry' hcommand
              obtain ⟨rfl, rfl⟩ := Command.expire.inj hcommand
              exact ⟨_, hinv.applied name, hentry⟩
          · cases h
  | issue proposal =>
      simp only [step] at h
      split at h
      · next hother =>
          obtain rfl := Option.some.inj h
          apply hinv.issue (lawful_of_other hother.1 hother.2)
          intro entry hcommand
          exact absurd (by rw [hcommand, Command.key]) hother.1
      · cases h
  | commit proposal =>
      simp only [step] at h
      split at h
      · next hissued =>
          obtain rfl := Option.some.inj h
          exact hinv.commit hissued
      · cases h
  | apply name =>
      simp only [step] at h
      split at h
      · next hlt =>
          obtain rfl := Option.some.inj h
          exact hinv.setNode hlt (hinv.waiting name)
      · cases h
  | answer name position ttl now =>
      simp only [step] at h
      split at h
      · cases h
      · next call hcall =>
          split at h
          · next hposition =>
              apply resume_inv h hinv
              intro hsuccess call' hcall'
              obtain rfl := Option.some.inj (hcall.symm.trans hcall')
              exact ⟨position, hposition.2, hsuccess⟩
          · cases h
  | deny name ttl now => exact resume_inv h hinv (by simp)
  | timeout name =>
      obtain rfl := Option.some.inj h
      exact hinv.finish name

/-! ## Exclusivity -/

/-- One position of the log. -/
theorem Inv.leaderAt_succ {s : System} (h : s.Inv leaderPath) (n : ℕ) :
    let old := s.leaderAt leaderPath n
    let new := s.leaderAt leaderPath (n + 1)
    new = old ∨ new = none ∨
      ∃ name, FreeFor name old ∧ ∃ entry, new = some entry ∧ entry.value = name := by
  intro old new
  cases hn : s.log[n]? with
  | none =>
      left
      simp only [new, old, leaderAt, replay, hn]
  | some proposal =>
      have hlawful : Lawful leaderPath proposal :=
        h.lawful proposal (h.log proposal (List.mem_of_getElem? hn))
      have hnew : new = (apply (replay s.log n) n proposal.command).1.lookup leaderPath := by
        simp only [new, leaderAt, replay, hn]
      rw [hnew]
      rcases lookup_apply_leader hlawful (replay s.log n) n with hsame | hgone | hwritten
      · exact .inl hsame
      · exact .inr (.inl hgone)
      · exact .inr (.inr ⟨proposal.name, hwritten⟩)

/-- Between two names the key is absent. -/
theorem Inv.absent_between {s : System} (h : s.Inv leaderPath) {j k : ℕ} {a b : Entry}
    (hjk : j ≤ k) (ha : s.leaderAt leaderPath j = some a) (hb : s.leaderAt leaderPath k = some b)
    (hne : a.value ≠ b.value) : ∃ m, j < m ∧ m < k ∧ s.leaderAt leaderPath m = none := by
  induction hjk generalizing b with
  | refl =>
      rw [ha] at hb
      exact absurd (congrArg Entry.value (Option.some.inj hb)) hne
  | @step k hjk ih =>
      have earlier : ∀ c, s.leaderAt leaderPath k = some c → a.value ≠ c.value →
          ∃ m, j < m ∧ m < k + 1 ∧ s.leaderAt leaderPath m = none := by
        intro c hc hac
        obtain ⟨m, hjm, hmk, hm⟩ := ih hc hac
        exact ⟨m, hjm, hmk.trans k.lt_succ_self, hm⟩
      rcases h.leaderAt_succ k with hsame | hgone | ⟨name, hfree, entry, hentry, hvalue⟩
      · exact earlier b (hsame.symm.trans hb) hne
      · rw [hgone] at hb
        cases hb
      · obtain rfl : entry = b := Option.some.inj (hentry.symm.trans hb)
        cases hk : s.leaderAt leaderPath k with
        | none =>
            have hjk' : j ≠ k := by
              rintro rfl
              rw [ha] at hk
              cases hk
            exact ⟨k, lt_of_le_of_ne hjk hjk', k.lt_succ_self, hk⟩
        | some c =>
            have hc : c.value = entry.value := (hfree c hk).trans hvalue.symm
            exact earlier c hk (hc ▸ hne)

/-- A write of the leader key that has succeeded has found it free. -/
theorem Inv.wrote_free {s : System} (h : s.Inv leaderPath) {name : String} {call : ℕ}
    (hwrote : s.Wrote leaderPath name call) :
    ∃ (n : ℕ) (proposal : Proposal), s.log[n]? = some proposal ∧ proposal.name = name ∧
      proposal.call = call ∧
      (∃ data requirements, proposal.command = .set leaderPath data requirements) ∧
      FreeFor name (s.leaderAt leaderPath n) ∧
      ∃ entry, s.leaderAt leaderPath (n + 1) = some entry ∧ entry.value = name := by
  obtain ⟨n, proposal, hn, rfl, rfl, ⟨value, requirements, hcommand⟩, hresult⟩ := hwrote
  have hlawful := h.lawful proposal (h.log proposal (List.mem_of_getElem? hn))
  simp only [Lawful, hcommand, true_imp_iff] at hlawful
  have hcheck : requirements.Check (s.leaderAt leaderPath n) := by
    by_contra hcheck
    rw [leaderAt] at hcheck
    simp [hcommand, apply, hcheck] at hresult
  refine ⟨n, proposal, hn, rfl, rfl, ⟨value, requirements, hcommand⟩,
    freeFor_of_check hlawful.2 hcheck, stored (s.leaderAt leaderPath n) value n, ?_, hlawful.1⟩
  rw [leaderAt] at hcheck
  simp only [leaderAt, replay, hn, hcommand, apply, if_pos hcheck, AList.lookup_insert]

/-- An expiry in the log is for a version that was there, and keeps a later one. -/
theorem Inv.expire_keeps {s : System} (h : s.Inv leaderPath) {k : ℕ} {proposal : Proposal}
    {old : Entry} (hk : s.log[k]? = some proposal)
    (hcommand : proposal.command = .expire leaderPath old) :
    (∃ n ≤ k, s.leaderAt leaderPath n = some old) ∧
      ∀ current, s.leaderAt leaderPath k = some current → current.updated ≠ old.updated →
        s.leaderAt leaderPath (k + 1) = some current := by
  constructor
  · exact h.expiring k proposal old hk hcommand
  · intro current hcurrent hupdated
    simp only [leaderAt, replay, hk, hcommand]
    exact lookup_apply_expire hcurrent hupdated

/-- For every order of the commands that nodes issue for the leader key: between two
different names the key is absent; a call of `_update_leader` that has returned `True`
has written the key at a position of the log where it was absent or held the name of
the caller; and an expiry is for a version that was there, and removes none with
another time of writing. -/
theorem lock_is_exclusive {s : System} {ls : List Label}
    (run : Run (step leaderPath) (fun _ _ => True) init ls s) :
    (∀ j k a b, j ≤ k → s.leaderAt leaderPath j = some a → s.leaderAt leaderPath k = some b →
      a.value ≠ b.value → ∃ m, j < m ∧ m < k ∧ s.leaderAt leaderPath m = none) ∧
    (∀ name call, (name, call) ∈ s.updated →
      ∃ (n : ℕ) (proposal : Proposal), s.log[n]? = some proposal ∧ proposal.name = name ∧
        proposal.call = call ∧
        (∃ data requirements, proposal.command = .set leaderPath data requirements) ∧
        FreeFor name (s.leaderAt leaderPath n) ∧
        ∃ entry, s.leaderAt leaderPath (n + 1) = some entry ∧ entry.value = name) ∧
    ∀ k proposal old, s.log[k]? = some proposal → proposal.command = .expire leaderPath old →
      (∃ n ≤ k, s.leaderAt leaderPath n = some old) ∧
        ∀ current, s.leaderAt leaderPath k = some current → current.updated ≠ old.updated →
          s.leaderAt leaderPath (k + 1) = some current := by
  have hinv : s.Inv leaderPath := run.invariant (fun _ _ _ _ => step_inv) inv_init
  refine ⟨?_, ?_, ?_⟩
  · intro j k a b hjk ha hb hne
    exact hinv.absent_between hjk ha hb hne
  · intro name call hupdated
    exact hinv.wrote_free (hinv.updated (name, call) hupdated)
  · intro k proposal old hk hcommand
    exact hinv.expire_keeps hk hcommand

/-- A node takes the lock and updates it while its first version is about to expire;
the expiry is applied after the update. Then the node gives the lock to another. -/
def handover : List Label :=
  let taken : Proposal := ⟨"a", 0, .set "leader" (newEntry none "a" 30 0) absent⟩
  let first : Entry := ⟨"a", 0, 0, some 30, 1⟩
  let expiry : Proposal := ⟨"a", 1, .expire "leader" first⟩
  let renewed : Proposal := ⟨"a", 1, .set "leader" (newEntry (some first) "a" 30 40) (ownValue "a")⟩
  let released : Proposal := ⟨"a", 2, .delete "leader" false (ownValue "a")⟩
  let other : Proposal := ⟨"b", 3, .set "leader" (newEntry none "b" 30 50) absent⟩
  [.attemptToAcquireLeader "a" 30 0, .commit taken, .apply "a", .answer "a" 0 30 0,
    .expireKey "a" "leader" 40, .updateLeader "a" 30 40, .commit renewed, .commit expiry,
    .apply "a", .answer "a" 1 30 40, .apply "a", .deleteLeader "a", .commit released,
    .attemptToAcquireLeader "b" 30 50, .commit other]

theorem lock_is_exclusive_in_handover :
    ∃ s, Run (step "leader") (fun _ _ => True) init handover s ∧
      (∃ m, 1 < m ∧ m < 5 ∧ s.leaderAt "leader" m = none) ∧
      (∃ (n : ℕ) (proposal : Proposal), s.log[n]? = some proposal ∧ proposal.call = 1 ∧
        FreeFor "a" (s.leaderAt "leader" n)) ∧
      s.leaderAt "leader" 3 = s.leaderAt "leader" 2 := by
  obtain ⟨s, hs⟩ : ∃ s, exec (step "leader") handover init = some s :=
    Option.isSome_iff_exists.mp (by decide +kernel)
  have run : Run (step "leader") (fun _ _ => True) init handover s :=
    run_of_exec hs (guarded_true _ _)
  have hend : (exec (step "leader") handover init).all (fun s =>
      s.leaderAt "leader" 1 = some ⟨"a", 0, 0, some 30, 1⟩ ∧
      s.leaderAt "leader" 2 = some ⟨"a", 0, 40, some 70, 2⟩ ∧
      s.leaderAt "leader" 5 = some ⟨"b", 50, 50, some 80, 5⟩ ∧
      s.log[2]? = some ⟨"a", 1, .expire "leader" ⟨"a", 0, 0, some 30, 1⟩⟩ ∧
      s.updated = [("a", 1)]) := by
    decide +kernel
  rw [hs] at hend
  obtain ⟨h1, h2, h5, hlog, hupdated⟩ := of_decide_eq_true hend
  obtain ⟨hbetween, hwrote, hexpire⟩ := lock_is_exclusive run
  refine ⟨s, run, ?_, ?_, ?_⟩
  · exact hbetween 1 5 _ _ (by decide) h1 h5 (by decide)
  · obtain ⟨n, proposal, hn, -, hcall, -, hfree, -⟩ := hwrote "a" 1 (by simp [hupdated])
    exact ⟨n, proposal, hn, hcall, hfree⟩
  · rw [h2]
    exact (hexpire 2 _ _ hlog rfl).2 _ h2 (by decide)

end Leader

end System

end Raft

end Metatroni
