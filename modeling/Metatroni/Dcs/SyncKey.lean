import Metatroni.Cluster
import Metatroni.Lib.Json
import Metatroni.Lib.LowerCase
import Metatroni.Lib.Versioned
import Mathlib.Data.List.Lex

/-!
# The text of the `/sync` key

`AbstractDCS.sync_state` makes a dictionary of the leader, the synchronous standbys and the
quorum, which is stored as JSON, and `SyncState.from_node` makes a `SyncState` of
what it finds. The names of the standbys are joined with commas, so they come back
where they are not empty and have no comma and no white space at their ends.

## Implementation notes

The fields of a `SyncState` are what `json.loads` gives, whatever the type. An
operation is `none` where it raises an exception that the code does not catch.
-/

namespace Metatroni

variable {φ ω : Type} [PyRuntime φ]

/-- `SyncState`, with the fields as they were read. -/
structure RawSyncState (φ ω : Type) where
  version : Option ω
  leader : PyValue φ
  syncStandby : PyValue φ
  quorum : ℤ

namespace RawSyncState

/-- `empty` -/
def empty (version : Option ω) : RawSyncState φ ω := ⟨version, .none, .none, 0⟩

/-- The value of a key, `None` if it is missing. -/
def field (key : String) (entries : PyDict φ) : PyValue φ :=
  (Assoc.get key.toList entries).getD .none

/-- The part of `from_node` behind the check that the value is a dictionary. -/
def ofDict (version : Option ω) (entries : PyDict φ) : Option (RawSyncState φ ω) :=
  let leader := field "leader" entries
  let quorum := field "quorum" entries
  if leader.truthy && quorum.truthy then
    match quorum.toInt with
    | .ok n => some ⟨version, leader, field "sync_standby" entries, n⟩
    | .error .overflowError => none
    | .error _ => some (empty version)
  else some ⟨version, leader, field "sync_standby" entries, 0⟩

/-- `from_node` -/
def fromNode (version : Option ω) (value : PyValue φ) : Option (RawSyncState φ ω) :=
  let value : Option (PyValue φ) :=
    match value with
    | .str s => if s ≠ [] then Json.loads s else some value
    | value => some value
  match value with
  | some (.dict entries) => ofDict version entries
  | _ => some (empty version)

/-- `is_empty` -/
def isEmpty (sync : RawSyncState φ ω) : Bool := !sync.leader.truthy

/-- `_str_to_list` -/
def strToList (value : List Char) : List (List Char) :=
  ((value.splitOn ',').map Text.strip).filter (· ≠ [])

/-- `voters` -/
def voters (sync : RawSyncState φ ω) : Option (List (List Char)) :=
  if !sync.isEmpty && sync.syncStandby.truthy then
    match sync.syncStandby with
    | .str s => some (strToList s)
    | _ => none
  else some []

/-- `members` -/
def members (sync : RawSyncState φ ω) : Option (List (PyValue φ)) :=
  if !sync.leader.truthy then some []
  else sync.voters.map fun voters => sync.leader :: voters.map .str

/-- `value or ''`, to which a text is added next. -/
def orText (value : PyValue φ) : Option (List Char) :=
  match value with
  | .str s => some s
  | value => if value.truthy then none else some []

variable [CaseTable]

/-- `matches` -/
def matchesName (sync : RawSyncState φ ω) (name : Option (List Char)) (checkLeader : Bool) :
    Option Bool :=
  match name with
  | some (c :: cs) =>
      if sync.isEmpty then some false
      else do
        let standby ← orText sync.syncStandby
        let leader ← if checkLeader then (orText sync.leader).map (',' :: ·) else some []
        some (Text.lower (c :: cs) ∈ strToList (Text.lower (standby ++ leader)))
  | _ => some false

/-- `leader_matches` -/
def leaderMatches (sync : RawSyncState φ ω) (name : Option (List Char)) : Option Bool :=
  match name with
  | some (c :: cs) =>
      if sync.isEmpty then some false
      else (orText sync.leader).map fun leader => Text.lower (c :: cs) = Text.lower leader
  | _ => some false

end RawSyncState

/-- A name or `None`. -/
def optionText : Option (List Char) → PyValue φ
  | some s => .str s
  | none => .none

/-- `AbstractDCS.sync_state` -/
def syncState (leader : Option (List Char)) (syncStandby : Option (List (List Char)))
    (quorum : Option ℤ) : PyDict φ :=
  [("leader".toList, optionText leader),
    ("quorum".toList, quorum.elim .none .int),
    ("sync_standby".toList,
      match syncStandby with
      | some (name :: names) =>
          .str ([','].intercalate ((name :: names).insertionSort (· ≤ ·)))
      | _ => .none)]

/-- The `/sync` key of a backend: `set_sync_state_value` gives the version of what it has
stored, and readers find both. -/
structure SyncBackend (σ ω : Type) where
  setSyncStateValue : List Char → Option ω → σ → Option ω × σ
  sync : σ → Option (ω × List Char)
  sync_set : ∀ {value : List Char} {version : Option ω} {s : σ} {new : ω} {s' : σ},
    setSyncStateValue value version s = (some new, s') → sync s' = some (new, value)

namespace SyncBackend

variable {σ : Type} (backend : SyncBackend σ ω)

variable (φ) in
/-- `AbstractDCS.write_sync_state`; the inner `none` is its `None`. -/
def writeSyncState (leader : Option (List Char)) (syncStandby : Option (List (List Char)))
    (quorum : Option ℤ) (version : Option ω) (s : σ) : Option (Option (RawSyncState φ ω)) × σ :=
  let syncValue : PyDict φ := syncState leader syncStandby quorum
  match backend.setSyncStateValue (Json.dumps (.dict syncValue)) version s with
  | (some new, s) => ((RawSyncState.fromNode (some new) (.dict syncValue)).map some, s)
  | (none, s) => (some none, s)

variable (φ) in
/-- What a node makes of the key when it loads the cluster. -/
def loadSync (s : σ) : Option (RawSyncState φ ω) :=
  match backend.sync s with
  | some (version, value) => RawSyncState.fromNode (some version) (.str value)
  | none => RawSyncState.fromNode none .none

end SyncBackend

/-! ## Names in the list -/

/-- A name that the comma-separated list can hold. -/
structure IsListable (name : List Char) : Prop where
  ne_nil : name ≠ []
  comma_notMem : ',' ∉ name
  trimmed : Text.IsTrimmed name

namespace RawSyncState

theorem strToList_append_comma (cs rest : List Char) :
    strToList (cs ++ ',' :: rest) = strToList cs ++ strToList rest := by
  rw [strToList, List.splitOn_append_cons_self, List.map_append, List.filter_append]
  rfl

theorem strToList_of_listable {name : List Char} (h : IsListable name) :
    strToList name = [name] := by
  rw [strToList, List.splitOn_eq_singleton h.comma_notMem, List.map_singleton,
    h.trimmed.strip_eq, List.filter_cons_of_pos (by simpa using h.ne_nil), List.filter_nil]

/-- Joined names are split again. -/
theorem strToList_intercalate {names : List (List Char)} (h : ∀ name ∈ names, IsListable name) :
    strToList ([','].intercalate names) = names := by
  induction names with
  | nil => rfl
  | cons name names ih =>
      obtain ⟨hname, hnames⟩ := List.forall_mem_cons.mp h
      cases names with
      | nil => simpa using strToList_of_listable hname
      | cons next names =>
          rw [List.intercalate_cons_cons, List.append_assoc, List.singleton_append,
            strToList_append_comma, strToList_of_listable hname, ih hnames, List.singleton_append]

end RawSyncState

theorem IsListable.lower [CaseTable] {name : List Char} (h : IsListable name) :
    IsListable (Text.lower name) where
  ne_nil := mt Text.lower_eq_nil_iff.mp h.ne_nil
  comma_notMem := Text.comma_notMem_lowerFrom h.comma_notMem []
  trimmed := h.trimmed.lower

/-! ## The round trip -/

/-- The text that `sync_state` puts under `sync_standby`. -/
def joinedStandby (names : List (List Char)) : List Char :=
  [','].intercalate (names.insertionSort (· ≤ ·))

omit [PyRuntime φ] in
theorem exact_syncState (leader : Option (List Char)) (syncStandby : Option (List (List Char)))
    (quorum : Option ℤ) : Json.Exact (.dict (syncState leader syncStandby quorum : PyDict φ)) := by
  have hkeys : ["leader".toList, "quorum".toList, "sync_standby".toList].Nodup := by decide
  rw [Json.Exact]
  refine ⟨hkeys, ?_⟩
  simp only [syncState, Json.ExactEntries, and_true]
  refine ⟨?_, ?_, ?_⟩
  · cases leader <;> simp [optionText, Json.Exact]
  · cases quorum <;> simp [Json.Exact]
  · split <;> simp [Json.Exact]

/-- Readers of the text see the dictionary that was written. -/
theorem fromNode_dumps (version : Option ω) {value : PyValue φ} (h : Json.Exact value) :
    RawSyncState.fromNode version (.str (Json.dumps value) : PyValue φ) =
      match value with
      | .dict entries => RawSyncState.ofDict version entries
      | _ => some (RawSyncState.empty version) := by
  have hne : Json.dumps value ≠ [] := by
    obtain ⟨c, cs, hcs, -⟩ := Json.dumps_eq_cons h
    rw [hcs]
    exact List.cons_ne_nil c cs
  simp only [RawSyncState.fromNode, ne_eq, hne, not_false_eq_true, if_true, Json.loads_dumps h]
  cases value <;> rfl

section RoundTrip

variable {leader : List Char} {names : List (List Char)}

/-- What `sync_state` and `from_node` make of a leader, some standbys and a quorum. -/
def decoded (version : Option ω) (leader : List Char) (names : List (List Char)) (quorum : ℕ) :
    RawSyncState φ ω :=
  ⟨version, .str leader, if names = [] then .none else .str (joinedStandby names), quorum⟩

theorem ofDict_syncState (version : Option ω) (hleader : leader ≠ []) (names : List (List Char))
    (quorum : ℕ) :
    RawSyncState.ofDict version (syncState (some leader) (some names) (some quorum) : PyDict φ) =
      some (decoded version leader names quorum) := by
  have hstandby : RawSyncState.field "sync_standby"
      (syncState (some leader) (some names) (some quorum) : PyDict φ) =
        if names = [] then .none else .str (joinedStandby names) := by
    cases names <;> rfl
  have hlead : (PyValue.str leader : PyValue φ).truthy = true := decide_eq_true hleader
  rw [RawSyncState.ofDict, hstandby]
  change (if (PyValue.str leader : PyValue φ).truthy && (PyValue.int quorum : PyValue φ).truthy then
    _ else _) = _
  rw [hlead, Bool.true_and]
  by_cases hquorum : quorum = 0
  · subst hquorum
    rfl
  · rw [if_pos (by simpa [PyValue.truthy] using hquorum)]
    rfl

theorem listable_sorted (hnames : ∀ name ∈ names, IsListable name) :
    ∀ name ∈ names.insertionSort (· ≤ ·), IsListable name :=
  fun name hname => hnames name ((List.mem_insertionSort _).mp hname)

theorem isEmpty_decoded (version : Option ω) (hleader : leader ≠ []) (quorum : ℕ) :
    (decoded version leader names quorum : RawSyncState φ ω).isEmpty = false := by
  rw [RawSyncState.isEmpty, Bool.not_eq_false']
  exact decide_eq_true hleader

theorem orText_decoded (version : Option ω) (quorum : ℕ) :
    RawSyncState.orText (decoded version leader names quorum : RawSyncState φ ω).syncStandby =
      some (joinedStandby names) := by
  rw [decoded]
  split
  · next hnil =>
      subst hnil
      rfl
  · rfl

/-- The voters are the names, sorted. -/
theorem voters_decoded (version : Option ω) (hleader : leader ≠ [])
    (hnames : ∀ name ∈ names, IsListable name) (quorum : ℕ) :
    (decoded version leader names quorum : RawSyncState φ ω).voters =
      some (names.insertionSort (· ≤ ·)) := by
  have hsplit : RawSyncState.strToList (joinedStandby names) = names.insertionSort (· ≤ ·) :=
    RawSyncState.strToList_intercalate (listable_sorted hnames)
  rw [RawSyncState.voters, isEmpty_decoded version hleader]
  by_cases hnil : names = []
  · subst hnil
    rfl
  · have hjoined : joinedStandby names ≠ [] := by
      intro h
      rw [h] at hsplit
      exact hnil (List.perm_nil.mp ((List.perm_insertionSort (· ≤ ·) names).symm.trans
        (.of_eq hsplit.symm)))
    have htruthy : (PyValue.str (joinedStandby names) : PyValue φ).truthy = true :=
      decide_eq_true hjoined
    simp only [decoded, if_neg hnil, htruthy]
    rw [if_pos (by decide), hsplit]

variable [CaseTable]

/-- The names that `matches` looks at. -/
def searched (leader : List Char) (names : List (List Char)) (checkLeader : Bool) :
    List (List Char) :=
  if checkLeader then leader :: names else names

theorem matchesName_decoded (version : Option ω) (hleader : leader ≠ []) (quorum : ℕ)
    (checkLeader : Bool) (hnames : ∀ name ∈ searched leader names checkLeader, IsListable name)
    (name : List Char) :
    (decoded version leader names quorum : RawSyncState φ ω).matchesName (some name) checkLeader =
      some (decide (∃ member ∈ searched leader names checkLeader,
        Text.lower name = Text.lower member)) := by
  have hlist : ∀ member ∈ names, IsListable member := by
    cases checkLeader with
    | true => exact (List.forall_mem_cons.mp hnames).2
    | false => exact hnames
  have hsplit : RawSyncState.strToList (Text.lower (joinedStandby names)) =
      (names.insertionSort (· ≤ ·)).map Text.lower := by
    rw [joinedStandby, Text.lower_intercalate]
    refine RawSyncState.strToList_intercalate fun low hlow => ?_
    obtain ⟨member, hmember, rfl⟩ := List.mem_map.mp hlow
    exact (listable_sorted hlist member hmember).lower
  have hmem : ∀ low, low ∈ (names.insertionSort (· ≤ ·)).map Text.lower ↔
      ∃ member ∈ names, low = Text.lower member := by
    intro low
    simp only [List.mem_map, List.mem_insertionSort, eq_comm]
  cases name with
  | nil =>
      refine congrArg some (decide_eq_false ?_).symm
      rintro ⟨member, hmember, heq⟩
      exact (hnames member hmember).lower.ne_nil heq.symm
  | cons c cs =>
      rw [RawSyncState.matchesName, if_neg (by simp [isEmpty_decoded version hleader]),
        orText_decoded]
      cases checkLeader with
      | false =>
          simp only [Option.bind_eq_bind, Option.bind_some, Bool.false_eq_true, if_false,
            List.append_nil, hsplit, hmem]
          rfl
      | true =>
          have hone := RawSyncState.strToList_of_listable (hnames leader List.mem_cons_self).lower
          have htext : RawSyncState.orText
              (decoded version leader names quorum : RawSyncState φ ω).leader = some leader := rfl
          simp only [Option.bind_eq_bind, Option.bind_some, if_true, htext, Option.map_some,
            Text.lower_append_comma, RawSyncState.strToList_append_comma, hsplit, hone,
            List.mem_append, hmem, List.mem_singleton]
          congr 2
          simp only [searched, if_true, List.mem_cons, exists_eq_or_imp, or_comm]

/-! ## The view of the leader race -/

instance : NodeName (List Char) :=
  { (inferInstance : LinearOrder (List Char)) with lower := Text.lower }

/-- The `SyncState` that the rest of the code works with. -/
def RawSyncState.view (sync : RawSyncState φ ω) : Option (SyncState (List Char)) := do
  let leader ← orText sync.leader
  let standby ← orText sync.syncStandby
  some ⟨if leader = [] then none else some leader, strToList standby, sync.quorum⟩

omit [CaseTable] in
theorem view_decoded (version : Option ω) (hleader : leader ≠ [])
    (hnames : ∀ name ∈ names, IsListable name) (quorum : ℕ) :
    (decoded version leader names quorum : RawSyncState φ ω).view =
      some ⟨some leader, names.insertionSort (· ≤ ·), quorum⟩ := by
  have hsplit : RawSyncState.strToList (joinedStandby names) = names.insertionSort (· ≤ ·) :=
    RawSyncState.strToList_intercalate (listable_sorted hnames)
  have hleaderText : RawSyncState.orText
      (decoded version leader names quorum : RawSyncState φ ω).leader = some leader := rfl
  rw [RawSyncState.view, hleaderText, orText_decoded]
  simp only [Option.bind_eq_bind, Option.bind_some, if_neg hleader, hsplit]
  rfl

/-- The search in the text finds what the comparison of the names finds. -/
theorem matchesName_view (version : Option ω) (hleader : IsListable leader)
    (hnames : ∀ name ∈ names, IsListable name) (quorum : ℕ) (name : List Char)
    (checkLeader : Bool) :
    (decoded version leader names quorum : RawSyncState φ ω).matchesName (some name) checkLeader =
      (decoded version leader names quorum : RawSyncState φ ω).view.map fun view =>
        view.matchesName name checkLeader := by
  have hsearched : ∀ member ∈ searched leader names checkLeader, IsListable member := by
    cases checkLeader with
    | true => exact List.forall_mem_cons.mpr ⟨hleader, hnames⟩
    | false => exact hnames
  rw [matchesName_decoded version hleader.ne_nil quorum checkLeader hsearched,
    view_decoded version hleader.ne_nil hnames, Option.map_some]
  congr 1
  rw [Bool.eq_iff_iff, decide_eq_true_eq]
  have hlower : ∀ cs : List Char, lower cs = Text.lower cs := fun _ => rfl
  simp only [SyncState.matchesName, SyncState.leaderMatches, SyncState.isEmpty, Option.isNone_some,
    Bool.not_false, Bool.true_and, Bool.or_eq_true, List.any_eq_true, Bool.and_eq_true,
    decide_eq_true_eq, List.mem_insertionSort, hlower, eq_comm (b := Text.lower name)]
  cases checkLeader with
  | false => simp only [searched, Bool.false_eq_true, if_false, false_and, or_false]
  | true =>
      simp only [searched, if_true, true_and, List.mem_cons, exists_eq_or_imp]
      exact or_comm

/-- What is written to `/sync` is what every node reads there. -/
theorem syncState_roundTrip {σ : Type} (backend : SyncBackend σ ω) (hleader : leader ≠ [])
    (hnames : ∀ name ∈ names, IsListable name) (quorum : ℕ) :
    (∀ version : Option ω, ∃ sync : RawSyncState φ ω,
      RawSyncState.fromNode version (.str (Json.dumps
        (.dict (syncState (some leader) (some names) (some quorum) : PyDict φ))) : PyValue φ) =
          some sync ∧
      sync.leader = .str leader ∧ sync.quorum = quorum ∧
      (∃ voters, sync.voters = some voters ∧ voters.Perm names) ∧
      (∀ name, sync.matchesName (some name) false =
        some (decide (∃ voter ∈ names, Text.lower name = Text.lower voter))) ∧
      (IsListable leader → ∀ name, sync.matchesName (some name) true =
        some (decide (∃ member ∈ leader :: names, Text.lower name = Text.lower member)))) ∧
    ∀ version s s' (sync : RawSyncState φ ω),
      backend.writeSyncState φ (some leader) (some names) (some quorum) version s =
        (some (some sync), s') → backend.loadSync φ s' = some sync := by
  have hread : ∀ version : Option ω, RawSyncState.fromNode version (.str (Json.dumps
      (.dict (syncState (some leader) (some names) (some quorum) : PyDict φ))) : PyValue φ) =
        some (decoded version leader names quorum) := by
    intro version
    rw [fromNode_dumps version (exact_syncState _ _ _)]
    exact ofDict_syncState version hleader names quorum
  constructor
  · intro version
    refine ⟨_, hread version, rfl, rfl,
      ⟨_, voters_decoded version hleader hnames quorum, List.perm_insertionSort _ _⟩, ?_, ?_⟩
    · exact matchesName_decoded version hleader quorum false hnames
    · intro hlistable
      exact matchesName_decoded version hleader quorum true
        (List.forall_mem_cons.mpr ⟨hlistable, hnames⟩)
  · intro version s s' sync hwrite
    rw [SyncBackend.writeSyncState] at hwrite
    split at hwrite
    · next new s'' hset =>
        obtain ⟨hsync, rfl⟩ := Prod.mk.inj hwrite
        rw [SyncBackend.loadSync, backend.sync_set hset]
        change RawSyncState.fromNode _ _ = _
        rw [hread, ← ofDict_syncState (some new) hleader names quorum]
        obtain ⟨_, hsome, hsync⟩ := Option.map_eq_some_iff.mp hsync
        obtain rfl := Option.some.inj hsync
        exact hsome
    · cases hwrite

end RoundTrip

/-- A backend that writes if the version is the one it has. -/
def storeBackend : SyncBackend (Versioned.Store (List Char)) ℕ where
  setSyncStateValue value version s :=
    if version = s.current.map Prod.fst then (some (s.revision + 1), s.put value) else (none, s)
  sync s := s.current
  sync_set := by
    intro value version s new s' h
    split at h
    · obtain ⟨hnew, rfl⟩ := Prod.mk.inj h
      rw [← Option.some.inj hnew]
      rfl
    · cases h

/-- The leader `a` with the voters `b` and `C`. -/
theorem syncState_roundTrip_twoVoters :
    letI := PyRuntime.ascii
    letI := CaseTable.ascii
    (∃ sync : RawSyncState Unit ℕ,
      RawSyncState.fromNode none (.str (Json.dumps
        (.dict (syncState (some ['a']) (some [['b'], ['C']]) (some (1 : ℕ)) : PyDict Unit)))) =
          some sync ∧
      sync.matchesName (some ['c']) false = some true ∧
      sync.matchesName (some ['A']) false = some false ∧
      sync.matchesName (some ['A']) true = some true) ∧
    ∃ (sync : RawSyncState Unit ℕ) (s' : Versioned.Store (List Char)),
      storeBackend.writeSyncState Unit (some ['a']) (some [['b'], ['C']]) (some (1 : ℕ)) none
        .empty = (some (some sync), s') ∧ storeBackend.loadSync Unit s' = some sync := by
  let _ := PyRuntime.ascii
  let _ := CaseTable.ascii
  have hlistable : ∀ c : Char, c ≠ ',' → Text.isSpace c = false → IsListable [c] := by
    intro c hcomma hspace
    exact ⟨by simp, by simpa using hcomma.symm, by simpa [Text.IsTrimmed] using hspace⟩
  have hnames : ∀ name ∈ [['b'], ['C']], IsListable name := by
    rw [List.forall_mem_cons, List.forall_mem_singleton]
    exact ⟨hlistable 'b' (by decide) rfl, hlistable 'C' (by decide) rfl⟩
  obtain ⟨hread, hwrite⟩ := @syncState_roundTrip Unit ℕ _ ['a'] [['b'], ['C']] _ _ storeBackend
    (by simp) hnames 1
  constructor
  · obtain ⟨sync, hsync, -, -, -, hmatch, hleader⟩ := hread none
    refine ⟨sync, hsync, (hmatch _).trans ?_, (hmatch _).trans ?_,
      (hleader (hlistable 'a' (by decide) rfl) _).trans ?_⟩
    · decide
    · decide
    · decide
  · exact ⟨_, _, rfl, hwrite none .empty _ _ rfl⟩

end Metatroni
