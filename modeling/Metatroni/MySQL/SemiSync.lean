import Metatroni.Lib.Text
import Mathlib.Data.Finset.Card

/-!
# Semi-synchronous replication

A source waits for the acknowledgements of some replicas before it reports a
transaction as committed, and the HA loop makes the source read-only while too
few semi-synchronous replicas are connected. Both numbers are computed from the
size of the cluster, in `_configure_semi_sync_wait_count` and in
`run_semi_sync_safety_check` of `mysql/__init__.py`.
-/

namespace Metatroni.MySQL

/-- The value of a parameter of the configuration. -/
inductive Parameter
  | int (n : ℤ)
  | str (s : List Char)

/-- `int(value)` -/
def Parameter.toInt? : Parameter → Option ℤ
  | .int n => some n
  | .str s => Text.int? 10 s

/-- The variables of the server that concern semi-synchronous replication. -/
structure SemiSync where
  waitForReplicaCount : ℤ
  readOnly : Bool
  /-- `Rpl_semi_sync_source_clients` -/
  clients : ℤ
  deriving DecidableEq

/-- What `MySQL` reads of its configuration and its role. -/
structure SemiSyncConfig where
  clusterSize : Option Parameter
  semiSyncConfigured : Bool
  isPrimary : Bool

/-- `int(self.config.parameters.get('cluster_size', 3))` -/
def SemiSyncConfig.nodeCount? (config : SemiSyncConfig) : Option ℤ :=
  config.clusterSize.elim (some 3) Parameter.toInt?

namespace SemiSync

/-- `_configure_semi_sync_wait_count`. A size that is no number changes nothing. -/
def configureSemiSyncWaitCount (config : SemiSyncConfig) (server : SemiSync) : SemiSync :=
  match config.nodeCount? with
  | none => server
  | some nodeCount => { server with waitForReplicaCount := max 1 ((nodeCount - 1) / 2) }

/-- The messages of `run_semi_sync_safety_check`. -/
inductive Message
  | readOnlySet
  | readWriteRestored
  deriving DecidableEq

/-- `run_semi_sync_safety_check`. -/
def runSemiSyncSafetyCheck (config : SemiSyncConfig) (clusterNodes : ℤ) (server : SemiSync) :
    SemiSync × Option Message :=
  if !config.semiSyncConfigured || !config.isPrimary then (server, none)
  else
    let quorum := clusterNodes / 2
    if server.clients < quorum then
      if !server.readOnly then ({ server with readOnly := true }, some .readOnlySet)
      else (server, none)
    else if server.readOnly then ({ server with readOnly := false }, some .readWriteRestored)
    else (server, none)

/-- The wait count that `build_mysqld_parameters` writes to the configuration file. -/
def generatedWaitCount (nodes : ℤ) : ℤ := max 1 ((nodes - 1) / 2)

/-- The configuration file and the running server wait for the same number. -/
theorem configureSemiSyncWaitCount_eq_generated {config : SemiSyncConfig} {nodes : ℤ}
    (h : config.nodeCount? = some nodes) (server : SemiSync) :
    (configureSemiSyncWaitCount config server).waitForReplicaCount = generatedWaitCount nodes := by
  rw [configureSemiSyncWaitCount, h]
  rfl

/-- The check leaves a primary read-only exactly while fewer replicas than half of the cluster are
connected. -/
theorem readOnly_runSemiSyncSafetyCheck {config : SemiSyncConfig}
    (hconfigured : config.semiSyncConfigured) (hprimary : config.isPrimary) (clusterNodes : ℤ)
    (server : SemiSync) :
    (runSemiSyncSafetyCheck config clusterNodes server).1.readOnly = true ↔
      server.clients < clusterNodes / 2 := by
  rw [runSemiSyncSafetyCheck, hconfigured, hprimary]
  by_cases hfew : server.clients < clusterNodes / 2
  · cases hreadOnly : server.readOnly <;> simp [hfew, hreadOnly]
  · cases hreadOnly : server.readOnly <;> simp [hfew, hreadOnly]

/-! ## Majorities -/

section Majority

variable {α : Type} [DecidableEq α]

/-- A transaction that was reported as committed: the source has it, and as many replicas as the
source waits for. -/
structure Acknowledged (server : SemiSync) (nodes : Finset α) (source : α) (holders : Finset α) :
    Prop where
  subset : holders ⊆ nodes
  source_mem : source ∈ holders
  waited : server.waitForReplicaCount ≤ (holders.erase source).card

/-- More than half of the nodes. -/
def IsMajority (nodes majority : Finset α) : Prop :=
  majority ⊆ nodes ∧ nodes.card < 2 * majority.card

theorem Acknowledged.card_le {server : SemiSync} {nodes holders : Finset α} {source : α}
    (h : server.Acknowledged nodes source holders) :
    server.waitForReplicaCount + 1 ≤ holders.card := by
  have hcard := Finset.card_erase_add_one h.source_mem
  have hwaited := h.waited
  omega

/-- A set that leaves out less than half of the nodes meets every majority. -/
theorem exists_mem_majority {nodes holders majority : Finset α} (hsubset : holders ⊆ nodes)
    (hholders : nodes.card ≤ 2 * holders.card) (hmajority : IsMajority nodes majority) :
    ∃ node ∈ holders, node ∈ majority := by
  by_contra hnone
  push Not at hnone
  have hdisjoint : Disjoint holders majority := Finset.disjoint_left.mpr hnone
  have hcard := Finset.card_le_card (Finset.union_subset hsubset hmajority.1)
  rw [Finset.card_union_of_disjoint hdisjoint] at hcard
  have hlt := hmajority.2
  omega

end Majority

/-- The source and the replicas that it waits for are a majority, the safety check blocks writes
below the number of these replicas, and what was committed is in every majority. -/
def IsSafe (config : SemiSyncConfig) (server : SemiSync) (n : ℕ) : Prop :=
  let server := configureSemiSyncWaitCount config server
  (n : ℤ) < 2 * (server.waitForReplicaCount + 1) ∧
    (∀ clients readOnly, (runSemiSyncSafetyCheck config n
        ⟨server.waitForReplicaCount, readOnly, clients⟩).1.readOnly = true ↔
      clients < server.waitForReplicaCount) ∧
    ∀ (α : Type) [DecidableEq α] (nodes : Finset α) (source : α) (holders majority : Finset α),
      nodes.card = n → server.Acknowledged nodes source holders → IsMajority nodes majority →
        ∃ node ∈ holders, node ∈ majority

/-- A cluster is safe exactly if it has two nodes or an odd number of them. -/
theorem isSafe_iff {config : SemiSyncConfig} (hconfigured : config.semiSyncConfigured)
    (hprimary : config.isPrimary) {n : ℕ} (hn : 2 ≤ n)
    (hsize : config.nodeCount? = some (n : ℤ)) (server : SemiSync) :
    IsSafe config server n ↔ n = 2 ∨ n % 2 = 1 := by
  have hwait : (configureSemiSyncWaitCount config server).waitForReplicaCount =
      max 1 (((n : ℤ) - 1) / 2) := configureSemiSyncWaitCount_eq_generated hsize server
  rw [IsSafe]
  constructor
  · rintro ⟨hmajority, -, -⟩
    rw [hwait] at hmajority
    omega
  · intro hparity
    refine ⟨by omega, fun clients readOnly => ?_, ?_⟩
    · rw [readOnly_runSemiSyncSafetyCheck hconfigured hprimary, hwait]
      dsimp only
      omega
    · intro α _ nodes source holders majority hcard hack
      refine exists_mem_majority hack.subset ?_
      have hle := hack.card_le
      omega

/-- Three nodes. -/
def threeNodes : SemiSyncConfig := ⟨some (.str "3".toList), true, true⟩

theorem isSafe_threeNodes : IsSafe threeNodes ⟨1, true, 0⟩ 3 :=
  (isSafe_iff rfl rfl (by decide) (by decide) _).mpr (.inr rfl)

/-- The source waits for the same number if the size is not set. -/
example (server : SemiSync) :
    configureSemiSyncWaitCount ⟨none, true, true⟩ server =
      configureSemiSyncWaitCount threeNodes server := rfl

/-- Four nodes. -/
def fourNodes : SemiSyncConfig := ⟨some (.str "4".toList), true, true⟩

/-- The source waits for one replica of three, and writes are blocked below two. -/
theorem not_isSafe_fourNodes :
    fourNodes.nodeCount? = some 4 ∧
      (configureSemiSyncWaitCount fourNodes ⟨1, true, 0⟩).waitForReplicaCount = 1 ∧
      ¬IsSafe fourNodes ⟨1, true, 0⟩ 4 := by
  refine ⟨by decide, by decide, fun h => ?_⟩
  exact absurd h.1 (by decide)

end SemiSync

end Metatroni.MySQL
