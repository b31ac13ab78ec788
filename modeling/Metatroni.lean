import Metatroni.Lib.Generator
import Metatroni.Lib.Runs
import Metatroni.Lib.Interaction
import Metatroni.Lib.Environment
import Metatroni.Lib.Versioned
import Metatroni.Lib.Quorums
import Metatroni.Lib.Dict
import Metatroni.Lib.Text
import Metatroni.Lib.LowerCase
import Metatroni.Lib.Chain
import Metatroni.Lib.Fuel
import Metatroni.Lib.PyValue
import Metatroni.Lib.Json
import Metatroni.Lib.Repr
import Metatroni.Lib.Rounding
import Metatroni.Collections
import Metatroni.CaseInsensitiveDict
import Metatroni.Quorum.Resolver
import Metatroni.Quorum.External
import Metatroni.Quorum.Phases
import Metatroni.Quorum.Steady
import Metatroni.Quorum.Iteration
import Metatroni.Quorum.Convergence
import Metatroni.Cluster
import Metatroni.PostgreSQL.Sync
import Metatroni.PostgreSQL.Multisync
import Metatroni.PostgreSQL.StandbyNames
import Metatroni.PostgreSQL.Conninfo
import Metatroni.PostgreSQL.Rewind
import Metatroni.PostgreSQL.Cascade
import Metatroni.PostgreSQL.RecoveryConf
import Metatroni.PostgreSQL.Units
import Metatroni.Quorum.Commit
import Metatroni.AsyncExecutor
import Metatroni.Ha.Prepromote
import Metatroni.Ha.Multisync
import Metatroni.Ha.LeaderRace
import Metatroni.Ha.ClusterViews
import Metatroni.Ha.Failsafe
import Metatroni.Ha.History
import Metatroni.Ha.Calls
import Metatroni.Ha.Cycle
import Metatroni.Ha.Ledger
import Metatroni.Ha.Settling
import Metatroni.Ha.CycleSafety
import Metatroni.Ha.SplitBrain
import Metatroni.Dcs.Kubernetes
import Metatroni.Dcs.Etcd3
import Metatroni.Dcs.Raft
import Metatroni.Dcs.RaftStore
import Metatroni.Dcs.RaftExpiry
import Metatroni.Dcs.WatchCache
import Metatroni.Dcs.SyncKey
import Metatroni.Dcs.ResponseObjects
import Metatroni.Citus.Group
import Metatroni.Citus.Rows
import Metatroni.Citus.Secondaries
import Metatroni.Citus.Primaries
import Metatroni.Citus.Transition
import Metatroni.Citus.Agreement
import Metatroni.Citus.Custody
import Metatroni.Citus.Tasks
import Metatroni.Citus.Waiters
import Metatroni.MySQL.Position
import Metatroni.MySQL.GroupReplication
import Metatroni.MySQL.Promote
import Metatroni.MySQL.WinnerAgreement
import Metatroni.MySQL.SemiSync
import Metatroni.Slots.Advance
import Metatroni.Slots.Members
import Metatroni.Slots.Permanent
import Metatroni.Slots.Upstream
import Metatroni.Slots.Selection
import Metatroni.Slots.Readiness
import Metatroni.Slots.Feedback
import Metatroni.Dcs.RetainSlots
import Metatroni.Config.Compare
import Metatroni.Config.Patch
import Metatroni.Config.Dynamic
import Metatroni.Config.Timeouts
import Metatroni.Dcs.StatusKey
import Metatroni.Watchdog
import Metatroni.Slots.Converge
import Metatroni.Slots.Citus
