import Raftoral.Lib.Word
import Raftoral.Lib.Run
import Raftoral.Lib.Switch
import Raftoral.Lib.Steps
import Raftoral.Lib.OffsetLog
import Raftoral.Lib.Wire
import Raftoral.Lib.Json
import Raftoral.Lib.JsonFormat
import Raftoral.Lib.JsonValue
import Raftoral.Lib.Majority
import Raftoral.Lib.QueueLog
import Raftoral.Lib.Broadcast
import Raftoral.Lib.Planning
import Raftoral.Lib.Budget
import Raftoral.Lib.Channel
import Raftoral.Lib.Renumbering
import Raftoral.Lib.Selection
import Raftoral.Raft.Types
import Raftoral.Raft.StateMachine
import Raftoral.Raft.Codec
import Raftoral.Raft.MessageCodec
import Raftoral.Raft.RocksDBStorage
import Raftoral.Raft.StorageLog
import Raftoral.Raft.SnapshotInstall
import Raftoral.Raft.StorageReads
import Raftoral.Raft.Reopen
import Raftoral.Raft.CrashRecovery
import Raftoral.Raft.ReadableWindow
import Raftoral.Raft.StoragePath
import Raftoral.Raft.FailedWrites
import Raftoral.Raft.SizeLimit
import Raftoral.Raft.Storage
import Raftoral.Raft.Transport
import Raftoral.Raft.Node
import Raftoral.Raft.MessageSending
import Raftoral.Raft.MessageDelivery
import Raftoral.Raft.SharedTransport
import Raftoral.Raft.ReadySteps
import Raftoral.Raft.Batches
import Raftoral.Raft.QuietSteps
import Raftoral.Raft.OnReady
import Raftoral.Raft.Delivery
import Raftoral.Raft.Acknowledge
import Raftoral.Raft.RunLoop
import Raftoral.Raft.NodeRun
import Raftoral.Raft.CachedConf
import Raftoral.Raft.FailureDetector
import Raftoral.Raft.Proposals
import Raftoral.Raft.ProposalCluster
import Raftoral.Raft.ProposalWaiters
import Raftoral.Raft.LeaderTracker
import Raftoral.Raft.ReadyStorage
import Raftoral.Raft.SnapshotSchedule
import Raftoral.Raft.SnapshotTerm
import Raftoral.Raft.StorageVariants
import Raftoral.Raft.ConfStates
import Raftoral.Raft.Restart
import Raftoral.Raft.Follower
import Raftoral.Raft.Replication
import Raftoral.Kv.Runtime
import Raftoral.FullNode.Discovery
import Raftoral.Management.SubClusterBootstrap
import Raftoral.Management.StateMachine
import Raftoral.Management.Codec
import Raftoral.Management.ClusterIds
import Raftoral.Management.ClusterManager
import Raftoral.Management.Membership
import Raftoral.Management.Splits
import Raftoral.Management.SplitEffect
import Raftoral.Management.ConcurrentSplits
import Raftoral.Management.ConcurrentConsolidation
import Raftoral.Management.SequentialConsolidation
import Raftoral.Management.FailedNode
import Raftoral.Management.PlannerChoices
import Raftoral.Management.Placement
import Raftoral.Management.ConcurrentPlacement
import Raftoral.Management.PlacementCounts
import Raftoral.Management.Rebalancing
import Raftoral.Management.Determinism
import Raftoral.Management.Observer
import Raftoral.Management.Routes
import Raftoral.Management.CreateSubCluster
import Raftoral.FullNode.Joining
import Raftoral.FullNode.NodeIdentity
import Raftoral.Workflow.StateMachine
import Raftoral.Workflow.Codec
import Raftoral.Workflow.Checkpoints
import Raftoral.Workflow.Isolation
import Raftoral.Workflow.Lifecycle
import Raftoral.Workflow.Runtime
import Raftoral.Workflow.OwnerOrWait
import Raftoral.Workflow.OwnerOrWaitCalls
import Raftoral.Workflow.Outcome
import Raftoral.Workflow.Sidecar
import Raftoral.Workflow.SidecarClient
import Raftoral.Workflow.SidecarClientSteps
import Raftoral.Workflow.CheckpointDelivery
import Raftoral.Workflow.SidecarServer
import Raftoral.Workflow.SidecarStreams
import Raftoral.Workflow.SidecarBackpressure
import Raftoral.Workflow.CompletionWait
import Raftoral.Workflow.Executions
import Raftoral.Workflow.ExecutionResults
import Raftoral.Workflow.OwnedEnds
import Raftoral.Workflow.Cluster
import Raftoral.Workflow.OwnerCheckpoints
import Raftoral.Workflow.ReplicatedVar
import Raftoral.Workflow.CheckpointInvariant
import Raftoral.Workflow.CheckpointAgreement
import Raftoral.Workflow.Failover
import Raftoral.FullNode.WorkflowService
