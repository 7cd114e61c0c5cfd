import Mathlib.Data.List.Sort
import Raftoral.Management.StateMachine

/-!
# `ClusterManager`

The model of `management/cluster_manager.rs` and of `execute_actions_static` in
`management/runtime.rs`: from the state of the management cluster to a list of actions, and from
the actions to the commands that are proposed for them.

The map of sub-clusters is a hash map, so the planner sees its entries in any order: an order of
the cluster numbers is an argument. The ratio of clusters to nodes is compared in floating
point, which is an arbitrary predicate of the two counts here.
-/

namespace Raftoral

/-- Policy configuration for cluster management. -/
structure ClusterManagerConfig where
  targetClusterSize : ℕ := 3
  minClusterSize : ℕ := 2
  maxClusterSize : ℕ := 6
  splitSize : ℕ := 3
  /-- The ratio of clusters to nodes is above `drain_threshold`. -/
  aboveDrainThreshold : ℕ → ℕ → Bool := fun clusters nodes => nodes < 2 * clusters
  minClusterCount : ℕ := 1

def SubClusterMetadata.isDraining (metadata : SubClusterMetadata) : Bool :=
  metadata.metadata["draining"]? == some "true"

namespace ManagementStateMachine

/-- The entries of the map in an order of the cluster numbers. -/
def entries (sm : ManagementStateMachine) (order : List ℕ) : List (ℕ × SubClusterMetadata) :=
  order.filterMap fun c => (sm.getSubCluster c).map fun metadata => (c, metadata)

/-- A hash map is iterated in any order of its keys. -/
def IterationOrder (sm : ManagementStateMachine) (order : List ℕ) : Prop :=
  order.Perm sm.listSubClusters

instance (sm : ManagementStateMachine) (order : List ℕ) : Decidable (sm.IterationOrder order) :=
  inferInstanceAs (Decidable (order.Perm sm.listSubClusters))

end ManagementStateMachine

namespace ClusterManager

inductive ClusterAction where
  | addNodeToCluster (clusterId nodeId : ℕ)
  | createCluster (nodeIds : List ℕ)
  | removeNodesFromCluster (clusterId : ℕ) (nodeIds : List ℕ)
  | drainCluster (clusterId : ℕ)
  | destroyCluster (clusterId : ℕ)
deriving DecidableEq, Repr

/-- `execute_actions_static`: the commands proposed for an action, one by one. -/
def ClusterAction.commands : ClusterAction → List ManagementCommand
  | .addNodeToCluster clusterId nodeId => [.addNodeToSubCluster clusterId nodeId]
  | .createCluster nodeIds => [.createSubCluster nodeIds]
  | .removeNodesFromCluster clusterId nodeIds =>
    nodeIds.map fun nodeId => .removeNodeFromSubCluster clusterId nodeId
  | .drainCluster clusterId => [.setMetadata clusterId "draining" "true"]
  | .destroyCluster clusterId => [.deleteSubCluster clusterId]

def executeActions (actions : List ClusterAction) : List ManagementCommand :=
  actions.flatMap ClusterAction.commands

variable (config : ClusterManagerConfig)

/-- The smallest entry first; `sort_by_key` is stable. -/
def sortBySize (clusters : List (ℕ × SubClusterMetadata)) : List (ℕ × SubClusterMetadata) :=
  clusters.insertionSort fun a b => a.2.nodeIds.length ≤ b.2.nodeIds.length

def nonDraining (clusters : List (ℕ × SubClusterMetadata)) : List (ℕ × SubClusterMetadata) :=
  clusters.filter fun entry => !entry.2.isDraining

def decideNodePlacement (clusters : List (ℕ × SubClusterMetadata)) (nodeId : ℕ) :
    List ClusterAction :=
  if clusters.isEmpty then [.createCluster [nodeId]]
  else match (sortBySize (nonDraining clusters)).head? with
    | some (clusterId, metadata) =>
      if metadata.nodeIds.length < config.targetClusterSize then
        [.addNodeToCluster clusterId nodeId]
      else [.createCluster [nodeId]]
    | none => [.createCluster [nodeId]]

/-- The nodes a split moves: the lowest ids. -/
def nodesToMove (metadata : SubClusterMetadata) : List ℕ :=
  (metadata.nodeIds.insertionSort (· ≤ ·)).take config.splitSize

/-- The cluster is split. -/
def needsSplit (metadata : SubClusterMetadata) : Bool :=
  !metadata.isDraining && decide (config.maxClusterSize ≤ metadata.nodeIds.length)

def decideSplits (clusters : List (ℕ × SubClusterMetadata)) : List ClusterAction :=
  (clusters.filter fun entry => needsSplit config entry.2).flatMap fun entry =>
    [.createCluster (nodesToMove config entry.2),
     .removeNodesFromCluster entry.1 (nodesToMove config entry.2)]

/-- The removed node is not looked at. -/
def decideRebalancing (clusters : List (ℕ × SubClusterMetadata)) (_removedNodeId : ℕ) :
    List ClusterAction :=
  let undersized := (nonDraining clusters).filter fun entry =>
    entry.2.nodeIds.length < config.minClusterSize
  let oversized := ((nonDraining clusters).filter fun entry =>
    config.targetClusterSize < entry.2.nodeIds.length).insertionSort
      fun a b => b.2.nodeIds.length ≤ a.2.nodeIds.length
  undersized.filterMap fun entry =>
    (oversized.head?.bind fun source => source.2.nodeIds.head?).map fun nodeId =>
      .addNodeToCluster entry.1 nodeId

/-- The empty drained clusters. -/
def destroys (clusters : List (ℕ × SubClusterMetadata)) : List ClusterAction :=
  (clusters.filter fun entry => entry.2.isDraining && entry.2.nodeIds.isEmpty).map fun entry =>
    .destroyCluster entry.1

/-- The smallest cluster is drained, if there are too many clusters and enough would be left. -/
def drains (clusters : List (ℕ × SubClusterMetadata)) : List ClusterAction :=
  let totalNodes := (clusters.map fun entry => entry.2.nodeIds.length).sum
  if totalNodes = 0 then []
  else if clusters.length ≤ config.minClusterCount then []
  else if config.aboveDrainThreshold clusters.length totalNodes then
    if config.minClusterCount < (nonDraining clusters).length then
      match (sortBySize (nonDraining clusters)).head? with
      | some (clusterId, _) => [.drainCluster clusterId]
      | none => []
    else []
  else []

def decideConsolidation (clusters : List (ℕ × SubClusterMetadata)) : List ClusterAction :=
  destroys clusters ++ drains config clusters

end ClusterManager

end Raftoral
