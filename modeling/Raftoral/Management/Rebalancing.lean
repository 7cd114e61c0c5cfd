import Raftoral.Management.PlannerChoices

/-!
# Rebalancing

`remove_node` decides a rebalancing and has its actions executed: every sub-cluster below the
minimum size is to get a node of a sub-cluster above the target size. One candidate is taken for
all of them, the first node of the largest one. It may be in the sub-cluster it is added to, which
then stays as it is, and it may be the node that was removed.
-/

namespace Raftoral

open ManagementStateMachine ClusterManager Selection

namespace ClusterManager

variable (config : ClusterManagerConfig) (clusters : List (ℕ × SubClusterMetadata))

/-- The sub-clusters that get a node. -/
def undersized : List (ℕ × SubClusterMetadata) :=
  (nonDraining clusters).filter fun entry => entry.2.nodeIds.length < config.minClusterSize

/-- The sub-clusters that nodes are taken from. -/
def oversized : List (ℕ × SubClusterMetadata) :=
  (nonDraining clusters).filter fun entry => config.targetClusterSize < entry.2.nodeIds.length

/-- The node for all of the undersized sub-clusters. -/
def candidate : Option ℕ :=
  ((oversized config clusters).insertionSort
    fun a b => b.2.nodeIds.length ≤ a.2.nodeIds.length).head?.bind fun source =>
      source.2.nodeIds.head?

theorem decideRebalancing_eq (removed : ℕ) :
    decideRebalancing config clusters removed =
      (undersized config clusters).filterMap fun entry =>
        (candidate config clusters).map fun nodeId => .addNodeToCluster entry.1 nodeId := rfl

theorem decideRebalancing_of_none {config : ClusterManagerConfig}
    {clusters : List (ℕ × SubClusterMetadata)} (h : candidate config clusters = none)
    (removed : ℕ) : decideRebalancing config clusters removed = [] := by
  rw [decideRebalancing_eq, h, List.filterMap_eq_nil_iff]
  exact fun _ _ => rfl

theorem decideRebalancing_of_some {config : ClusterManagerConfig}
    {clusters : List (ℕ × SubClusterMetadata)} {x : ℕ} (h : candidate config clusters = some x)
    (removed : ℕ) :
    decideRebalancing config clusters removed =
      (undersized config clusters).map fun entry => .addNodeToCluster entry.1 x := by
  rw [decideRebalancing_eq, h]
  exact congrFun List.filterMap_eq_map _

end ClusterManager

namespace ManagementStateMachine

/-- The sub-cluster is to get a node. -/
def Undersized (config : ClusterManagerConfig) (metadata : SubClusterMetadata) : Prop :=
  metadata.isDraining = false ∧ metadata.nodeIds.length < config.minClusterSize

/-- The sub-cluster has nodes to give. -/
def Oversized (config : ClusterManagerConfig) (metadata : SubClusterMetadata) : Prop :=
  metadata.isDraining = false ∧ config.targetClusterSize < metadata.nodeIds.length

/-- A largest one of those. -/
def Largest (config : ClusterManagerConfig) (sm : ManagementStateMachine) (c : ℕ)
    (metadata : SubClusterMetadata) : Prop :=
  sm.getSubCluster c = some metadata ∧ Oversized config metadata ∧
    ∀ c' metadata', sm.getSubCluster c' = some metadata' → Oversized config metadata' →
      metadata'.nodeIds.length ≤ metadata.nodeIds.length

/-- The node is the first one of a largest sub-cluster that has nodes to give. -/
def FirstOfLargest (config : ClusterManagerConfig) (sm : ManagementStateMachine) (x : ℕ) : Prop :=
  ∃ c metadata, Largest config sm c metadata ∧ metadata.nodeIds.head? = some x

/-- Some other sub-cluster has a node to give that is neither the removed one nor a member. -/
def Repairable (config : ClusterManagerConfig) (sm : ManagementStateMachine) (removed : ℕ)
    (metadata : SubClusterMetadata) : Prop :=
  Undersized config metadata ∧ ∃ c source, sm.getSubCluster c = some source ∧
    Oversized config source ∧ ∃ x ∈ source.nodeIds, x ≠ removed ∧ x ∉ metadata.nodeIds

/-- The state after a rebalancing; the map is iterated in an order. -/
def rebalance (config : ClusterManagerConfig) (sm : ManagementStateMachine) (removed : ℕ)
    (order : List ℕ) : ManagementStateMachine :=
  sm.applyAll (executeActions (decideRebalancing config (sm.entries order) removed))

/-- No action adds the removed node. -/
def SparesRemoved (config : ClusterManagerConfig) (sm : ManagementStateMachine) (removed : ℕ)
    (order : List ℕ) : Prop :=
  ∀ c, .addNodeToCluster c removed ∉ decideRebalancing config (sm.entries order) removed

/-- The sub-clusters that can get a live node do get one, and the removed node is left out. -/
def Repairs (config : ClusterManagerConfig) (sm : ManagementStateMachine) (removed : ℕ)
    (order : List ℕ) : Prop :=
  ∀ c metadata, sm.getSubCluster c = some metadata → Repairable config sm removed metadata →
    (∃ metadata', (sm.rebalance config removed order).getSubCluster c = some metadata' ∧
      metadata.nodeIds.length < metadata'.nodeIds.length) ∧
    SparesRemoved config sm removed order

section
variable {config : ClusterManagerConfig} {sm : ManagementStateMachine} {order : List ℕ}
  {removed x : ℕ}

/-! ## The candidate -/

theorem mem_undersized (horder : sm.IterationOrder order) {entry : ℕ × SubClusterMetadata} :
    entry ∈ undersized config (sm.entries order) ↔
      sm.getSubCluster entry.1 = some entry.2 ∧ Undersized config entry.2 := by
  rw [undersized, List.mem_filter, mem_nonDraining horder, decide_eq_true_eq, and_assoc]
  rfl

theorem mem_oversized (horder : sm.IterationOrder order) {entry : ℕ × SubClusterMetadata} :
    entry ∈ oversized config (sm.entries order) ↔
      sm.getSubCluster entry.1 = some entry.2 ∧ Oversized config entry.2 := by
  rw [oversized, List.mem_filter, mem_nonDraining horder, decide_eq_true_eq, and_assoc]
  rfl

theorem least_oversized_iff (horder : sm.IterationOrder order) {c : ℕ}
    {metadata : SubClusterMetadata} :
    Least (fun a b => b.2.nodeIds.length ≤ a.2.nodeIds.length)
      (oversized config (sm.entries order)) (c, metadata) ↔ Largest config sm c metadata := by
  rw [Least, Largest, mem_oversized horder, and_assoc]
  refine and_congr_right fun _ => and_congr_right fun _ => ?_
  simp only [mem_oversized horder, Prod.forall, and_imp]

/-- There is a candidate if and only if there are nodes to give. -/
theorem candidate_eq_none_iff (horder : sm.IterationOrder order) :
    candidate config (sm.entries order) = none ↔
      ∀ c metadata, sm.getSubCluster c = some metadata → ¬ Oversized config metadata := by
  rw [candidate, Option.bind_eq_none_iff]
  constructor
  · intro h c metadata hmeta hover
    cases hhead : ((oversized config (sm.entries order)).insertionSort
        fun a b => b.2.nodeIds.length ≤ a.2.nodeIds.length).head? with
    | none =>
      have hmem : (c, metadata) ∈ oversized config (sm.entries order) :=
        (mem_oversized horder).mpr ⟨hmeta, hover⟩
      rw [head?_insertionSort_eq_none.mp hhead] at hmem
      exact absurd hmem List.not_mem_nil
    | some source =>
      -- an oversized sub-cluster has a first node
      have hempty := List.head?_eq_none_iff.mp (h source hhead)
      have hsource := ((mem_oversized horder).mp (least_of_head?_insertionSort hhead).1).2.2
      rw [hempty] at hsource
      exact absurd hsource (Nat.not_lt_zero _)
  · intro h source hhead
    obtain ⟨hget, hover⟩ := (mem_oversized horder).mp (least_of_head?_insertionSort hhead).1
    exact absurd hover (h source.1 source.2 hget)

theorem FirstOfLargest.exists_candidate (h : FirstOfLargest config sm x)
    (horder : sm.IterationOrder order) :
    ∃ y, candidate config (sm.entries order) = some y := by
  obtain ⟨c, source, ⟨hsource, hover, -⟩, -⟩ := h
  rw [← Option.isSome_iff_exists, Option.isSome_iff_ne_none]
  exact fun hnone => (candidate_eq_none_iff horder).mp hnone c source hsource hover

theorem firstOfLargest_of_candidate (horder : sm.IterationOrder order)
    (h : candidate config (sm.entries order) = some x) : FirstOfLargest config sm x := by
  obtain ⟨source, hhead, hx⟩ := Option.bind_eq_some_iff.mp h
  exact ⟨source.1, source.2, (least_oversized_iff horder).mp (least_of_head?_insertionSort hhead),
    hx⟩

/-- Every first node of a largest sub-cluster is the candidate, in some order of the map. -/
theorem FirstOfLargest.exists_order (h : FirstOfLargest config sm x) :
    ∃ order, sm.IterationOrder order ∧ candidate config (sm.entries order) = some x := by
  obtain ⟨c, metadata, hlargest, hx⟩ := h
  have hlist := iterationOrder_listSubClusters sm
  have hleast := (least_oversized_iff hlist).mpr hlargest
  rw [oversized, nonDraining, List.filter_filter] at hleast
  obtain ⟨l, hperm, hhead⟩ := hleast.exists_perm_head? _
  obtain ⟨order, horder, rfl⟩ := exists_order_of_perm hlist hperm
  refine ⟨order, horder, ?_⟩
  rw [candidate, oversized, nonDraining, List.filter_filter, hhead]
  exact hx

/-! ## What the actions do -/

theorem addNode_addNode (x : ℕ) (metadata : SubClusterMetadata) :
    (metadata.addNode x).addNode x = metadata.addNode x := by
  by_cases hx : x ∈ metadata.nodeIds
  · simp [SubClusterMetadata.addNode, hx]
  · simp [SubClusterMetadata.addNode, hx]

theorem getSubCluster_addAll (sm : ManagementStateMachine) (clusterIds : List ℕ) (x c : ℕ) :
    (sm.applyAll (clusterIds.map fun clusterId => .addNodeToSubCluster clusterId x)).getSubCluster
        c =
      if c ∈ clusterIds then (sm.getSubCluster c).map (SubClusterMetadata.addNode x)
      else sm.getSubCluster c := by
  induction clusterIds generalizing sm with
  | nil => rfl
  | cons clusterId clusterIds ih =>
    rw [List.map_cons, applyAll_cons, ih, apply, getSubCluster_updateSubCluster]
    by_cases hc : clusterId = c
    · subst hc
      by_cases hmem : clusterId ∈ clusterIds
      · cases hget : sm.getSubCluster clusterId with
        | none => simp
        | some metadata => simp [hmem, addNode_addNode]
      · simp [hmem]
    · simp [hc, Ne.symm hc]

theorem getSubCluster_rebalance (hcandidate : candidate config (sm.entries order) = some x)
    (horder : sm.IterationOrder order) {c : ℕ} {metadata : SubClusterMetadata}
    (hmeta : sm.getSubCluster c = some metadata) (hunder : Undersized config metadata) :
    (sm.rebalance config removed order).getSubCluster c = some (metadata.addNode x) := by
  have hcommands : executeActions (decideRebalancing config (sm.entries order) removed) =
      ((undersized config (sm.entries order)).map Prod.fst).map fun clusterId =>
        .addNodeToSubCluster clusterId x := by
    rw [decideRebalancing_of_some hcandidate, executeActions, List.flatMap_map, List.map_map]
    exact List.flatMap_pure_eq_map _ _
  have hmem : c ∈ (undersized config (sm.entries order)).map Prod.fst :=
    List.mem_map.mpr ⟨(c, metadata), (mem_undersized horder).mpr ⟨hmeta, hunder⟩, rfl⟩
  rw [rebalance, hcommands, getSubCluster_addAll, if_pos hmem, hmeta]
  rfl

/-- The sub-cluster gets larger if the candidate is not in it. -/
theorem length_addNode_iff (x : ℕ) (metadata : SubClusterMetadata) :
    metadata.nodeIds.length < (metadata.addNode x).nodeIds.length ↔ x ∉ metadata.nodeIds := by
  by_cases hx : x ∈ metadata.nodeIds
  · simp [SubClusterMetadata.addNode, hx]
  · simp [SubClusterMetadata.addNode, hx]

theorem sparesRemoved_iff (hcandidate : candidate config (sm.entries order) = some x)
    (horder : sm.IterationOrder order) :
    SparesRemoved config sm removed order ↔
      ∀ c metadata, sm.getSubCluster c = some metadata → Undersized config metadata →
        x ≠ removed := by
  rw [SparesRemoved, decideRebalancing_of_some hcandidate]
  constructor
  · rintro h c metadata hmeta hunder rfl
    exact h c (List.mem_map.mpr
      ⟨(c, metadata), (mem_undersized horder).mpr ⟨hmeta, hunder⟩, rfl⟩)
  · intro h c hmem
    obtain ⟨entry, hentry, heq⟩ := List.mem_map.mp hmem
    obtain ⟨hmeta, hunder⟩ := (mem_undersized horder).mp hentry
    exact h entry.1 entry.2 hmeta hunder (ClusterAction.addNodeToCluster.inj heq).2

theorem repairs_iff (hcandidate : candidate config (sm.entries order) = some x)
    (horder : sm.IterationOrder order) :
    Repairs config sm removed order ↔
      ∀ c metadata, sm.getSubCluster c = some metadata → Repairable config sm removed metadata →
        x ∉ metadata.nodeIds ∧ x ≠ removed := by
  have hgrows : ∀ c metadata, sm.getSubCluster c = some metadata → Undersized config metadata →
      ((∃ metadata', (sm.rebalance config removed order).getSubCluster c = some metadata' ∧
        metadata.nodeIds.length < metadata'.nodeIds.length) ↔ x ∉ metadata.nodeIds) := by
    intro c metadata hmeta hunder
    rw [getSubCluster_rebalance hcandidate horder hmeta hunder, ← length_addNode_iff]
    simp
  rw [Repairs, sparesRemoved_iff hcandidate horder]
  constructor
  · intro h c metadata hmeta hrepairable
    obtain ⟨hlarger, hspares⟩ := h c metadata hmeta hrepairable
    exact ⟨(hgrows c metadata hmeta hrepairable.1).mp hlarger,
      hspares c metadata hmeta hrepairable.1⟩
  · intro h c metadata hmeta hrepairable
    obtain ⟨hnew, hne⟩ := h c metadata hmeta hrepairable
    exact ⟨(hgrows c metadata hmeta hrepairable.1).mpr hnew, fun _ _ _ _ => hne⟩

/-- What a candidate decides holds in all orders when every first node of a largest sub-cluster
decides it. -/
theorem forall_order_iff {P : List ℕ → Prop} {Q : ℕ → Prop}
    (hnone : ∀ order, sm.IterationOrder order → candidate config (sm.entries order) = none →
      P order)
    (hsome : ∀ order x, sm.IterationOrder order → candidate config (sm.entries order) = some x →
      (P order ↔ Q x)) :
    (∀ order, sm.IterationOrder order → P order) ↔ ∀ x, FirstOfLargest config sm x → Q x := by
  constructor
  · intro h x hfirst
    obtain ⟨order, horder, hcandidate⟩ := hfirst.exists_order
    exact (hsome order x horder hcandidate).mp (h order horder)
  · intro h order horder
    cases hcandidate : candidate config (sm.entries order) with
    | none => exact hnone order horder hcandidate
    | some x =>
      exact (hsome order x horder hcandidate).mpr
        (h x (firstOfLargest_of_candidate horder hcandidate))

end

/-- Whatever the order of the map: a rebalancing repairs what can be repaired exactly when no first
node of a largest sub-cluster is the removed node or in a sub-cluster that can be repaired, and it
leaves the removed node alone exactly when it is no such first node, or there is nothing to do. -/
theorem rebalancing_repairs_iff (config : ClusterManagerConfig) (sm : ManagementStateMachine)
    (removed : ℕ) :
    ((∀ order, sm.IterationOrder order → Repairs config sm removed order) ↔
      ∀ c metadata, sm.getSubCluster c = some metadata → Repairable config sm removed metadata →
        ∀ x, FirstOfLargest config sm x → x ∉ metadata.nodeIds ∧ x ≠ removed) ∧
    ((∀ order, sm.IterationOrder order → SparesRemoved config sm removed order) ↔
      ∀ c metadata, sm.getSubCluster c = some metadata → Undersized config metadata →
        ∀ x, FirstOfLargest config sm x → x ≠ removed) := by
  constructor
  · refine (forall_order_iff (fun order horder hcandidate => ?_) fun order x horder hcandidate =>
      repairs_iff hcandidate horder).trans ?_
    · -- there is nothing to repair with
      rintro c metadata hmeta ⟨-, c', source, hsource, hover, -⟩
      exact absurd hover ((candidate_eq_none_iff horder).mp hcandidate c' source hsource)
    · exact ⟨fun h c metadata hmeta hrepairable x hfirst => h x hfirst c metadata hmeta hrepairable,
        fun h x hfirst c metadata hmeta hrepairable => h c metadata hmeta hrepairable x hfirst⟩
  · refine (forall_order_iff (fun order horder hcandidate => ?_) fun order x horder hcandidate =>
      sparesRemoved_iff hcandidate horder).trans ?_
    · rw [SparesRemoved, decideRebalancing_of_none hcandidate]
      exact fun _ => List.not_mem_nil
    · exact ⟨fun h c metadata hmeta hunder x hfirst => h x hfirst c metadata hmeta hunder,
        fun h x hfirst c metadata hmeta hunder => h c metadata hmeta hunder x hfirst⟩

/-- The only node of a small sub-cluster is the first one of the large sub-cluster, and there is
another small one. -/
def sharedNode : ManagementStateMachine :=
  applyAll {} [.createSubCluster [5], .createSubCluster [5, 6, 7, 8], .createSubCluster [9]]

theorem duplicateFree_sharedNode : sharedNode.DuplicateFree := by
  rw [sharedNode, applyAll_cons, applyAll_cons, applyAll_cons, applyAll_nil]
  refine DuplicateFree.apply (DuplicateFree.apply (duplicateFree_new.apply ?_) ?_) ?_
  · exact ⟨by decide, by decide⟩
  · exact ⟨by decide, by decide⟩
  · exact ⟨by decide, by decide⟩

/-- If node 5 is removed, it is added to both small sub-clusters: the first one stays as it is,
though three nodes could be added to it, and the second one gets the removed node. -/
theorem rebalancing_sharedNode :
    ({} : ClusterManagerConfig).minClusterSize ≤ ({} : ClusterManagerConfig).targetClusterSize ∧
      sharedNode.DuplicateFree ∧ sharedNode.IterationOrder [1, 2, 3] ∧
      ¬ Repairs {} sharedNode 5 [1, 2, 3] ∧
      ¬ sharedNode.hasMember 3 5 ∧ (sharedNode.rebalance {} 5 [1, 2, 3]).hasMember 3 5 := by
  refine ⟨by decide, duplicateFree_sharedNode, by decide, fun h => ?_, by decide, by decide⟩
  obtain ⟨small, hsmall, hnodes⟩ : ∃ small, sharedNode.getSubCluster 1 = some small ∧
      (small.nodeIds, small.isDraining) = ([5], false) :=
    Option.map_eq_some_iff.mp (by decide)
  obtain ⟨large, hlarge, hmembers⟩ : ∃ large, sharedNode.getSubCluster 2 = some large ∧
      (large.nodeIds, large.isDraining) = ([5, 6, 7, 8], false) :=
    Option.map_eq_some_iff.mp (by decide)
  obtain ⟨hnodes, hactive⟩ := Prod.mk.inj hnodes
  obtain ⟨hmembers, hactive'⟩ := Prod.mk.inj hmembers
  have hrepairable : Repairable {} sharedNode 5 small := by
    refine ⟨⟨hactive, by rw [hnodes]; decide⟩, 2, large, hlarge,
      ⟨hactive', by rw [hmembers]; decide⟩, 6, by rw [hmembers]; decide, by decide, ?_⟩
    rw [hnodes]
    decide
  obtain ⟨⟨after, hafter, hlt⟩, -⟩ := h 1 small hsmall hrepairable
  obtain ⟨same, hsame, hlength⟩ : ∃ same,
      (sharedNode.rebalance {} 5 [1, 2, 3]).getSubCluster 1 = some same ∧
        same.nodeIds.length = 1 :=
    Option.map_eq_some_iff.mp (by decide)
  rw [Option.some.inj (hafter.symm.trans hsame), hlength, hnodes] at hlt
  exact absurd hlt (by decide)

end ManagementStateMachine

end Raftoral
