import Raftoral.Management.Membership

/-!
# Splits

What `decide_splits` proposes for a state of the management cluster, and what is left of it when
some of the proposals fail. A split is one creation and a removal for each node it moves, proposed
one by one, and the error of a proposal is discarded: the removals are proposed even if the
creation failed.
-/

namespace Raftoral

namespace ManagementStateMachine

theorem iterationOrder_listSubClusters (sm : ManagementStateMachine) :
    sm.IterationOrder sm.listSubClusters := List.Perm.refl _

/-- The planner sees the sub-clusters there are, in whatever order. -/
theorem mem_entries {sm : ManagementStateMachine} {order : List ℕ} (horder : sm.IterationOrder order)
    {entry : ℕ × SubClusterMetadata} :
    entry ∈ sm.entries order ↔ sm.getSubCluster entry.1 = some entry.2 := by
  rw [entries, List.mem_filterMap]
  constructor
  · rintro ⟨c, -, hc⟩
    obtain ⟨metadata, hget, rfl⟩ := Option.map_eq_some_iff.mp hc
    exact hget
  · intro hget
    refine ⟨entry.1, ?_, by rw [hget]; rfl⟩
    rw [horder.mem_iff, mem_listSubClusters, hget]
    rfl

/-- Whatever the order, it sees the same entries. -/
theorem perm_entries {sm : ManagementStateMachine} {order order' : List ℕ}
    (horder : sm.IterationOrder order) (horder' : sm.IterationOrder order') :
    (sm.entries order).Perm (sm.entries order') :=
  (horder.trans horder'.symm).filterMap _

/-- It sees each of them once. -/
theorem nodup_entries {sm : ManagementStateMachine} {order : List ℕ}
    (horder : sm.IterationOrder order) :
    (sm.entries order).Pairwise fun a b => a.1 ≠ b.1 := by
  have hnodup : order.Nodup := horder.nodup_iff.mpr Std.ExtTreeMap.nodup_keys
  refine List.pairwise_filterMap.mpr (hnodup.imp fun hne a ha b hb => ?_)
  obtain ⟨_, -, rfl⟩ := Option.map_eq_some_iff.mp ha
  obtain ⟨_, -, rfl⟩ := Option.map_eq_some_iff.mp hb
  exact hne

end ManagementStateMachine

namespace ClusterManager

open ManagementStateMachine

variable {config : ClusterManagerConfig}

/-- What `add_node_to_sub_cluster` proposes after the addition. -/
def splitProposals (config : ClusterManagerConfig) (sm : ManagementStateMachine) (order : List ℕ) :
    List ManagementCommand :=
  executeActions (decideSplits config (sm.entries order))

theorem mem_nodesToMove {metadata : SubClusterMetadata} {n : ℕ}
    (h : n ∈ nodesToMove config metadata) : n ∈ metadata.nodeIds :=
  (List.mem_insertionSort _).mp (List.mem_of_mem_take h)

theorem mem_splitProposals {sm : ManagementStateMachine} {order : List ℕ}
    (horder : sm.IterationOrder order) {command : ManagementCommand} :
    command ∈ splitProposals config sm order ↔
      ∃ c metadata, sm.getSubCluster c = some metadata ∧ needsSplit config metadata ∧
        (command = .createSubCluster (nodesToMove config metadata) ∨
          ∃ n ∈ nodesToMove config metadata, command = .removeNodeFromSubCluster c n) := by
  simp only [splitProposals, executeActions, decideSplits, List.mem_flatMap, List.mem_filter,
    mem_entries horder, Prod.exists]
  constructor
  · rintro ⟨action, ⟨c, metadata, ⟨hget, hsplit⟩, haction⟩, hcommand⟩
    refine ⟨c, metadata, hget, hsplit, ?_⟩
    rcases List.mem_cons.mp haction with rfl | haction
    · exact Or.inl (List.mem_singleton.mp hcommand)
    · rw [List.mem_singleton.mp haction] at hcommand
      obtain ⟨n, hn, rfl⟩ := List.mem_map.mp hcommand
      exact Or.inr ⟨n, hn, rfl⟩
  · rintro ⟨c, metadata, hget, hsplit, rfl | ⟨n, hn, rfl⟩⟩
    · exact ⟨_, ⟨c, metadata, ⟨hget, hsplit⟩, List.mem_cons_self⟩, List.mem_singleton.mpr rfl⟩
    · exact ⟨_, ⟨c, metadata, ⟨hget, hsplit⟩, List.mem_cons_of_mem _ (List.mem_singleton.mpr rfl)⟩,
        List.mem_map.mpr ⟨n, hn, rfl⟩⟩

/-- A split only creates, and removes from sub-clusters that are there. -/
theorem movesBelow_splitProposals {sm : ManagementStateMachine} (hnumbered : sm.Numbered)
    {order : List ℕ} (horder : sm.IterationOrder order) :
    ∀ command ∈ splitProposals config sm order, MovesBelow sm.nextClusterId command := by
  intro command hcommand
  obtain ⟨c, metadata, hget, -, rfl | ⟨n, -, rfl⟩⟩ := (mem_splitProposals horder).mp hcommand
  · trivial
  · exact (hnumbered.2 c (by rw [hget]; rfl)).2

/-! ## What a plan creates and removes -/

/-- The command creates a sub-cluster with the node. -/
def houses (n : ℕ) : ManagementCommand → Bool
  | .createSubCluster nodeIds => nodeIds.contains n
  | _ => false

/-- The sub-cluster and the node of a removal. -/
def removal : ManagementCommand → Option (ℕ × ℕ)
  | .removeNodeFromSubCluster clusterId nodeId => some (clusterId, nodeId)
  | _ => none

def removals (commands : List ManagementCommand) : List (ℕ × ℕ) := commands.filterMap removal

theorem mem_removals {commands : List ManagementCommand} {c n : ℕ} :
    (c, n) ∈ removals commands ↔ .removeNodeFromSubCluster c n ∈ commands := by
  rw [removals, List.mem_filterMap]
  constructor
  · rintro ⟨command, hcommand, hremoval⟩
    cases command with
    | removeNodeFromSubCluster c' n' =>
      obtain ⟨rfl, rfl⟩ : c' = c ∧ n' = n := by simpa [removal] using hremoval
      exact hcommand
    | _ => simp [removal] at hremoval
  · intro h
    exact ⟨_, h, rfl⟩

theorem removals_cons_create (nodeIds : List ℕ) (commands : List ManagementCommand) :
    removals (.createSubCluster nodeIds :: commands) = removals commands := rfl

theorem removals_cons_remove (c n : ℕ) (commands : List ManagementCommand) :
    removals (.removeNodeFromSubCluster c n :: commands) = (c, n) :: removals commands := rfl

theorem removals_append (commands commands' : List ManagementCommand) :
    removals (commands ++ commands') = removals commands ++ removals commands' :=
  List.filterMap_append

theorem removals_perm {commands commands' : List ManagementCommand}
    (h : commands.Perm commands') : (removals commands).Perm (removals commands') :=
  h.filterMap _

theorem nodup_nodesToMove {metadata : SubClusterMetadata} (h : metadata.nodeIds.Nodup) :
    (nodesToMove config metadata).Nodup :=
  ((List.perm_insertionSort _ _).nodup_iff.mpr h).sublist (List.take_sublist _ _)

theorem splitProposals_eq (sm : ManagementStateMachine) (order : List ℕ) :
    splitProposals config sm order =
      ((sm.entries order).filter fun entry => needsSplit config entry.2).flatMap fun entry =>
        .createSubCluster (nodesToMove config entry.2) ::
          (nodesToMove config entry.2).map fun n => .removeNodeFromSubCluster entry.1 n := by
  rw [splitProposals, executeActions, decideSplits, List.flatMap_assoc]
  refine List.flatMap_congr fun entry _ => ?_
  simp [ClusterAction.commands]

theorem removals_splitProposals (sm : ManagementStateMachine) (order : List ℕ) :
    removals (splitProposals config sm order) =
      ((sm.entries order).filter fun entry => needsSplit config entry.2).flatMap fun entry =>
        (nodesToMove config entry.2).map fun n => (entry.1, n) := by
  rw [splitProposals_eq, removals, List.filterMap_flatMap]
  refine List.flatMap_congr fun entry _ => ?_
  rw [List.filterMap_cons_none rfl, List.filterMap_map, ← List.filterMap_eq_map]
  rfl

/-- A split removes a node as often as it creates a sub-cluster with it. -/
theorem countP_splitProposals {sm : ManagementStateMachine} (h : sm.DuplicateFree)
    {order : List ℕ} (horder : sm.IterationOrder order) (n : ℕ) :
    (splitProposals config sm order).countP (houses n) =
      (removals (splitProposals config sm order)).countP fun r => r.2 = n := by
  rw [removals_splitProposals, splitProposals_eq, List.countP_flatMap, List.countP_flatMap]
  refine congrArg List.sum (List.map_congr_left fun entry hentry => ?_)
  have hget := (mem_entries horder).mp (List.mem_of_mem_filter hentry)
  have hnodup : (nodesToMove config entry.2).Nodup := nodup_nodesToMove (h.nodup _ _ hget)
  have hcreate : ((nodesToMove config entry.2).map fun m =>
      ManagementCommand.removeNodeFromSubCluster entry.1 m).countP (houses n) = 0 := by
    simp [List.countP_eq_zero, houses]
  have hremove : ((nodesToMove config entry.2).map fun m => (entry.1, m)).countP
      (fun r => r.2 = n) = (nodesToMove config entry.2).count n := by
    rw [List.countP_map, List.count]
    refine List.countP_congr fun m _ => ?_
    simp
  rw [Function.comp_apply, Function.comp_apply, List.countP_cons, hcreate, hremove, hnodup.count]
  simp [houses]

/-- No removal is planned twice. -/
theorem nodup_removals_splitProposals {sm : ManagementStateMachine} (h : sm.DuplicateFree)
    {order : List ℕ} (horder : sm.IterationOrder order) :
    (removals (splitProposals config sm order)).Nodup := by
  rw [removals_splitProposals, List.nodup_flatMap]
  constructor
  · intro entry hentry
    have hget := (mem_entries horder).mp (List.mem_of_mem_filter hentry)
    exact (nodup_nodesToMove (h.nodup _ _ hget)).map fun m m' heq => (Prod.mk.inj heq).2
  · refine ((nodup_entries horder).filter _).imp fun {a b} hne => ?_
    intro r hra hrb
    obtain ⟨m, -, rfl⟩ := List.mem_map.mp hra
    obtain ⟨m', -, heq⟩ := List.mem_map.mp hrb
    exact hne (Prod.mk.inj heq).1.symm

/-! ## Proposals that fail -/

/-- The commands that are committed if the proposals at some positions fail. -/
def committed (fails : ℕ → Bool) (commands : List ManagementCommand) : List ManagementCommand :=
  (commands.zipIdx.filter fun proposal => !fails proposal.2).map Prod.fst

theorem committed_sublist (fails : ℕ → Bool) (commands : List ManagementCommand) :
    (committed fails commands).Sublist commands := by
  have hsub := (List.filter_sublist (p := fun proposal : ManagementCommand × ℕ =>
    !fails proposal.2) (l := commands.zipIdx)).map Prod.fst
  rwa [List.zipIdx_map_fst] at hsub

/-- A split of which some proposals fail strands no node exactly when every node keeps a
sub-cluster that no committed removal takes it out of, or is listed in a committed creation. -/
theorem strands_no_node_iff (config : ClusterManagerConfig) {sm : ManagementStateMachine}
    {order : List ℕ} (hnumbered : sm.Numbered) (horder : sm.IterationOrder order)
    (hroom : sm.nextClusterId +
      (splitProposals config sm order).countP ManagementCommand.isCreate < U32.size)
    (fails : ℕ → Bool) :
    (∀ n, sm.Housed n → (sm.applyAll (committed fails (splitProposals config sm order))).Housed n) ↔
      ∀ n, sm.Housed n →
        (∃ c, sm.hasMember c n ∧ .removeNodeFromSubCluster c n ∉
          committed fails (splitProposals config sm order)) ∨
        ∃ nodeIds, .createSubCluster nodeIds ∈
          committed fails (splitProposals config sm order) ∧ n ∈ nodeIds := by
  have hsub := committed_sublist fails (splitProposals config sm order)
  have hmoves : ∀ command ∈ committed fails (splitProposals config sm order),
      MovesBelow sm.nextClusterId command := fun command hcommand =>
    movesBelow_splitProposals hnumbered horder command (hsub.subset hcommand)
  have hroom' : sm.nextClusterId + (committed fails (splitProposals config sm order)).countP
      ManagementCommand.isCreate < U32.size := by
    have := hsub.countP_le (p := ManagementCommand.isCreate)
    omega
  refine forall_congr' fun n => imp_congr_right fun _ => ?_
  exact housed_applyAll_iff hmoves hnumbered le_rfl hroom'

/-- One sub-cluster of six nodes. -/
def sixNodes : ManagementStateMachine := (apply {} (.createSubCluster [1, 2, 3, 4, 5, 6])).2

theorem duplicateFree_sixNodes : sixNodes.DuplicateFree :=
  DuplicateFree.apply duplicateFree_new ⟨by decide, by decide⟩

theorem mem_of_housed_sixNodes {n : ℕ} (h : sixNodes.Housed n) : n ∈ [1, 2, 3, 4, 5, 6] := by
  obtain ⟨c, hc⟩ := h
  rw [sixNodes, hasMember_createSubCluster] at hc
  by_cases hone : 1 = c
  · exact List.contains_iff_mem.mp (by rwa [if_pos hone] at hc)
  · rw [if_neg hone] at hc
    simp [hasMember, getSubCluster] at hc

/-- With every proposal committed, the nodes of a sub-cluster of six all keep a sub-cluster. -/
theorem strands_no_node_sixNodes :
    sixNodes.Numbered ∧ sixNodes.IterationOrder [1] ∧ ∀ n, sixNodes.Housed n →
      (sixNodes.applyAll (committed (fun _ => false) (splitProposals {} sixNodes [1]))).Housed n := by
  refine ⟨duplicateFree_sixNodes.numbered, by decide, ?_⟩
  refine (strands_no_node_iff {} duplicateFree_sixNodes.numbered (by decide) (by decide) _).mpr ?_
  intro n hn
  have hmem := mem_of_housed_sixNodes hn
  by_cases hmoved : n ∈ [1, 2, 3]
  · exact Or.inr ⟨[1, 2, 3], by decide, hmoved⟩
  · refine Or.inl ⟨1, ?_, ?_⟩
    · rw [sixNodes, hasMember_createSubCluster, if_pos (by decide)]
      exact List.contains_iff_mem.mpr hmem
    · have hproposals : committed (fun _ => false) (splitProposals {} sixNodes [1]) =
          .createSubCluster [1, 2, 3] ::
            [1, 2, 3].map fun nodeId => .removeNodeFromSubCluster 1 nodeId := by
        decide
      rw [hproposals]
      simpa [@eq_comm ℕ _ n] using hmoved

/-- The creation of a split fails and its removals are committed: node 1 is nowhere. -/
theorem failed_creation_strands_node :
    sixNodes.DuplicateFree ∧ sixNodes.IterationOrder [1] ∧ sixNodes.Housed 1 ∧
      ¬ (sixNodes.applyAll
        (committed (fun i => i == 0) (splitProposals {} sixNodes [1]))).Housed 1 :=
  ⟨duplicateFree_sixNodes, by decide, by decide, by decide⟩

end ClusterManager

end Raftoral
