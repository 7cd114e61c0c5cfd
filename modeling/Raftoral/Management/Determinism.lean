import Raftoral.Management.Placement
import Raftoral.Management.Rebalancing

/-!
# Decisions and the order of the map

A decision of the planner is made on the entries of a hash map in the order of the map, which is
not part of the state. For each of the decisions this file proves when the order does not matter:
`Tieless` says that there is one sub-cluster to choose where one is chosen, and one to treat where
all of a kind are treated in the order of the map.
-/

namespace Raftoral

open ManagementStateMachine ClusterManager Selection

namespace ManagementStateMachine

/-- The members of the sub-clusters, counted. -/
def totalNodes (sm : ManagementStateMachine) : ℕ :=
  ((sm.entries sm.listSubClusters).map fun entry => entry.2.nodeIds.length).sum

/-- There are so many sub-clusters that one is to be drained. -/
def Crowded (config : ClusterManagerConfig) (sm : ManagementStateMachine) : Prop :=
  sm.totalNodes ≠ 0 ∧ config.minClusterCount < sm.listSubClusters.length ∧
    config.aboveDrainThreshold sm.listSubClusters.length sm.totalNodes ∧
    config.minClusterCount < sm.active.card

/-- No decision depends on which of several sub-clusters comes first. -/
structure Tieless (config : ClusterManagerConfig) (sm : ManagementStateMachine) : Prop where
  /-- If a node is added to a smallest sub-cluster, there is only one smallest. -/
  placement : ∀ c metadata c' metadata', Smallest sm c metadata → Smallest sm c' metadata' →
    metadata.nodeIds.length < config.targetClusterSize → c = c'
  /-- At most one sub-cluster is split. -/
  splits : ∀ c metadata c' metadata', sm.getSubCluster c = some metadata →
    sm.getSubCluster c' = some metadata' → needsSplit config metadata →
    needsSplit config metadata' → c = c'
  /-- At most one sub-cluster gets a node, and the largest ones begin with the same node; or there
  is nothing to get or to give. -/
  rebalancing : ∀ c metadata c' metadata' x x', sm.getSubCluster c = some metadata →
    sm.getSubCluster c' = some metadata' → Undersized config metadata →
    Undersized config metadata' → FirstOfLargest config sm x → FirstOfLargest config sm x' →
    c = c' ∧ x = x'
  /-- At most one sub-cluster is deleted. -/
  destroys : ∀ c c', sm.isDrained c → sm.isDrained c' → c = c'
  /-- If a smallest one is drained, there is only one smallest. -/
  drains : Crowded config sm → ∀ c metadata c' metadata', Smallest sm c metadata →
    Smallest sm c' metadata' → c = c'

section
variable {config : ClusterManagerConfig} {sm : ManagementStateMachine} {order : List ℕ}

/-- A sub-cluster has one entry. -/
theorem entry_eq {a b : ℕ × SubClusterMetadata} (ha : sm.getSubCluster a.1 = some a.2)
    (hb : sm.getSubCluster b.1 = some b.2) (h : a.1 = b.1) : a = b := by
  rw [h, hb] at ha
  exact Prod.ext h (Option.some.inj ha).symm

theorem Smallest.length_eq {c c' : ℕ} {metadata metadata' : SubClusterMetadata}
    (h : Smallest sm c metadata) (h' : Smallest sm c' metadata') :
    metadata.nodeIds.length = metadata'.nodeIds.length :=
  Nat.le_antisymm (h.2.2 c' metadata' h'.1 h'.2.1) (h'.2.2 c metadata h.1 h.2.1)

/-! ## The head of a sort -/

/-- What is made of the first of the smallest sub-clusters is the same in all orders exactly when
it is the same for all of them. -/
theorem orderFree_smallest {β : Type*} (sm : ManagementStateMachine)
    (g : Option (ℕ × SubClusterMetadata) → β) :
    OrderFree (fun clusters => g (sortBySize (nonDraining clusters)).head?)
        (sm.entries sm.listSubClusters) ↔
      ∀ c metadata c' metadata', Smallest sm c metadata → Smallest sm c' metadata' →
        g (some (c, metadata)) = g (some (c', metadata')) := by
  have hleast : ∀ c metadata, Least _ (nonDraining (sm.entries sm.listSubClusters)) (c, metadata) ↔
      Smallest sm c metadata := fun _ _ =>
    least_nonDraining_iff (iterationOrder_listSubClusters sm)
  refine (orderFree_head_insertionSort (fun entry : ℕ × SubClusterMetadata =>
    !entry.2.isDraining) g).trans ?_
  constructor
  · intro h c metadata c' metadata' hsmallest hsmallest'
    exact h _ _ ((hleast c metadata).mpr hsmallest) ((hleast c' metadata').mpr hsmallest')
  · intro h a b ha hb
    exact h a.1 a.2 b.1 b.2 ((hleast a.1 a.2).mp ha) ((hleast b.1 b.2).mp hb)

theorem orderFree_placement (config : ClusterManagerConfig) (sm : ManagementStateMachine)
    (n : ℕ) :
    OrderFree (fun clusters => decideNodePlacement config clusters n)
        (sm.entries sm.listSubClusters) ↔
      ∀ c metadata c' metadata', Smallest sm c metadata → Smallest sm c' metadata' →
        metadata.nodeIds.length < config.targetClusterSize → c = c' := by
  simp only [decideNodePlacement_eq]
  rw [orderFree_smallest sm (placementAt config n)]
  constructor
  · intro h c metadata c' metadata' hsmallest hsmallest' hlt
    have hsame := h c metadata c' metadata' hsmallest hsmallest'
    rw [placementAt, placementAt, if_pos hlt, if_pos (hsmallest.length_eq hsmallest' ▸ hlt)]
      at hsame
    simpa using hsame
  · intro h c metadata c' metadata' hsmallest hsmallest'
    rw [placementAt, placementAt, ← hsmallest.length_eq hsmallest']
    by_cases hlt : metadata.nodeIds.length < config.targetClusterSize
    · rw [h c metadata c' metadata' hsmallest hsmallest' hlt]
    · rw [if_neg hlt, if_neg hlt]

/-! ## What is treated in the order of the map -/

theorem mem_filter_entries (p : SubClusterMetadata → Bool) {entry : ℕ × SubClusterMetadata} :
    entry ∈ (sm.entries sm.listSubClusters).filter (fun entry => p entry.2) ↔
      sm.getSubCluster entry.1 = some entry.2 ∧ p entry.2 := by
  rw [List.mem_filter, mem_entries (iterationOrder_listSubClusters sm)]

/-- There is one sub-cluster of a kind. -/
theorem subsingleton_filter_entries (p : SubClusterMetadata → Bool) :
    (∀ a ∈ (sm.entries sm.listSubClusters).filter (fun entry => p entry.2),
      ∀ b ∈ (sm.entries sm.listSubClusters).filter (fun entry => p entry.2), a = b) ↔
    ∀ c metadata c' metadata', sm.getSubCluster c = some metadata →
      sm.getSubCluster c' = some metadata' → p metadata → p metadata' → c = c' := by
  simp only [mem_filter_entries]
  constructor
  · intro h c metadata c' metadata' hmeta hmeta' hp hp'
    exact congrArg Prod.fst (h (c, metadata) ⟨hmeta, hp⟩ (c', metadata') ⟨hmeta', hp'⟩)
  · intro h a ha b hb
    exact entry_eq ha.1 hb.1 (h a.1 a.2 b.1 b.2 ha.1 hb.1 ha.2 hb.2)

/-- The actions of one split. -/
def splitActions (config : ClusterManagerConfig) (entry : ℕ × SubClusterMetadata) :
    List ClusterAction :=
  [.createCluster (nodesToMove config entry.2),
    .removeNodesFromCluster entry.1 (nodesToMove config entry.2)]

theorem orderFree_splits (config : ClusterManagerConfig) (sm : ManagementStateMachine) :
    OrderFree (decideSplits config) (sm.entries sm.listSubClusters) ↔
      ∀ c metadata c' metadata', sm.getSubCluster c = some metadata →
        sm.getSubCluster c' = some metadata' → needsSplit config metadata →
        needsSplit config metadata' → c = c' := by
  rw [← subsingleton_filter_entries (needsSplit config)]
  constructor
  · intro h
    refine eq_of_orderFree_flatMap _ (splitActions config) (fun _ => []) ?_ ?_
    · intro l₁ l₂ hl₁ hl₂
      simp only [List.append_nil]
      exact h l₁ l₂ hl₁ hl₂
    · intro a ha b hb x y heq
      -- the second action names the sub-cluster
      have hid : a.1 = b.1 := by
        simp only [splitActions, List.cons_append, List.cons.injEq,
          ClusterAction.removeNodesFromCluster.injEq] at heq
        exact heq.2.1.1
      exact entry_eq ((mem_filter_entries _).mp ha).1 ((mem_filter_entries _).mp hb).1 hid
  · exact orderFree_of_subsingleton fun toSplit => toSplit.flatMap (splitActions config)

/-! ## Rebalancing -/

/-- Every undersized sub-cluster is the first one to get a node, in some order. -/
theorem exists_decideRebalancing_cons {c x : ℕ} {metadata : SubClusterMetadata}
    (hmeta : sm.getSubCluster c = some metadata) (hunder : Undersized config metadata)
    (hfirst : FirstOfLargest config sm x) (removed : ℕ) :
    ∃ order y actions, sm.IterationOrder order ∧
      decideRebalancing config (sm.entries order) removed =
        .addNodeToCluster c y :: actions := by
  obtain ⟨order, rest, horder, heq⟩ := exists_order_cons hmeta
  obtain ⟨y, hcandidate⟩ := hfirst.exists_candidate horder
  have hhead : undersized config (sm.entries order) =
      (c, metadata) :: undersized config rest := by
    rw [heq, undersized, nonDraining, List.filter_cons_of_pos (by simp [hunder.1]),
      List.filter_cons_of_pos (by simpa using hunder.2)]
    rfl
  exact ⟨order, y, _, horder, by rw [decideRebalancing_of_some hcandidate, hhead]; rfl⟩

/-- Two orders that decide the same have the same candidate. -/
theorem candidate_eq_of_decideRebalancing_eq {order' : List ℕ} {c x x' removed : ℕ}
    {metadata : SubClusterMetadata} (horder : sm.IterationOrder order)
    (hmeta : sm.getSubCluster c = some metadata) (hunder : Undersized config metadata)
    (hcandidate : candidate config (sm.entries order) = some x)
    (hcandidate' : candidate config (sm.entries order') = some x')
    (hsame : decideRebalancing config (sm.entries order) removed =
      decideRebalancing config (sm.entries order') removed) : x = x' := by
  have hmem : ClusterAction.addNodeToCluster c x ∈
      decideRebalancing config (sm.entries order) removed := by
    rw [decideRebalancing_of_some hcandidate]
    exact List.mem_map.mpr ⟨(c, metadata), (mem_undersized horder).mpr ⟨hmeta, hunder⟩, rfl⟩
  rw [hsame, decideRebalancing_of_some hcandidate'] at hmem
  obtain ⟨entry, -, heq⟩ := List.mem_map.mp hmem
  exact (ClusterAction.addNodeToCluster.inj heq).2.symm

theorem orderFree_rebalancing (config : ClusterManagerConfig) (sm : ManagementStateMachine)
    (removed : ℕ) :
    OrderFree (fun clusters => decideRebalancing config clusters removed)
        (sm.entries sm.listSubClusters) ↔
      ∀ c metadata c' metadata' x x', sm.getSubCluster c = some metadata →
        sm.getSubCluster c' = some metadata' → Undersized config metadata →
        Undersized config metadata' → FirstOfLargest config sm x →
        FirstOfLargest config sm x' → c = c' ∧ x = x' := by
  rw [orderFree_entries]
  constructor
  · intro h c metadata c' metadata' x x' hmeta hmeta' hunder hunder' hfirst hfirst'
    constructor
    -- an order that has one of the two undersized clusters first, and one that has the other
    · obtain ⟨order, y, actions, horder, heq⟩ :=
        exists_decideRebalancing_cons hmeta hunder hfirst removed
      obtain ⟨order', y', actions', horder', heq'⟩ :=
        exists_decideRebalancing_cons hmeta' hunder' hfirst removed
      have hsame := h order order' horder horder'
      rw [heq, heq'] at hsame
      exact (ClusterAction.addNodeToCluster.inj (List.cons.inj hsame).1).1
    · obtain ⟨order, horder, hcandidate⟩ := hfirst.exists_order
      obtain ⟨order', horder', hcandidate'⟩ := hfirst'.exists_order
      exact candidate_eq_of_decideRebalancing_eq horder hmeta hunder hcandidate hcandidate'
        (h order order' horder horder')
  · intro h order order' horder horder'
    cases hcandidate : candidate config (sm.entries order) with
    | none =>
      have hnone' : candidate config (sm.entries order') = none :=
        (candidate_eq_none_iff horder').mpr ((candidate_eq_none_iff horder).mp hcandidate)
      rw [decideRebalancing_of_none hcandidate, decideRebalancing_of_none hnone']
    | some x =>
      have hfirst := firstOfLargest_of_candidate horder hcandidate
      obtain ⟨x', hcandidate'⟩ := hfirst.exists_candidate horder'
      have hfirst' := firstOfLargest_of_candidate horder' hcandidate'
      -- there is at most one undersized cluster, and one candidate
      have hunder : undersized config (sm.entries order) =
          undersized config (sm.entries order') := by
        refine eq_of_perm_of_subsingleton
          (((perm_entries horder horder').filter _).filter _) fun a ha b hb => ?_
        obtain ⟨hget, ha⟩ := (mem_undersized horder).mp ha
        obtain ⟨hget', hb⟩ := (mem_undersized horder).mp hb
        exact entry_eq hget hget' (h _ _ _ _ x x' hget hget' ha hb hfirst hfirst').1
      rw [decideRebalancing_of_some hcandidate, decideRebalancing_of_some hcandidate', hunder]
      refine List.map_congr_left fun entry hentry => ?_
      obtain ⟨hget, hentry⟩ := (mem_undersized horder').mp hentry
      rw [(h _ _ _ _ x x' hget hget hentry hentry hfirst hfirst').2]

/-! ## Consolidation -/

/-- Whether a sub-cluster is drained does not depend on the order, but which one it is does. -/
theorem drains_eq (config : ClusterManagerConfig) (horder : sm.IterationOrder order) :
    (Crowded config sm → drains config (sm.entries order) =
      (sortBySize (nonDraining (sm.entries order))).head?.toList.map fun entry =>
        .drainCluster entry.1) ∧
    (¬ Crowded config sm → drains config (sm.entries order) = []) := by
  have htotal : ((sm.entries order).map fun entry => entry.2.nodeIds.length).sum =
      sm.totalNodes :=
    ((perm_entries horder (iterationOrder_listSubClusters sm)).map _).sum_eq
  have hlength := length_entries horder
  have hactive := length_nonDraining horder
  constructor
  · rintro ⟨hzero, hcount, habove, hmore⟩
    simp only [drains, htotal, hlength, hactive]
    rw [if_neg hzero, if_neg (Nat.not_le.mpr hcount), if_pos habove, if_pos hmore]
    cases (sortBySize (nonDraining (sm.entries order))).head? with
    | none => rfl
    | some entry => rfl
  · intro hnot
    rw [drains_eq_nil_iff, htotal, hlength, hactive]
    by_contra hor
    simp only [not_or, Nat.not_le, Bool.not_eq_false] at hor
    exact hnot ⟨hor.1, hor.2.1, hor.2.2.1, hor.2.2.2⟩

theorem orderFree_drains (config : ClusterManagerConfig) (sm : ManagementStateMachine) :
    OrderFree (drains config) (sm.entries sm.listSubClusters) ↔
      (Crowded config sm → ∀ c metadata c' metadata', Smallest sm c metadata →
        Smallest sm c' metadata' → c = c') := by
  by_cases hcrowded : Crowded config sm
  · rw [imp_iff_right hcrowded]
    have hfree : OrderFree (drains config) (sm.entries sm.listSubClusters) ↔
        OrderFree (fun clusters => (sortBySize (nonDraining clusters)).head?.toList.map
          fun entry => ClusterAction.drainCluster entry.1) (sm.entries sm.listSubClusters) := by
      rw [orderFree_entries, orderFree_entries]
      refine forall₄_congr fun order order' horder horder' => ?_
      rw [(drains_eq config horder).1 hcrowded, (drains_eq config horder').1 hcrowded]
    rw [hfree, orderFree_smallest sm fun first =>
      first.toList.map fun entry => ClusterAction.drainCluster entry.1]
    simp
  · refine iff_of_true ?_ fun h => absurd h hcrowded
    rw [orderFree_entries]
    intro order order' horder horder'
    rw [(drains_eq config horder).2 hcrowded, (drains_eq config horder').2 hcrowded]

/-- The sub-cluster is draining and has no nodes. -/
def isEmptied (metadata : SubClusterMetadata) : Bool :=
  metadata.isDraining && metadata.nodeIds.isEmpty

theorem destroys_eq (clusters : List (ℕ × SubClusterMetadata)) :
    destroys clusters = (clusters.filter fun entry => isEmptied entry.2).flatMap fun entry =>
      [ClusterAction.destroyCluster entry.1] :=
  (List.flatMap_pure_eq_map _ _).symm

theorem subsingleton_isEmptied :
    (∀ a ∈ (sm.entries sm.listSubClusters).filter (fun entry => isEmptied entry.2),
      ∀ b ∈ (sm.entries sm.listSubClusters).filter (fun entry => isEmptied entry.2), a = b) ↔
    ∀ c c', sm.isDrained c → sm.isDrained c' → c = c' := by
  rw [subsingleton_filter_entries isEmptied]
  constructor
  · intro h c c' hdrained hdrained'
    obtain ⟨metadata, hmeta, hp⟩ := (Option.any_eq_true _ _).mp hdrained
    obtain ⟨metadata', hmeta', hp'⟩ := (Option.any_eq_true _ _).mp hdrained'
    exact h c metadata c' metadata' hmeta hmeta' hp hp'
  · intro h c metadata c' metadata' hmeta hmeta' hp hp'
    exact h c c' ((Option.any_eq_true _ _).mpr ⟨metadata, hmeta, hp⟩)
      ((Option.any_eq_true _ _).mpr ⟨metadata', hmeta', hp'⟩)

/-- The deletions come first, so that they are compared with each other. -/
theorem orderFree_consolidation (config : ClusterManagerConfig) (sm : ManagementStateMachine) :
    OrderFree (decideConsolidation config) (sm.entries sm.listSubClusters) ↔
      (∀ c c', sm.isDrained c → sm.isDrained c' → c = c') ∧
      (Crowded config sm → ∀ c metadata c' metadata', Smallest sm c metadata →
        Smallest sm c' metadata' → c = c') := by
  rw [← orderFree_drains, ← subsingleton_isEmptied]
  have heq : decideConsolidation config = fun clusters =>
      ((clusters.filter fun entry => isEmptied entry.2).flatMap fun entry =>
        [ClusterAction.destroyCluster entry.1]) ++ drains config clusters := by
    funext clusters
    rw [decideConsolidation, destroys_eq]
  rw [heq]
  constructor
  · intro h
    have hone := eq_of_orderFree_flatMap _ _ _ h fun a ha b hb x y hxy =>
      entry_eq ((mem_filter_entries isEmptied).mp ha).1 ((mem_filter_entries isEmptied).mp hb).1
        (ClusterAction.destroyCluster.inj (List.cons.inj hxy).1)
    refine ⟨hone, fun l₁ l₂ hl₁ hl₂ => ?_⟩
    have hdestroys := orderFree_of_subsingleton (fun emptied =>
      emptied.flatMap fun entry => [ClusterAction.destroyCluster entry.1]) hone l₁ l₂ hl₁ hl₂
    have hsame := h l₁ l₂ hl₁ hl₂
    dsimp only at hdestroys hsame
    rw [hdestroys] at hsame
    exact List.append_cancel_left hsame
  · rintro ⟨hone, hdrains⟩ l₁ l₂ hl₁ hl₂
    have hdestroys := orderFree_of_subsingleton (fun emptied =>
      emptied.flatMap fun entry => [ClusterAction.destroyCluster entry.1]) hone l₁ l₂ hl₁ hl₂
    dsimp only at hdestroys ⊢
    rw [hdestroys, hdrains l₁ l₂ hl₁ hl₂]

end

/-- The four decisions are the same for any two orders of the map exactly when there are no ties. -/
theorem decisions_eq_iff_tieless (config : ClusterManagerConfig) (sm : ManagementStateMachine) :
    (∀ order order', sm.IterationOrder order → sm.IterationOrder order' →
      (∀ n, decideNodePlacement config (sm.entries order) n =
        decideNodePlacement config (sm.entries order') n) ∧
      decideSplits config (sm.entries order) = decideSplits config (sm.entries order') ∧
      (∀ removed, decideRebalancing config (sm.entries order) removed =
        decideRebalancing config (sm.entries order') removed) ∧
      decideConsolidation config (sm.entries order) =
        decideConsolidation config (sm.entries order')) ↔ Tieless config sm := by
  have hplacement := fun n => (orderFree_entries sm _).symm.trans (orderFree_placement config sm n)
  have hsplits := (orderFree_entries sm _).symm.trans (orderFree_splits config sm)
  have hrebalancing := fun removed =>
    (orderFree_entries sm _).symm.trans (orderFree_rebalancing config sm removed)
  have hconsolidation := (orderFree_entries sm _).symm.trans (orderFree_consolidation config sm)
  constructor
  · intro h
    obtain ⟨hone, hdrains⟩ := hconsolidation.mp fun order order' horder horder' =>
      (h order order' horder horder').2.2.2
    exact {
      placement := (hplacement 0).mp fun order order' horder horder' =>
        (h order order' horder horder').1 0
      splits := hsplits.mp fun order order' horder horder' => (h order order' horder horder').2.1
      rebalancing := (hrebalancing 0).mp fun order order' horder horder' =>
        (h order order' horder horder').2.2.1 0
      destroys := hone
      drains := hdrains }
  · intro h order order' horder horder'
    refine ⟨fun n => ?_, ?_, fun removed => ?_, ?_⟩
    · exact (hplacement n).mpr h.placement order order' horder horder'
    · exact hsplits.mpr h.splits order order' horder horder'
    · exact (hrebalancing removed).mpr h.rebalancing order order' horder horder'
    · exact hconsolidation.mpr ⟨h.destroys, h.drains⟩ order order' horder horder'

/-- Two sub-clusters of one node and one of two. -/
def twoSmallest : ManagementStateMachine :=
  applyAll {} [.createSubCluster [1], .createSubCluster [2], .createSubCluster [3, 4]]

/-- The first one of the map is drained, and gets the next node. -/
theorem decisions_twoSmallest :
    ¬ ∀ config (sm : ManagementStateMachine) order order',
      sm.IterationOrder order → sm.IterationOrder order' →
      (∀ n, decideNodePlacement config (sm.entries order) n =
        decideNodePlacement config (sm.entries order') n) ∧
      decideSplits config (sm.entries order) = decideSplits config (sm.entries order') ∧
      (∀ removed, decideRebalancing config (sm.entries order) removed =
        decideRebalancing config (sm.entries order') removed) ∧
      decideConsolidation config (sm.entries order) =
        decideConsolidation config (sm.entries order') := by
  intro h
  have hsame := (h {} twoSmallest [1, 2, 3] [2, 1, 3] (by decide) (by decide)).2.2.2
  revert hsame
  decide

end ManagementStateMachine

end Raftoral
