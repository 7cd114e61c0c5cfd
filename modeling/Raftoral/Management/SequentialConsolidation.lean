import Raftoral.Management.ConcurrentConsolidation

/-!
# Consolidation, round after round

A round decides a consolidation and executes its actions in order, and nothing else happens to
the management state in between. The destroyed sub-clusters were draining and empty when the
round began and no command of the round comes before them that changes this; the drained one was
not draining, and enough others are not. The number of sub-clusters and the number of those that
are not draining never rise, and one of them falls in every round that has an action.
-/

namespace Raftoral

open ManagementStateMachine ClusterManager Transition

namespace ManagementStateMachine

/-- One round of `decide_consolidation`. -/
def consolidate (config : ClusterManagerConfig) (sm : ManagementStateMachine) (order : List ℕ) :
    ManagementStateMachine :=
  sm.applyAll (executeActions (decideConsolidation config (sm.entries order)))

/-- The sub-cluster is draining and has no nodes. -/
def isDrained (sm : ManagementStateMachine) (c : ℕ) : Bool :=
  (sm.getSubCluster c).any fun metadata => metadata.isDraining && metadata.nodeIds.isEmpty

/-- The metadata of a sub-cluster that is drained. -/
def drained (metadata : SubClusterMetadata) : SubClusterMetadata :=
  { metadata with metadata := metadata.metadata.insert "draining" "true" }

/-- There is nothing to consolidate, in whatever order the sub-clusters are looked at. -/
def Consolidated (config : ClusterManagerConfig) (sm : ManagementStateMachine) : Prop :=
  ∀ order, sm.IterationOrder order → decideConsolidation config (sm.entries order) = []

/-! ## What is decided -/

section
variable {config : ClusterManagerConfig} {sm : ManagementStateMachine} {order : List ℕ}

theorem map_fst_entries (horder : sm.IterationOrder order) (p : SubClusterMetadata → Bool) :
    ((sm.entries order).filter fun entry => p entry.2).map Prod.fst =
      order.filter fun c => (sm.getSubCluster c).any p := by
  have hmem : ∀ c ∈ order, (sm.getSubCluster c).isSome := fun c hc =>
    mem_listSubClusters.mp (horder.mem_iff.mp hc)
  clear horder
  induction order with
  | nil => rfl
  | cons c order ih =>
    obtain ⟨metadata, hget⟩ := Option.isSome_iff_exists.mp (hmem c List.mem_cons_self)
    have hrest := ih fun x hx => hmem x (List.mem_cons_of_mem c hx)
    rw [entries, List.filterMap_cons_some (by rw [hget]; rfl), ← entries]
    by_cases hp : p metadata
    · simp [hp, hget, hrest]
    · simp [hp, hget, hrest]

/-- The planner counts the sub-clusters that are not draining. -/
theorem length_nonDraining (horder : sm.IterationOrder order) :
    (nonDraining (sm.entries order)).length = sm.active.card := by
  have hlist := map_fst_entries horder fun metadata => !metadata.isDraining
  have hperm : (order.filter fun c => sm.isActive c).Perm
      (sm.listSubClusters.filter fun c => sm.isActive c) := horder.filter _
  have hnodup : (sm.listSubClusters.filter fun c => sm.isActive c).Nodup :=
    (Std.ExtTreeMap.nodup_keys).filter _
  rw [active, List.toFinset_card_of_nodup hnodup, ← hperm.length_eq, ← List.length_map Prod.fst]
  exact congrArg List.length hlist

/-- The destroyed sub-clusters. -/
theorem executeActions_destroys (horder : sm.IterationOrder order) :
    executeActions (destroys (sm.entries order)) =
      (order.filter fun c => sm.isDrained c).map .deleteSubCluster := by
  have hlist := map_fst_entries horder fun metadata =>
    metadata.isDraining && metadata.nodeIds.isEmpty
  rw [executeActions, destroys, List.flatMap_map]
  rw [show (order.filter fun c => sm.isDrained c) = _ from hlist.symm, List.map_map]
  exact List.flatMap_pure_eq_map _ _

/-- A drain is decided for a sub-cluster that is not draining, if more than the minimum are not.
Which of them it is depends on the order, but not whether there is one. -/
theorem drains_cases (config : ClusterManagerConfig) (horder : sm.IterationOrder order) :
    drains config (sm.entries order) = [] ∨
      ∃ c, drains config (sm.entries order) = [.drainCluster c] ∧ sm.isActive c ∧
        config.minClusterCount < sm.active.card := by
  simp only [drains]
  split
  · exact Or.inl rfl
  · split
    · exact Or.inl rfl
    · split
      · split
        · next hcount =>
          split
          · next c metadata hhead =>
            refine Or.inr ⟨c, rfl, ?_, length_nonDraining horder ▸ hcount⟩
            have hmem := List.mem_of_mem_head? (Option.mem_def.mpr hhead)
            rw [sortBySize, List.mem_insertionSort, nonDraining, List.mem_filter,
              mem_entries horder] at hmem
            rw [isActive, hmem.1]
            exact hmem.2
          · exact Or.inl rfl
        · exact Or.inl rfl
      · exact Or.inl rfl

/-- Whether there is a drain does not depend on the order. -/
theorem drains_eq_nil_iff (config : ClusterManagerConfig)
    (clusters : List (ℕ × SubClusterMetadata)) :
    drains config clusters = [] ↔
      (clusters.map fun entry => entry.2.nodeIds.length).sum = 0 ∨
      clusters.length ≤ config.minClusterCount ∨
      config.aboveDrainThreshold clusters.length
        (clusters.map fun entry => entry.2.nodeIds.length).sum = false ∨
      (nonDraining clusters).length ≤ config.minClusterCount := by
  simp only [drains]
  split
  · next hzero => simp [hzero]
  · next hzero =>
    split
    · next hcount => simp [hcount]
    · next hcount =>
      split
      · next habove =>
        split
        · next hmore =>
          -- there is a sub-cluster to drain
          have hne : sortBySize (nonDraining clusters) ≠ [] := by
            rw [← List.length_pos_iff, sortBySize, List.length_insertionSort]
            omega
          obtain ⟨entry, rest, heq⟩ := List.exists_cons_of_ne_nil hne
          rw [heq]
          have hle : ¬ (nonDraining clusters).length ≤ config.minClusterCount := by omega
          simp [hzero, hcount, habove, hle]
        · next hmore =>
          have hle : (nonDraining clusters).length ≤ config.minClusterCount := by omega
          simp [hle]
      · next habove => simp [habove]

theorem drains_eq_nil_of_perm {clusters clusters' : List (ℕ × SubClusterMetadata)}
    (h : clusters.Perm clusters') (hnil : drains config clusters = []) :
    drains config clusters' = [] := by
  have hnon : (nonDraining clusters).Perm (nonDraining clusters') := h.filter _
  rw [drains_eq_nil_iff] at hnil ⊢
  rw [← h.length_eq, ← hnon.length_eq, ← (h.map _).sum_eq]
  exact hnil

theorem mem_filter_isDrained (horder : sm.IterationOrder order) {c : ℕ} :
    c ∈ order.filter (fun c => sm.isDrained c) ↔ sm.isDrained c := by
  rw [List.mem_filter, and_iff_right_iff_imp]
  intro h
  obtain ⟨metadata, hget, -⟩ := (Option.any_eq_true _ _).mp h
  rw [horder.mem_iff, mem_listSubClusters, hget]
  rfl

theorem destroys_eq_nil_iff (horder : sm.IterationOrder order) :
    destroys (sm.entries order) = [] ↔ ∀ c, sm.isDrained c = false := by
  have hlist := map_fst_entries horder fun metadata =>
    metadata.isDraining && metadata.nodeIds.isEmpty
  rw [destroys, List.map_eq_nil_iff, ← List.map_eq_nil_iff (f := Prod.fst), hlist,
    List.eq_nil_iff_forall_not_mem]
  refine forall_congr' fun c => ?_
  exact (not_congr (mem_filter_isDrained horder)).trans (by rw [Bool.not_eq_true])

/-- Whether anything is decided does not depend on the order. -/
theorem consolidated_of_nil (horder : sm.IterationOrder order)
    (hnil : decideConsolidation config (sm.entries order) = []) : Consolidated config sm := by
  intro order' horder'
  rw [decideConsolidation, List.append_eq_nil_iff] at hnil ⊢
  refine ⟨?_, drains_eq_nil_of_perm (perm_entries horder horder') hnil.2⟩
  rw [destroys_eq_nil_iff horder']
  exact (destroys_eq_nil_iff horder).mp hnil.1

/-! ## What a round does -/

theorem getSubCluster_deleteAll (sm : ManagementStateMachine) (clusterIds : List ℕ) (c : ℕ) :
    (sm.applyAll (clusterIds.map .deleteSubCluster)).getSubCluster c =
      if c ∈ clusterIds then none else sm.getSubCluster c := by
  induction clusterIds generalizing sm with
  | nil => rfl
  | cons clusterId clusterIds ih =>
    rw [List.map_cons, applyAll_cons, ih, apply, getSubCluster_erase]
    by_cases hc : clusterId = c
    · simp [hc]
    · simp [hc, Ne.symm hc]

/-- What a round leaves that drains `goal`: everything that is not drained, with the mark. -/
def Leaves (sm after : ManagementStateMachine) (goal : Option ℕ) : Prop :=
  ∀ c, after.getSubCluster c =
    if sm.isDrained c then none
    else if goal = some c then (sm.getSubCluster c).map drained else sm.getSubCluster c

/-- A round deletes what is drained, and drains at most one sub-cluster, if more than the minimum
are not draining. -/
theorem consolidate_cases (config : ClusterManagerConfig) (horder : sm.IterationOrder order) :
    ∃ goal : Option ℕ, (drains config (sm.entries order) = [] ↔ goal = none) ∧
      (∀ c, goal = some c → sm.isActive c ∧ config.minClusterCount < sm.active.card) ∧
      Leaves sm (sm.consolidate config order) goal := by
  have hdeleted : ∀ c, (sm.applyAll (executeActions (destroys (sm.entries order)))).getSubCluster c =
      if sm.isDrained c then none else sm.getSubCluster c := by
    intro c
    rw [executeActions_destroys horder, getSubCluster_deleteAll]
    simp only [mem_filter_isDrained horder]
  have hround : sm.consolidate config order =
      (sm.applyAll (executeActions (destroys (sm.entries order)))).applyAll
        (executeActions (drains config (sm.entries order))) := by
    rw [consolidate, decideConsolidation, executeActions, List.flatMap_append, applyAll_append]
    rfl
  rcases drains_cases config horder with hnil | ⟨c', hdrain, hactive, hmore⟩
  · refine ⟨none, by simp [hnil], by simp, fun c => ?_⟩
    rw [hround, hnil]
    exact hdeleted c
  · refine ⟨some c', by simp [hdrain], ?_, fun c => ?_⟩
    · rintro c hc
      rw [← Option.some.inj hc]
      exact ⟨hactive, hmore⟩
    · rw [hround, hdrain]
      show ((sm.applyAll (executeActions (destroys (sm.entries order)))).apply
        (.setMetadata c' "draining" "true")).2.getSubCluster c = _
      rw [apply, getSubCluster_updateSubCluster, hdeleted]
      by_cases hc : c' = c
      · subst hc
        by_cases hd : sm.isDrained c'
        · simp [hd]
        · simp only [hd]
          rfl
      · have hne : (some c' : Option ℕ) ≠ some c := fun heq => hc (Option.some.inj heq)
        rw [if_neg hc, if_neg hne]

/-- The sub-clusters there are. -/
def clusters (sm : ManagementStateMachine) : Finset ℕ := sm.listSubClusters.toFinset

theorem mem_clusters {c : ℕ} : c ∈ sm.clusters ↔ (sm.getSubCluster c).isSome := by
  rw [clusters, List.mem_toFinset, mem_listSubClusters]

theorem isDraining_drained (metadata : SubClusterMetadata) : (drained metadata).isDraining = true :=
  isDraining_insert metadata

/-- The effect of a round on one sub-cluster. -/
structure Round (config : ClusterManagerConfig) (sm after : ManagementStateMachine) : Prop where
  /-- What is gone was draining and empty. -/
  deleted : ∀ c metadata, sm.getSubCluster c = some metadata → after.getSubCluster c = none →
    metadata.isDraining ∧ metadata.nodeIds = []
  /-- Nothing new is there. -/
  old : ∀ c, (after.getSubCluster c).isSome → (sm.getSubCluster c).isSome
  /-- What stays keeps its nodes. -/
  nodeIds : ∀ c metadata metadata', sm.getSubCluster c = some metadata →
    after.getSubCluster c = some metadata' → metadata'.nodeIds = metadata.nodeIds
  /-- Enough sub-clusters are not draining. -/
  enough : min config.minClusterCount sm.active.card ≤ after.active.card
  clusters : after.clusters.card ≤ sm.clusters.card
  active : after.active.card ≤ sm.active.card
  /-- Something gets less, unless there is nothing to do. -/
  less : Consolidated config sm ∨
    after.clusters.card + after.active.card < sm.clusters.card + sm.active.card

section
variable {after : ManagementStateMachine} {goal : Option ℕ}

theorem Leaves.clusters (h : Leaves sm after goal) :
    after.clusters = sm.clusters.filter fun c => ¬ sm.isDrained c := by
  ext c
  rw [mem_clusters, Finset.mem_filter, mem_clusters, h c]
  by_cases hd : sm.isDrained c
  · simp [hd]
  · by_cases hc : goal = some c
    · simp [hd, hc]
    · simp [hd, hc]

theorem Leaves.active (h : Leaves sm after goal) :
    after.active = sm.active.filter fun c => goal ≠ some c := by
  ext c
  rw [mem_active, Finset.mem_filter, mem_active, isActive, h c]
  by_cases hd : sm.isDrained c
  · -- what is drained was not active before
    obtain ⟨metadata, hmeta, hdrained⟩ := (Option.any_eq_true _ _).mp hd
    rw [Bool.and_eq_true] at hdrained
    simp [hd, isActive, hmeta, hdrained.1]
  · by_cases hc : goal = some c
    · cases hmeta : sm.getSubCluster c with
      | none => simp [hd, hc]
      | some metadata => simp [hd, hc, isDraining_drained]
    · simp [hd, hc, isActive]

/-- What is gone was draining and empty. -/
theorem Leaves.deleted (h : Leaves sm after goal) {c : ℕ} {metadata : SubClusterMetadata}
    (hmeta : sm.getSubCluster c = some metadata) (hgone : after.getSubCluster c = none) :
    metadata.isDraining ∧ metadata.nodeIds = [] := by
  rw [h c] at hgone
  by_cases hd : sm.isDrained c
  · rw [isDrained, hmeta, Option.any_some, Bool.and_eq_true, List.isEmpty_iff] at hd
    exact hd
  · rw [if_neg hd, hmeta] at hgone
    split at hgone
    · exact absurd hgone (by simp)
    · exact absurd hgone (by simp)

theorem Leaves.nodeIds (h : Leaves sm after goal) {c : ℕ} {metadata metadata' : SubClusterMetadata}
    (hmeta : sm.getSubCluster c = some metadata) (hmeta' : after.getSubCluster c = some metadata') :
    metadata'.nodeIds = metadata.nodeIds := by
  rw [h c, hmeta] at hmeta'
  split at hmeta'
  · exact absurd hmeta' (by simp)
  · split at hmeta'
    · rw [← Option.some.inj hmeta']
      rfl
    · rw [Option.some.inj hmeta']

/-- At most one sub-cluster starts to drain, and then there are more than enough. -/
theorem Leaves.enough (h : Leaves sm after goal)
    (hgoal : ∀ c, goal = some c → sm.isActive c ∧ config.minClusterCount < sm.active.card) :
    min config.minClusterCount sm.active.card ≤ after.active.card := by
  cases hg : goal with
  | none =>
    have hsame : after.active = sm.active := by rw [h.active, hg]; simp
    rw [hsame]
    exact min_le_right _ _
  | some c =>
    have herase : after.active = sm.active.erase c := by
      rw [h.active, hg]
      ext x
      rw [Finset.mem_filter, Finset.mem_erase, and_comm]
      simp [eq_comm]
    obtain ⟨hc, hmore⟩ := hgoal c hg
    rw [herase, Finset.card_erase_of_mem (mem_active.mpr hc)]
    omega

theorem Leaves.card_clusters_lt (h : Leaves sm after goal) {c : ℕ} (hc : sm.isDrained c) :
    after.clusters.card < sm.clusters.card := by
  obtain ⟨metadata, hmeta, -⟩ := (Option.any_eq_true _ _).mp hc
  have hmem : c ∈ sm.clusters := mem_clusters.mpr (by rw [hmeta]; rfl)
  rw [h.clusters]
  exact Finset.card_lt_card (Finset.filter_ssubset.mpr ⟨c, hmem, not_not_intro hc⟩)

theorem Leaves.card_active_lt (h : Leaves sm after goal) {c : ℕ} (hg : goal = some c)
    (hc : sm.isActive c) : after.active.card < sm.active.card := by
  rw [h.active]
  exact Finset.card_lt_card (Finset.filter_ssubset.mpr ⟨c, mem_active.mpr hc, not_not_intro hg⟩)

end

theorem round_consolidate (config : ClusterManagerConfig) (horder : sm.IterationOrder order) :
    Round config sm (sm.consolidate config order) := by
  obtain ⟨goal, hnone, hgoal, hleaves⟩ := consolidate_cases config horder
  have hclusters : (sm.consolidate config order).clusters.card ≤ sm.clusters.card := by
    rw [hleaves.clusters]
    exact Finset.card_filter_le _ _
  have hactive : (sm.consolidate config order).active.card ≤ sm.active.card := by
    rw [hleaves.active]
    exact Finset.card_filter_le _ _
  refine ⟨fun c metadata => hleaves.deleted, fun c hc => ?_, fun c metadata metadata' =>
    hleaves.nodeIds, hleaves.enough hgoal, hclusters, hactive, ?_⟩
  · rw [← mem_clusters, hleaves.clusters, Finset.mem_filter, mem_clusters] at hc
    exact hc.1
  · by_cases hd : ∀ c, sm.isDrained c = false
    · cases hg : goal with
      | none =>
        refine Or.inl (consolidated_of_nil horder ?_)
        rw [decideConsolidation, (destroys_eq_nil_iff horder).mpr hd, hnone.mpr hg]
        rfl
      | some c =>
        have hlt := hleaves.card_active_lt hg (hgoal c hg).1
        exact Or.inr (by omega)
    · obtain ⟨c, hc⟩ := not_forall.mp hd
      rw [Bool.not_eq_false] at hc
      have hlt := hleaves.card_clusters_lt hc
      exact Or.inr (by omega)

/-- A state with nothing to consolidate stays as it is, and has no drained sub-cluster. -/
theorem Consolidated.consolidate (h : Consolidated config sm) (horder : sm.IterationOrder order) :
    sm.consolidate config order = sm := by
  rw [ManagementStateMachine.consolidate, h order horder]
  rfl

theorem Consolidated.not_drained (h : Consolidated config sm) {c : ℕ}
    {metadata : SubClusterMetadata} (hmeta : sm.getSubCluster c = some metadata) :
    ¬ (metadata.isDraining ∧ metadata.nodeIds = []) := by
  have hnil := h sm.listSubClusters (List.Perm.refl _)
  rw [decideConsolidation, List.append_eq_nil_iff] at hnil
  have hnot := (destroys_eq_nil_iff (List.Perm.refl _)).mp hnil.1 c
  rintro ⟨hdraining, hempty⟩
  simp [isDrained, hmeta, hdraining, hempty] at hnot

end

/-- In every run of rounds, from any state: between any two rounds the number of sub-clusters that
are not draining is at least the smaller of the minimum and what it was; only sub-clusters that
are draining and empty are deleted, none changes its nodes, and none is new. After at most as many
rounds as there were sub-clusters and active ones nothing is decided any more, and no drained
sub-cluster is left. -/
theorem consolidation_settles (config : ClusterManagerConfig) {s : ℕ → ManagementStateMachine}
    (hrun : ∀ i, ∃ order, (s i).IterationOrder order ∧ s (i + 1) = (s i).consolidate config order) :
    (∀ i j, i ≤ j → min config.minClusterCount (s i).active.card ≤ (s j).active.card) ∧
    (∀ i c metadata, (s i).getSubCluster c = some metadata → (s (i + 1)).getSubCluster c = none →
      metadata.isDraining ∧ metadata.nodeIds = []) ∧
    (∀ i c metadata', (s (i + 1)).getSubCluster c = some metadata' →
      ∃ metadata, (s i).getSubCluster c = some metadata ∧ metadata'.nodeIds = metadata.nodeIds) ∧
    ∃ N ≤ (s 0).clusters.card + (s 0).active.card, ∀ i, N ≤ i →
      Consolidated config (s i) ∧ ∀ c metadata, (s i).getSubCluster c = some metadata →
        ¬ (metadata.isDraining ∧ metadata.nodeIds = []) := by
  have hround : ∀ i, Round config (s i) (s (i + 1)) := by
    intro i
    obtain ⟨order, horder, heq⟩ := hrun i
    rw [heq]
    exact round_consolidate config horder
  refine ⟨?_, fun i => (hround i).deleted, ?_, ?_⟩
  · intro i j hij
    induction j, hij using Nat.le_induction with
    | base => exact min_le_right _ _
    | succ j _ ih =>
      have hone := (hround j).enough
      omega
  · intro i c metadata' hmeta'
    obtain ⟨metadata, hmeta⟩ :=
      Option.isSome_iff_exists.mp ((hround i).old c (by rw [hmeta']; rfl))
    exact ⟨metadata, hmeta, (hround i).nodeIds c metadata metadata' hmeta hmeta'⟩
  · have hstay : ∀ i, Consolidated config (s i) → Consolidated config (s (i + 1)) := by
      intro i hQ
      obtain ⟨order, horder, heq⟩ := hrun i
      rw [heq, hQ.consolidate horder]
      exact hQ
    obtain ⟨N, hN, hsettled⟩ := settles_of_measure
      (μ := fun sm => sm.clusters.card + sm.active.card)
      (fun i hnot => (hround i).less.resolve_left hnot) hstay
    exact ⟨N, hN, fun i hi => ⟨hsettled i hi, fun c metadata hmeta =>
      (hsettled i hi).not_drained hmeta⟩⟩

/-- Two sub-clusters with a node each and one without. -/
def threeClusters : ManagementStateMachine :=
  applyAll {} [.createSubCluster [1], .createSubCluster [2], .createSubCluster []]

/-- Under a ratio that is always exceeded, two of three sub-clusters are drained at most, and the
rounds come to an end. -/
theorem consolidation_settles_threeClusters :
    ∃ s : ℕ → ManagementStateMachine, s 0 = threeClusters ∧
      (∀ i, 1 ≤ (s i).active.card) ∧
      ∃ N ≤ 6, ∀ i, N ≤ i →
        Consolidated { minClusterCount := 1, aboveDrainThreshold := fun _ _ => true } (s i) := by
  set config : ClusterManagerConfig :=
    { minClusterCount := 1, aboveDrainThreshold := fun _ _ => true } with hconfig
  set s : ℕ → ManagementStateMachine := fun i =>
    (fun sm => sm.consolidate config sm.listSubClusters)^[i] threeClusters with hs
  have hrun : ∀ i, ∃ order, (s i).IterationOrder order ∧
      s (i + 1) = (s i).consolidate config order := by
    intro i
    exact ⟨_, List.Perm.refl _, Function.iterate_succ_apply' ..⟩
  obtain ⟨hfloor, -, -, N, hN, hsettled⟩ := consolidation_settles config hrun
  have hclusters : (s 0).clusters.card = 3 := by decide
  have hactive : (s 0).active.card = 3 := by decide
  refine ⟨s, rfl, fun i => ?_, N, by omega, fun i hi => (hsettled i hi).1⟩
  have hone := hfloor 0 i (Nat.zero_le i)
  rw [hactive] at hone
  exact hone

end ManagementStateMachine

end Raftoral
