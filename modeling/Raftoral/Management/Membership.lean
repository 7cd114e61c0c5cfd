import Raftoral.Management.ClusterManager

/-!
# Who is in which sub-cluster

What each command does to the members of the sub-clusters, and what lists of commands do. A split
is one creation and a removal for each node it moves, proposed one by one, and an error of a
proposal is discarded: the removals are proposed even if the creation failed.
-/

namespace Raftoral

namespace ManagementStateMachine

/-! ## One command -/

theorem getSubCluster_updateSubCluster (sm : ManagementStateMachine) (clusterId c : ℕ)
    (update : SubClusterMetadata → SubClusterMetadata) (event : ManagementEvent) :
    (sm.updateSubCluster clusterId update event).2.getSubCluster c =
      if clusterId = c then (sm.getSubCluster c).map update else sm.getSubCluster c := by
  rcases sm.updateSubCluster_cases clusterId update event with ⟨metadata, hget, h⟩ | ⟨hget, h⟩
  · rw [h, getSubCluster_insert]
    by_cases hc : clusterId = c
    · subst hc
      simp [hget]
    · simp [hc]
  · rw [h]
    by_cases hc : clusterId = c
    · subst hc
      simp [hget]
    · simp [hc]

theorem hasMember_createSubCluster (sm : ManagementStateMachine) (nodeIds : List ℕ) (c n : ℕ) :
    (sm.apply (.createSubCluster nodeIds)).2.hasMember c n =
      if sm.nextClusterId = c then nodeIds.contains n else sm.hasMember c n := by
  rw [hasMember, apply, getSubCluster_insert]
  by_cases hc : sm.nextClusterId = c
  · simp [hc]
  · simp [hc, hasMember]

theorem hasMember_deleteSubCluster (sm : ManagementStateMachine) (clusterId c n : ℕ) :
    (sm.apply (.deleteSubCluster clusterId)).2.hasMember c n =
      if clusterId = c then false else sm.hasMember c n := by
  rw [hasMember, apply, getSubCluster_erase]
  by_cases hc : clusterId = c
  · simp [hc]
  · simp [hc, hasMember]

theorem hasMember_addNode {sm : ManagementStateMachine} {clusterId nodeId c n : ℕ} :
    (sm.apply (.addNodeToSubCluster clusterId nodeId)).2.hasMember c n ↔
      sm.hasMember c n ∨ clusterId = c ∧ nodeId = n ∧ (sm.getSubCluster c).isSome := by
  rw [apply, hasMember, getSubCluster_updateSubCluster]
  by_cases hc : clusterId = c
  · subst hc
    cases hget : sm.getSubCluster clusterId with
    | none => simp [hasMember, hget]
    | some metadata =>
      by_cases hmem : nodeId ∈ metadata.nodeIds
      · have hsame : nodeId = n → n ∈ metadata.nodeIds := fun h => h ▸ hmem
        simpa [hasMember, hget, SubClusterMetadata.addNode, hmem] using hsame
      · simp [hasMember, hget, SubClusterMetadata.addNode, hmem, @eq_comm _ n nodeId]
  · simp [hc, hasMember]

theorem hasMember_removeNode {sm : ManagementStateMachine} {clusterId nodeId c n : ℕ} :
    (sm.apply (.removeNodeFromSubCluster clusterId nodeId)).2.hasMember c n ↔
      sm.hasMember c n ∧ ¬ (clusterId = c ∧ nodeId = n) := by
  rw [apply, hasMember, getSubCluster_updateSubCluster]
  by_cases hc : clusterId = c
  · subst hc
    cases hget : sm.getSubCluster clusterId with
    | none => simp [hasMember, hget]
    | some metadata =>
      simp [hasMember, hget, SubClusterMetadata.removeNode, @eq_comm _ n nodeId]
  · simp [hc, hasMember]

theorem hasMember_update_of_nodeIds (sm : ManagementStateMachine) (clusterId c n : ℕ)
    {update : SubClusterMetadata → SubClusterMetadata} (event : ManagementEvent)
    (hupdate : ∀ metadata, (update metadata).nodeIds = metadata.nodeIds) :
    (sm.updateSubCluster clusterId update event).2.hasMember c n = sm.hasMember c n := by
  rw [hasMember, getSubCluster_updateSubCluster]
  by_cases hc : clusterId = c
  · subst hc
    cases hget : sm.getSubCluster clusterId with
    | none => simp [hasMember, hget]
    | some metadata => simp [hasMember, hget, hupdate]
  · simp [hc, hasMember]

theorem hasMember_setMetadata (sm : ManagementStateMachine) (clusterId c n : ℕ)
    (key value : String) :
    (sm.apply (.setMetadata clusterId key value)).2.hasMember c n = sm.hasMember c n :=
  hasMember_update_of_nodeIds sm clusterId c n _ fun _ => rfl

theorem hasMember_deleteMetadata (sm : ManagementStateMachine) (clusterId c n : ℕ)
    (key : String) :
    (sm.apply (.deleteMetadata clusterId key)).2.hasMember c n = sm.hasMember c n :=
  hasMember_update_of_nodeIds sm clusterId c n _ fun _ => rfl

/-- A node stays in a sub-cluster unless it is removed or the sub-cluster is deleted. -/
theorem hasMember_apply_of_ne {sm : ManagementStateMachine} (hnumbered : sm.Numbered)
    {command : ManagementCommand} {c n : ℕ} (hdelete : command ≠ .deleteSubCluster c)
    (hremove : command ≠ .removeNodeFromSubCluster c n) (hmember : sm.hasMember c n) :
    (sm.apply command).2.hasMember c n := by
  cases command with
  | createSubCluster nodeIds =>
    rw [hasMember_createSubCluster, if_neg]
    · exact hmember
    · rintro rfl
      simp [hasMember, hnumbered.fresh] at hmember
  | deleteSubCluster clusterId =>
    rw [hasMember_deleteSubCluster, if_neg fun heq => hdelete (by rw [heq])]
    exact hmember
  | addNodeToSubCluster clusterId nodeId => exact hasMember_addNode.mpr (Or.inl hmember)
  | removeNodeFromSubCluster clusterId nodeId =>
    exact hasMember_removeNode.mpr ⟨hmember, fun heq => hremove (by rw [heq.1, heq.2])⟩
  | setMetadata clusterId key value => rwa [hasMember_setMetadata]
  | deleteMetadata clusterId key => rwa [hasMember_deleteMetadata]
  | registerNodeAddress nodeId address => exact hmember

theorem mem_listSubClusters {sm : ManagementStateMachine} {c : ℕ} :
    c ∈ sm.listSubClusters ↔ (sm.getSubCluster c).isSome := by
  rw [listSubClusters, Std.ExtTreeMap.mem_keys, getSubCluster, Std.ExtTreeMap.isSome_getElem?_iff_mem]

/-! ## How many sub-clusters a node is in -/

section Memberships

variable {sm : ManagementStateMachine}

/-- The sub-clusters a node is in. -/
def clustersOf (sm : ManagementStateMachine) (n : ℕ) : Finset ℕ :=
  (sm.listSubClusters.filter fun c => sm.hasMember c n).toFinset

theorem mem_clustersOf {c n : ℕ} : c ∈ sm.clustersOf n ↔ sm.hasMember c n := by
  rw [clustersOf, List.mem_toFinset, List.mem_filter, mem_listSubClusters, and_iff_right_iff_imp]
  intro h
  obtain ⟨metadata, hget, -⟩ := hasMember_iff.mp h
  rw [hget]
  rfl

def memberships (sm : ManagementStateMachine) (n : ℕ) : ℕ := (sm.clustersOf n).card

theorem memberships_createSubCluster (hnext : sm.getSubCluster sm.nextClusterId = none)
    (nodeIds : List ℕ) (n : ℕ) :
    (sm.apply (.createSubCluster nodeIds)).2.memberships n =
      sm.memberships n + if n ∈ nodeIds then 1 else 0 := by
  have hfresh : sm.nextClusterId ∉ sm.clustersOf n := by
    rw [mem_clustersOf, hasMember, hnext]
    simp
  by_cases hn : n ∈ nodeIds
  · have hclusters : (sm.apply (.createSubCluster nodeIds)).2.clustersOf n =
        insert sm.nextClusterId (sm.clustersOf n) := by
      ext c
      rw [mem_clustersOf, hasMember_createSubCluster, Finset.mem_insert, mem_clustersOf]
      by_cases hc : sm.nextClusterId = c
      · simp [hc, hn]
      · simp [hc, Ne.symm hc]
    rw [memberships, hclusters, Finset.card_insert_of_notMem hfresh, if_pos hn, memberships]
  · have hclusters : (sm.apply (.createSubCluster nodeIds)).2.clustersOf n = sm.clustersOf n := by
      ext c
      rw [mem_clustersOf, hasMember_createSubCluster, mem_clustersOf]
      by_cases hc : sm.nextClusterId = c
      · subst hc
        simpa [hn] using mem_clustersOf.not.mp hfresh
      · simp [hc]
    rw [memberships, hclusters, if_neg hn, memberships, Nat.add_zero]

theorem memberships_addNode_le (clusterId nodeId n : ℕ) :
    (sm.apply (.addNodeToSubCluster clusterId nodeId)).2.memberships n ≤
      sm.memberships n + if nodeId = n then 1 else 0 := by
  by_cases hn : nodeId = n
  · have hclusters : (sm.apply (.addNodeToSubCluster clusterId nodeId)).2.clustersOf n ⊆
        insert clusterId (sm.clustersOf n) := by
      intro c hc
      rw [mem_clustersOf, hasMember_addNode] at hc
      rw [Finset.mem_insert, mem_clustersOf]
      rcases hc with hc | ⟨rfl, -, -⟩
      · exact Or.inr hc
      · exact Or.inl rfl
    rw [if_pos hn]
    exact (Finset.card_le_card hclusters).trans (Finset.card_insert_le _ _)
  · have hclusters : (sm.apply (.addNodeToSubCluster clusterId nodeId)).2.clustersOf n ⊆
        sm.clustersOf n := by
      intro c hc
      rw [mem_clustersOf, hasMember_addNode] at hc
      rw [mem_clustersOf]
      rcases hc with hc | ⟨-, heq, -⟩
      · exact hc
      · exact absurd heq hn
    rw [if_neg hn]
    exact Finset.card_le_card hclusters

theorem memberships_removeNode {clusterId nodeId : ℕ} (hmember : sm.hasMember clusterId nodeId)
    (n : ℕ) :
    (sm.apply (.removeNodeFromSubCluster clusterId nodeId)).2.memberships n +
      (if nodeId = n then 1 else 0) = sm.memberships n := by
  by_cases hn : nodeId = n
  · subst hn
    have hclusters : (sm.apply (.removeNodeFromSubCluster clusterId nodeId)).2.clustersOf nodeId =
        (sm.clustersOf nodeId).erase clusterId := by
      ext c
      rw [mem_clustersOf, hasMember_removeNode, Finset.mem_erase, mem_clustersOf]
      simp [and_comm, @eq_comm ℕ c]
    rw [memberships, hclusters, if_pos rfl,
      Finset.card_erase_add_one (mem_clustersOf.mpr hmember), memberships]
  · have hclusters : (sm.apply (.removeNodeFromSubCluster clusterId nodeId)).2.clustersOf n =
        sm.clustersOf n := by
      ext c
      rw [mem_clustersOf, hasMember_removeNode, mem_clustersOf]
      simp [hn]
    rw [memberships, hclusters, if_neg hn, memberships, Nat.add_zero]

end Memberships

/-! ## States without duplicates -/

/-- No node is listed twice in a sub-cluster, and the numbers in use are below the next one. -/
structure DuplicateFree (sm : ManagementStateMachine) : Prop where
  nodup : ∀ c metadata, sm.getSubCluster c = some metadata → metadata.nodeIds.Nodup
  numbered : sm.Numbered

theorem duplicateFree_new : DuplicateFree {} :=
  ⟨fun c metadata h => by simp [getSubCluster] at h, numbered_new⟩

/-- A command that creates no list with duplicates, and finds a number to give. -/
def Admissible (sm : ManagementStateMachine) : ManagementCommand → Prop
  | .createSubCluster nodeIds => nodeIds.Nodup ∧ sm.nextClusterId + 1 < U32.size
  | _ => True

theorem DuplicateFree.update {sm : ManagementStateMachine} (h : sm.DuplicateFree) {clusterId : ℕ}
    {update : SubClusterMetadata → SubClusterMetadata} {event : ManagementEvent}
    (hupdate : ∀ metadata, metadata.nodeIds.Nodup → (update metadata).nodeIds.Nodup) :
    ∀ c metadata, (sm.updateSubCluster clusterId update event).2.getSubCluster c = some metadata →
      metadata.nodeIds.Nodup := by
  intro c metadata hget
  rw [getSubCluster_updateSubCluster] at hget
  by_cases hc : clusterId = c
  · rw [if_pos hc] at hget
    obtain ⟨before, hbefore, rfl⟩ := Option.map_eq_some_iff.mp hget
    exact hupdate before (h.nodup c before hbefore)
  · rw [if_neg hc] at hget
    exact h.nodup c metadata hget

theorem nodup_addNode {metadata : SubClusterMetadata} (h : metadata.nodeIds.Nodup) (nodeId : ℕ) :
    (metadata.addNode nodeId).nodeIds.Nodup := by
  unfold SubClusterMetadata.addNode
  by_cases hmem : nodeId ∈ metadata.nodeIds
  · simpa [hmem] using h
  · simpa [hmem] using List.nodup_append.mpr ⟨h, List.nodup_singleton _, by
      intro a ha b hb heq
      rw [List.mem_singleton] at hb
      exact hmem (hb ▸ heq ▸ ha)⟩

theorem DuplicateFree.apply {sm : ManagementStateMachine} (h : sm.DuplicateFree)
    {command : ManagementCommand} (hadm : sm.Admissible command) :
    (sm.apply command).2.DuplicateFree := by
  refine ⟨?_, h.numbered.apply fun hcreate => ?_⟩
  · cases command with
    | createSubCluster nodeIds =>
      intro c metadata hget
      rw [ManagementStateMachine.apply, getSubCluster_insert] at hget
      by_cases hc : sm.nextClusterId = c
      · rw [if_pos hc] at hget
        rw [← Option.some.inj hget]
        exact hadm.1
      · rw [if_neg hc] at hget
        exact h.nodup c metadata hget
    | deleteSubCluster clusterId =>
      intro c metadata hget
      rw [ManagementStateMachine.apply, getSubCluster_erase] at hget
      by_cases hc : clusterId = c
      · simp [hc] at hget
      · rw [if_neg hc] at hget
        exact h.nodup c metadata hget
    | addNodeToSubCluster clusterId nodeId => exact h.update fun _ hm => nodup_addNode hm nodeId
    | removeNodeFromSubCluster clusterId nodeId => exact h.update fun _ hm => hm.filter _
    | setMetadata clusterId key value => exact h.update fun _ hm => hm
    | deleteMetadata clusterId key => exact h.update fun _ hm => hm
    | registerNodeAddress nodeId address => exact h.nodup
  · cases command with
    | createSubCluster nodeIds => exact hadm.2
    | _ => exact absurd hcreate (by simp [ManagementCommand.isCreate])

/-! ## Lists of commands -/

/-- The state after a list of committed commands. -/
def applyAll (sm : ManagementStateMachine) (commands : List ManagementCommand) :
    ManagementStateMachine :=
  commands.foldl (fun sm command => (sm.apply command).2) sm

@[simp] theorem applyAll_nil (sm : ManagementStateMachine) : sm.applyAll [] = sm := rfl

@[simp] theorem applyAll_cons (sm : ManagementStateMachine) (command : ManagementCommand)
    (commands : List ManagementCommand) :
    sm.applyAll (command :: commands) = (sm.apply command).2.applyAll commands := rfl

theorem applyAll_append (sm : ManagementStateMachine) (commands commands' : List ManagementCommand) :
    sm.applyAll (commands ++ commands') = (sm.applyAll commands).applyAll commands' := by
  simp [applyAll]

/-- The node is in some sub-cluster. -/
def Housed (sm : ManagementStateMachine) (n : ℕ) : Prop := ∃ c, sm.hasMember c n

theorem housed_iff_exists_mem {sm : ManagementStateMachine} {n : ℕ} :
    sm.Housed n ↔ ∃ c ∈ sm.listSubClusters, sm.hasMember c n := by
  refine exists_congr fun c => ⟨fun h => ⟨?_, h⟩, fun h => h.2⟩
  obtain ⟨metadata, hget, -⟩ := hasMember_iff.mp h
  rw [mem_listSubClusters, hget]
  rfl

instance (sm : ManagementStateMachine) (n : ℕ) : Decidable (sm.Housed n) :=
  decidable_of_iff _ housed_iff_exists_mem.symm

/-- Creations, and removals from sub-clusters below a number. -/
def MovesBelow (b : ℕ) : ManagementCommand → Prop
  | .createSubCluster _ => True
  | .removeNodeFromSubCluster clusterId _ => clusterId < b
  | _ => False

/-- The node is in a sub-cluster that the commands do not remove it from, or they create one with
it. -/
def HousedBehind (sm : ManagementStateMachine) (commands : List ManagementCommand) (n : ℕ) : Prop :=
  (∃ c, sm.hasMember c n ∧ .removeNodeFromSubCluster c n ∉ commands) ∨
    ∃ nodeIds, .createSubCluster nodeIds ∈ commands ∧ n ∈ nodeIds

/-- A creation may be applied first: nothing is removed from the new sub-cluster. -/
theorem housedBehind_create {sm : ManagementStateMachine} (hnumbered : sm.Numbered)
    {nodeIds : List ℕ} {commands : List ManagementCommand} {n : ℕ}
    (habove : .removeNodeFromSubCluster sm.nextClusterId n ∉ commands) :
    (sm.apply (.createSubCluster nodeIds)).2.HousedBehind commands n ↔
      sm.HousedBehind (.createSubCluster nodeIds :: commands) n := by
  have hfresh : ∀ c, sm.hasMember c n → sm.nextClusterId ≠ c := by
    rintro c hc rfl
    simp [hasMember, hnumbered.fresh] at hc
  simp only [HousedBehind, hasMember_createSubCluster, List.mem_cons, reduceCtorEq, false_or]
  constructor
  · rintro (⟨c, hc, hremove⟩ | ⟨nodeIds', hmem, hn⟩)
    · by_cases hnew : sm.nextClusterId = c
      · rw [if_pos hnew] at hc
        exact Or.inr ⟨nodeIds, Or.inl rfl, List.contains_iff_mem.mp hc⟩
      · rw [if_neg hnew] at hc
        exact Or.inl ⟨c, hc, hremove⟩
    · exact Or.inr ⟨nodeIds', Or.inr hmem, hn⟩
  · rintro (⟨c, hc, hremove⟩ | ⟨nodeIds', heq | hmem, hn⟩)
    · exact Or.inl ⟨c, by rw [if_neg (hfresh c hc)]; exact hc, hremove⟩
    · obtain rfl := ManagementCommand.createSubCluster.inj heq
      exact Or.inl ⟨sm.nextClusterId, by rw [if_pos rfl]; exact List.contains_iff_mem.mpr hn,
        habove⟩
    · exact Or.inr ⟨nodeIds', hmem, hn⟩

theorem housedBehind_remove {sm : ManagementStateMachine} {clusterId nodeId : ℕ}
    {commands : List ManagementCommand} {n : ℕ} :
    (sm.apply (.removeNodeFromSubCluster clusterId nodeId)).2.HousedBehind commands n ↔
      sm.HousedBehind (.removeNodeFromSubCluster clusterId nodeId :: commands) n := by
  simp only [HousedBehind, hasMember_removeNode, List.mem_cons, reduceCtorEq, false_or,
    ManagementCommand.removeNodeFromSubCluster.injEq, not_or]
  refine or_congr_left (exists_congr fun c => ?_)
  constructor
  · rintro ⟨⟨hc, hne⟩, hremove⟩
    exact ⟨hc, fun heq => hne ⟨heq.1.symm, heq.2.symm⟩, hremove⟩
  · rintro ⟨hc, hne, hremove⟩
    exact ⟨⟨hc, fun heq => hne ⟨heq.1.symm, heq.2.symm⟩⟩, hremove⟩

/-- After creations and removals a node is housed where it was not removed, or in a sub-cluster
that was created with it. -/
theorem housed_applyAll_iff {b : ℕ} {commands : List ManagementCommand}
    (hmoves : ∀ command ∈ commands, MovesBelow b command) {sm : ManagementStateMachine}
    (hnumbered : sm.Numbered) (hb : b ≤ sm.nextClusterId)
    (hroom : sm.nextClusterId + commands.countP ManagementCommand.isCreate < U32.size) {n : ℕ} :
    (sm.applyAll commands).Housed n ↔ sm.HousedBehind commands n := by
  induction commands generalizing sm with
  | nil => simp [Housed, HousedBehind]
  | cons command commands ih =>
    have hrest := fun x hx => hmoves x (List.mem_cons_of_mem command hx)
    have hfirst := hmoves command List.mem_cons_self
    rw [List.countP_cons] at hroom
    rw [applyAll_cons]
    cases command with
    | createSubCluster nodeIds =>
      rw [ManagementCommand.isCreate, if_pos rfl] at hroom
      have hone : sm.nextClusterId + 1 < U32.size := by omega
      have hnext : (sm.apply (.createSubCluster nodeIds)).2.nextClusterId = sm.nextClusterId + 1 := by
        rw [nextClusterId_apply, ManagementCommand.isCreate, if_pos rfl, U32.add_of_lt hone]
      have habove : .removeNodeFromSubCluster sm.nextClusterId n ∉ commands :=
        fun hmem => absurd (hrest _ hmem) (Nat.not_lt.mpr hb)
      rw [ih hrest (hnumbered.apply fun _ => hone) (by omega) (by omega),
        housedBehind_create hnumbered habove]
    | removeNodeFromSubCluster clusterId nodeId =>
      have hnext : (sm.apply (.removeNodeFromSubCluster clusterId nodeId)).2.nextClusterId =
          sm.nextClusterId := by
        rw [nextClusterId_apply, if_neg (by simp [ManagementCommand.isCreate])]
      rw [ih hrest (hnumbered.apply fun h => absurd h (by simp [ManagementCommand.isCreate]))
        (by omega) (by omega), housedBehind_remove]
    | _ => exact hfirst.elim

end ManagementStateMachine

end Raftoral
